/-
Histories of a store that keeps all objects in memory.

A store changes by writes only, and a write takes nothing back: the object under a hash keeps its
kind, its bytes and its signer, and its readers only become more. What a history leaves under a hash
is the first write of that hash, readable by whoever some write of it admits.

* `MemoryStore.Step`, `MemoryStore.after` — writes and reads, and the store that a history leaves.
* `objects_after` — the object under a hash is made of the writes of that hash, in their order.
* `objects_after_of_audience`, `writes_after` — the objects and the signed writes of a history that
  writes for one audience.
* `MemoryStore.Extends`, `after_extends` — a later store has every object of an earlier one.
* `MemoryStore.Unwritten` — nothing was written in between.
* `archivesPublic_after` — archives come without an audience, so every key may read them.
-/

import Notary.Store.Memory

namespace Notary.Store

/-! ### Objects that grow -/

/-- The newer object is the older one, with more readers at most. -/
structure StoredObject.Extends (old new : StoredObject) : Prop where
  kind : new.kind = old.kind
  bytes : new.bytes = old.bytes
  signer : new.signer = old.signer
  readers : ∀ k, old.audience.admits k = true → new.audience.admits k = true

namespace StoredObject.Extends

theorem refl (o : StoredObject) : o.Extends o := ⟨rfl, rfl, rfl, fun _ admitted => admitted⟩

theorem trans {a b c : StoredObject} (left : a.Extends b) (right : b.Extends c) : a.Extends c :=
  ⟨right.kind.trans left.kind, right.bytes.trans left.bytes, right.signer.trans left.signer,
    fun k admitted => right.readers k (left.readers k admitted)⟩

end StoredObject.Extends

namespace Audience

theorem widen_self (a : Audience) : a.widen a = a := by
  cases a with
  | everyone => rfl
  | only r =>
    have same : r.union r = r := Readers.ext (by simp)
    rw [widen, same]

/-- Widening twice by the same readers is widening once. -/
theorem widen_widen (a b : Audience) : (a.widen b).widen b = a.widen b := by
  cases a with
  | everyone => rfl
  | only r =>
    cases b with
    | everyone => rfl
    | only s =>
      have same : (r.union s).union s = r.union s := Readers.ext (by simp)
      simp only [widen, same]

end Audience

namespace MemoryStore

theorem merge_extends (o new : StoredObject) : o.Extends (merge (some o) new) :=
  ⟨rfl, rfl, rfl, fun k admitted => by simp [merge, admitted]⟩

/-- A second write for the same audience changes nothing. -/
theorem merge_merge (old : Option StoredObject) {first second : StoredObject}
    (same : second.audience = first.audience) :
    merge (some (merge old first)) second = merge old first := by
  cases old with
  | none => simp only [merge, same, Audience.widen_self]
  | some o => simp only [merge, same, Audience.widen_widen]

/-- Every object of the older store is still there, with more readers at most. -/
def Extends (old new : MemoryStore) : Prop :=
  ∀ (h : Hash) (o : StoredObject), old.objects[h]? = some o →
    ∃ o', new.objects[h]? = some o' ∧ o.Extends o'

theorem Extends.refl (s : MemoryStore) : s.Extends s := fun _ o stored => ⟨o, stored, .refl o⟩

theorem Extends.trans {a b c : MemoryStore} (left : a.Extends b) (right : b.Extends c) :
    a.Extends c := by
  intro h o stored
  obtain ⟨o', stored', grown⟩ := left h o stored
  obtain ⟨o'', stored'', grown'⟩ := right h o' stored'
  exact ⟨o'', stored'', grown.trans grown'⟩

theorem extends_of_objects_eq {old new : MemoryStore} (same : new.objects = old.objects) :
    old.Extends new := by
  intro h o stored
  exact ⟨o, same ▸ stored, .refl o⟩

theorem objects_insert (s : MemoryStore) (o : StoredObject) (h : Hash) :
    (s.insert o).2.objects[h]? =
      if contentHash o.bytes = h then some (merge s.objects[h]? o) else s.objects[h]? := by
  unfold insert
  rw [Std.HashMap.getElem?_insert]
  by_cases same : contentHash o.bytes = h
  · subst same
    simp
  · simp [same]

theorem insert_extends (s : MemoryStore) (o : StoredObject) : s.Extends (s.insert o).2 := by
  intro h old stored
  rw [objects_insert]
  split
  · exact ⟨_, rfl, stored ▸ merge_extends old o⟩
  · exact ⟨old, stored, .refl old⟩

/-- The store is as before: no write was made, and no object has changed. -/
structure Unwritten (old new : MemoryStore) : Prop where
  objects : new.objects = old.objects
  writes : new.writes = old.writes

theorem Unwritten.refl (s : MemoryStore) : s.Unwritten s := ⟨rfl, rfl⟩

theorem Unwritten.trans {a b c : MemoryStore} (first : a.Unwritten b) (second : b.Unwritten c) :
    a.Unwritten c :=
  ⟨second.objects.trans first.objects, second.writes.trans first.writes⟩

/-! ### Reads -/

theorem lookup_eq_ok_iff {s : MemoryStore} {h : Hash} {reader : PublicKey} {expected : ObjectKind}
    {bytes : Bytes} :
    s.lookup h reader expected = .ok bytes ↔
      ∃ o, s.objects[h]? = some o ∧ o.audience.admits reader = true ∧ o.kind = expected ∧
        o.bytes = bytes := by
  unfold lookup
  cases s.objects[h]? with
  | none => simp
  | some o =>
    by_cases admitted : o.audience.admits reader = true
    · by_cases fits : o.kind = expected <;> simp [admitted, fits]
    · simp [admitted]

/-- What a reader gets who may read the object. -/
theorem lookup_of_admits {s : MemoryStore} {h : Hash} {o : StoredObject} {reader : PublicKey}
    (stored : s.objects[h]? = some o) (admitted : o.audience.admits reader = true)
    (expected : ObjectKind) :
    s.lookup h reader expected =
      if o.kind = expected then .ok o.bytes else .error (.typeMismatch h expected o.kind) := by
  simp [lookup, stored, admitted]

/-- A reader who may read an object of an older store is told its kind by every newer one. -/
theorem Extends.lookup_eq {old new : MemoryStore} (grown : old.Extends new) {h : Hash}
    {o : StoredObject} {reader : PublicKey} (stored : old.objects[h]? = some o)
    (admitted : o.audience.admits reader = true) (expected : ObjectKind) :
    new.lookup h reader expected = old.lookup h reader expected := by
  obtain ⟨o', stored', same⟩ := grown h o stored
  rw [lookup_of_admits stored admitted, lookup_of_admits stored' (same.readers _ admitted),
    same.kind, same.bytes]

/-! ### Histories -/

/-- A write or a read. The first three seed the store; the others are made through its interface. -/
inductive Step where
  | putArchive (bytes : Bytes)
  | insertRecord (type : String) (bytes : Bytes)
  | insertPrivateRecord (type : String) (bytes : Bytes) (readers : Readers)
  | putRecord (type : String) (bytes : Bytes) (signer owner : PublicKey) (audience : Readers)
  | getRecord (type : String) (hash : Hash) (reader : PublicKey)
  | getArchive (hash : Hash) (reader : PublicKey)

namespace Step

/-- The object that a step writes. -/
def written? : Step → Option StoredObject
  | .putArchive bytes => some ⟨.archive, bytes, .everyone, none⟩
  | .insertRecord type bytes => some ⟨.record type, bytes, .everyone, none⟩
  | .insertPrivateRecord type bytes readers => some ⟨.record type, bytes, .only readers, none⟩
  | .putRecord type bytes signer owner audience =>
    some ⟨.record type, bytes, .only (audience.insert owner), some signer⟩
  | .getRecord _ _ _ => none
  | .getArchive _ _ => none

/-- The store after a step. -/
def apply (step : Step) (s : MemoryStore) : MemoryStore :=
  match step with
  | .putArchive bytes => (s.putArchive bytes).2
  | .insertRecord type bytes => (s.insertRecord type bytes).2
  | .insertPrivateRecord type bytes readers => (s.insertPrivateRecord type bytes readers).2
  | .putRecord type bytes signer owner audience =>
    (ObjectStore.putRecord type bytes signer owner audience s).2
  | .getRecord type hash reader => (ObjectStore.getRecord type hash reader s).2
  | .getArchive hash reader => (ObjectStore.getArchive hash reader s).2

theorem objects_apply (step : Step) (s : MemoryStore) :
    (step.apply s).objects =
      match step.written? with
      | some o => (s.insert o).2.objects
      | none => s.objects := by
  cases step <;> rfl

theorem apply_extends (step : Step) (s : MemoryStore) : s.Extends (step.apply s) := by
  intro h o stored
  rw [objects_apply]
  cases step.written? with
  | none => exact ⟨o, stored, .refl o⟩
  | some new => exact insert_extends s new h o stored

end Step

/-- The store that a history leaves. -/
def after (s : MemoryStore) (history : List Step) : MemoryStore :=
  history.foldl (fun s step => step.apply s) s

@[simp] theorem after_nil (s : MemoryStore) : s.after [] = s := rfl

@[simp] theorem after_cons (s : MemoryStore) (step : Step) (rest : List Step) :
    s.after (step :: rest) = (step.apply s).after rest := rfl

theorem after_append (s : MemoryStore) (first later : List Step) :
    s.after (first ++ later) = (s.after first).after later := List.foldl_append

theorem after_extends (s : MemoryStore) (history : List Step) : s.Extends (s.after history) := by
  induction history generalizing s with
  | nil => exact .refl s
  | cons step rest ih => exact (step.apply_extends s).trans (ih (step.apply s))

/-- The writes of a history whose content has the given hash, in their order. -/
def writesOf (h : Hash) (history : List Step) : List StoredObject :=
  (history.filterMap Step.written?).filter fun o => contentHash o.bytes = h

theorem writesOf_append (h : Hash) (first later : List Step) :
    writesOf h (first ++ later) = writesOf h first ++ writesOf h later := by
  simp [writesOf]

/-- What several writes of the same hash make of the object under it. -/
def mergeAll (old : Option StoredObject) (writes : List StoredObject) : Option StoredObject :=
  writes.foldl (fun old new => some (merge old new)) old

theorem objects_after (s : MemoryStore) (history : List Step) (h : Hash) :
    (s.after history).objects[h]? = mergeAll s.objects[h]? (writesOf h history) := by
  induction history generalizing s with
  | nil => rfl
  | cons step rest ih =>
    rw [after_cons, ih, Step.objects_apply]
    cases written : step.written? with
    | none => simp [writesOf, written]
    | some o =>
      simp only [objects_insert]
      by_cases same : contentHash o.bytes = h <;> simp [writesOf, mergeAll, written, same]

/-- The objects behind a history follow from those in front of it. -/
theorem objects_after_congr {s s' : MemoryStore} (same : s.objects = s'.objects)
    (history : List Step) : (s.after history).objects = (s'.after history).objects := by
  induction history generalizing s s' with
  | nil => exact same
  | cons step rest ih =>
    refine ih ?_
    rw [Step.objects_apply, Step.objects_apply]
    cases step.written? with
    | none => exact same
    | some o => simp only [insert, same]

/-- The first write stays; the others only add their readers. -/
theorem mergeAll_some (o : StoredObject) (writes : List StoredObject) :
    ∃ o', mergeAll (some o) writes = some o' ∧ o.Extends o' ∧
      ∀ k, o'.audience.admits k = (o.audience.admits k || writes.any (·.audience.admits k)) := by
  induction writes generalizing o with
  | nil => exact ⟨o, rfl, .refl o, by simp⟩
  | cons new rest ih =>
    obtain ⟨o', merged, grown, admits⟩ := ih (merge (some o) new)
    refine ⟨o', merged, (merge_extends o new).trans grown, ?_⟩
    intro k
    rw [admits k]
    simp [merge, Bool.or_assoc]

/-- Of several writes for one audience, the first is what counts. -/
theorem mergeAll_of_audience (old : Option StoredObject) {first : StoredObject}
    {rest : List StoredObject} (same : ∀ o ∈ rest, o.audience = first.audience) :
    mergeAll old (first :: rest) = some (merge old first) := by
  have stays : mergeAll (some (merge old first)) rest = some (merge old first) := by
    induction rest with
    | nil => rfl
    | cons o rest ih =>
      have step : merge (some (merge old first)) o = merge old first :=
        merge_merge old (same o (by simp))
      change mergeAll (some (merge (some (merge old first)) o)) rest = _
      rw [step]
      exact ih fun o member => same o (by simp [member])
  exact stays

/-- What a history that writes for one audience makes of a hash: nothing when it does not write that
hash, and what its first write of it makes otherwise. -/
theorem objects_after_of_audience {history : List Step} {audience : Audience}
    (same : ∀ step ∈ history, ∀ o ∈ step.written?, o.audience = audience) (s : MemoryStore)
    (h : Hash) :
    ((∀ step ∈ history, ∀ o ∈ step.written?, contentHash o.bytes ≠ h) ∧
        (s.after history).objects[h]? = s.objects[h]?) ∨
      ∃ step ∈ history, ∃ o ∈ step.written?, contentHash o.bytes = h ∧
        (s.after history).objects[h]? = some (merge s.objects[h]? o) := by
  have member (o : StoredObject) :
      o ∈ writesOf h history ↔ (∃ step ∈ history, o ∈ step.written?) ∧ contentHash o.bytes = h := by
    simp [writesOf]
  have stored := objects_after s history h
  cases writes : writesOf h history with
  | nil =>
    rw [writes] at stored
    refine .inl ⟨?_, stored⟩
    intro step here o written bears
    have absent := (member o).mpr ⟨⟨step, here, written⟩, bears⟩
    simp [writes] at absent
  | cons first rest =>
    have addressed (o : StoredObject) (among : o ∈ writesOf h history) :
        o.audience = audience := by
      obtain ⟨⟨step, here, written⟩, -⟩ := (member o).mp among
      exact same step here o written
    rw [writes, mergeAll_of_audience] at stored
    · obtain ⟨⟨step, here, written⟩, bears⟩ := (member first).mp (by simp [writes])
      exact .inr ⟨step, here, first, written, bears, stored⟩
    · intro o among
      rw [addressed o (by simp [writes, among]), addressed first (by simp [writes])]

/-! ### Signed writes -/

/-- The step is a signed write. -/
def Step.isSigned : Step → Bool
  | .putRecord _ _ _ _ _ => true
  | _ => false

/-- Signed writes are counted. -/
theorem writes_after (s : MemoryStore) (history : List Step) :
    (s.after history).writes = s.writes + history.countP Step.isSigned := by
  induction history generalizing s with
  | nil => rfl
  | cons step rest ih =>
    rw [after_cons, ih, List.countP_cons]
    have counted : (step.apply s).writes = s.writes + if step.isSigned then 1 else 0 := by
      cases step <;> rfl
    omega

/-! ### Archives -/

/-- Every key may read every archive. -/
def ArchivesPublic (s : MemoryStore) : Prop :=
  ∀ (h : Hash) (o : StoredObject), s.objects[h]? = some o → o.kind = .archive →
    o.audience = .everyone

theorem archivesPublic_empty : ArchivesPublic {} := by
  intro h o stored
  simp at stored

theorem archivesPublic_congr {s s' : MemoryStore} (same : s.objects = s'.objects)
    (isPublic : s.ArchivesPublic) : s'.ArchivesPublic := by
  intro h o stored
  rw [← same] at stored
  exact isPublic h o stored

/-- Archives are written without an audience, and an object without one does not get any. -/
theorem Step.archivesPublic_apply {s : MemoryStore} (isPublic : s.ArchivesPublic) (step : Step) :
    (step.apply s).ArchivesPublic := by
  intro h o stored archive
  rw [Step.objects_apply] at stored
  cases written : step.written? with
  | none =>
    simp only [written] at stored
    exact isPublic h o stored archive
  | some new =>
    simp only [written, objects_insert] at stored
    split at stored
    · cases old : s.objects[h]? with
      | none =>
        simp only [old, merge, Option.some.injEq] at stored
        subst stored
        cases step <;> simp [Step.written?] at written <;> subst written <;> simp_all
      | some o' =>
        simp only [old, merge, Option.some.injEq] at stored
        subst stored
        rw [isPublic h o' old archive]
        rfl
    · exact isPublic h o stored archive

theorem archivesPublic_after {s : MemoryStore} (isPublic : s.ArchivesPublic)
    (history : List Step) : (s.after history).ArchivesPublic := by
  induction history generalizing s with
  | nil => exact isPublic
  | cons step rest ih => exact ih (step.archivesPublic_apply isPublic)

end MemoryStore

end Notary.Store
