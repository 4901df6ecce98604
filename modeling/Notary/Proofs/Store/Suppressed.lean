/-
Writes that are not made again.

A store behind caches answers a write from its memory when the same content was lately written for
the same readers. Such a write would change nothing: what is remembered is in the inner store, and
its readers may read it there, whatever was written since. So the objects and the answers are those
of a store that makes every write.

* `WriteMemory.latest`, `WriteMemory.insert_eq` — the memory holds the writes that were made last.
* `Step.plain`, `forwarded` — a history without the memory, and the writes that are made in one with
  it.
* `Mindful`, `mindful_after` — what is remembered, and why it need not be written again.
* `writes_as_if_forwarded` — objects, answers, and which writes are made.
-/

import Notary.Proofs.Store.Disclosure

namespace Notary.Store

/-- Readers who may read an object anyway do not widen its audience. -/
theorem Audience.widen_of_admits {a : Audience} {readers : Readers}
    (admitted : ∀ k ∈ readers, a.admits k = true) : a.widen (.only readers) = a := by
  cases a with
  | everyone => rfl
  | only own =>
    have same : own.union readers = own := by
      refine Readers.ext fun k => ?_
      rw [Readers.mem_union]
      refine ⟨?_, .inl⟩
      rintro (member | member)
      · exact member
      · exact Audience.admits_only.mp (admitted k member)
    rw [Audience.widen, same]

/-! ### The memory of writes -/

namespace WriteMemory

/-- The writes that were made last, as many as are remembered. -/
def latest (keys : List WriteKey) : List WriteKey := keys.drop (keys.length - capacity)

theorem length_latest_le (keys : List WriteKey) : (latest keys).length ≤ capacity := by
  rw [latest, List.length_drop]
  omega

theorem latest_of_le {keys : List WriteKey} (room : keys.length ≤ capacity) :
    latest keys = keys := by
  rw [latest, Nat.sub_eq_zero_of_le room, List.drop_zero]

theorem latest_cons_of_lt {k : WriteKey} {rest : List WriteKey}
    (full : ¬ (k :: rest).length ≤ capacity) : latest (k :: rest) = latest rest := by
  have one : (k :: rest).length - capacity = rest.length - capacity + 1 := by
    rw [List.length_cons] at full ⊢
    omega
  rw [latest, one, List.drop_succ_cons, latest]

/-- Who remembers the latest writes needs no other for the latest with one more. -/
theorem latest_append (keys : List WriteKey) (k : WriteKey) :
    latest (latest keys ++ [k]) = latest (keys ++ [k]) := by
  have behind : latest keys ++ [k] = (keys ++ [k]).drop (keys.length - capacity) := by
    rw [latest, List.drop_append_of_le_length (Nat.sub_le _ _)]
  have places (n room : Nat) : n - room + (n + 1 - (n - room) - room) = n + 1 - room := by omega
  rw [behind, latest, latest, List.drop_drop, List.length_drop, List.length_append,
    List.length_singleton, places]

/-- The writes in the queue are those in the map, each once, and each with its own hash. -/
structure Sound (m : WriteMemory) : Prop where
  nodup : m.order.Nodup
  stored : ∀ k, m.stored[k]? = if k ∈ m.order then some k.2 else none

theorem sound_empty : Sound {} := by
  constructor
  · exact List.nodup_nil
  · intro k
    simp

theorem Sound.mem_stored_iff {m : WriteMemory} (sound : m.Sound) (k : WriteKey) :
    k ∈ m.stored ↔ k ∈ m.order := by
  rw [← Std.HashMap.isSome_getElem?_iff_mem, sound.stored]
  split <;> simp_all

/-- There are as many writes in the map as in the queue. -/
theorem Sound.size_stored {m : WriteMemory} (sound : m.Sound) :
    m.stored.size = m.order.length := by
  have perm : m.stored.keys.Perm m.order := by
    rw [List.perm_ext_iff_of_nodup (nodup_keys m.stored) sound.nodup]
    intro k
    rw [Std.HashMap.mem_keys, sound.mem_stored_iff]
  rw [← Std.HashMap.length_keys, perm.length_eq]

/-- Forgetting leaves the latest writes of a queue. -/
theorem forget_eq {m : WriteMemory} {queue : List WriteKey} (sound : Sound ⟨m.stored, queue⟩) :
    (m.forget queue).order = latest queue ∧ (m.forget queue).Sound := by
  induction queue generalizing m with
  | nil => exact ⟨rfl, sound⟩
  | cons first rest ih =>
    unfold forget
    split
    · rename_i room
      exact ⟨(latest_of_le room).symm, sound⟩
    · rename_i full
      have nodup := List.nodup_cons.mp sound.nodup
      rw [latest_cons_of_lt full]
      refine ih ⟨nodup.2, fun k => ?_⟩
      have kept := sound.stored k
      rw [Std.HashMap.getElem?_erase]
      by_cases same : first = k
      · subst same
        simp [nodup.1]
      · simpa [same, Ne.symm same] using kept

/-- A write that is not remembered yet is put behind all others. -/
theorem insert_eq {m : WriteMemory} (sound : m.Sound) {k : WriteKey} (fresh : k ∉ m.order) :
    (m.insert k k.2).order = latest (m.order ++ [k]) ∧ (m.insert k k.2).Sound := by
  have absent : ¬ m.stored.contains k = true := by
    rw [Std.HashMap.contains_iff_mem, sound.mem_stored_iff]
    exact fresh
  unfold insert
  simp only [absent]
  refine forget_eq ⟨?_, fun k' => ?_⟩
  · rw [if_neg Bool.false_ne_true]
    exact List.nodup_append.mpr ⟨sound.nodup, by simp, by grind⟩
  · rw [Std.HashMap.getElem?_insert, sound.stored]
    by_cases same : k = k'
    · subst same
      simp
    · simp [same, Ne.symm same]

end WriteMemory

namespace CachedStore

open WriteMemory

/-! ### Histories without the memory -/

/-- The operation on a store that has no caches. -/
def Step.plain : Step → MemoryStore.Step
  | .getRecord type hash reader => .getRecord type hash reader
  | .getArchive hash reader => .getArchive hash reader
  | .putRecord type bytes signer owner audience => .putRecord type bytes signer owner audience
  | .direct step => step

/-- The readers and the hash of a write through the caches. -/
def Step.writeKey? : Step → Option WriteKey
  | .putRecord _ bytes _ owner audience => some (audience.insert owner, contentHash bytes)
  | _ => none

/-- The write that an operation has the inner store make, which counts its writes. -/
def forwardedKey? (s : CachedStore MemoryStore) (step : Step) : Option WriteKey :=
  if (step.apply s).inner.writes = s.inner.writes then none else step.writeKey?

/-- The writes through the caches that the inner store has made in a history, in their order. -/
def forwarded : CachedStore MemoryStore → List Step → List WriteKey
  | _, [] => []
  | s, step :: rest => (forwardedKey? s step).toList ++ forwarded (step.apply s) rest

/-- An operation is no write through the caches, and it does to the inner store what it does to one
without caches; or it is such a write, and it is remembered or made. -/
theorem apply_cases (s : CachedStore MemoryStore) (step : Step) :
    (step.writeKey? = none ∧ (step.apply s).written = s.written ∧
        (step.apply s).inner.objects = (step.plain.apply s.inner).objects) ∨
      ∃ k, step.writeKey? = some k ∧
        ((k ∈ s.written.stored ∧ step.apply s = s) ∨
          (k ∉ s.written.stored ∧ step.apply s =
            { s with inner := step.plain.apply s.inner, written := s.written.insert k k.2 })) := by
  cases step with
  | getRecord type hash reader =>
    refine .inl ⟨rfl, rfl, ?_⟩
    rcases inner_readThrough s.records (reader, hash) (ObjectStore.getRecord type hash reader)
      s.inner with hit | miss
    · exact (congrArg MemoryStore.objects hit).trans rfl
    · exact congrArg MemoryStore.objects miss
  | getArchive hash reader =>
    refine .inl ⟨rfl, rfl, ?_⟩
    rcases inner_readThrough s.archives (reader, hash) (ObjectStore.getArchive hash reader)
      s.inner with hit | miss
    · exact (congrArg MemoryStore.objects hit).trans rfl
    · exact congrArg MemoryStore.objects miss
  | putRecord type bytes signer owner audience =>
    refine .inr ⟨_, rfl, ?_⟩
    change (_ ∧ (putRecord type bytes signer owner audience s).2 = s) ∨
      _ ∧ (putRecord type bytes signer owner audience s).2 = _
    simp only [putRecord]
    split
    · rename_i remembered
      exact .inl ⟨Std.HashMap.isSome_getElem?_iff_mem.mp (by simp [remembered]), rfl⟩
    · rename_i unknown
      refine .inr ⟨?_, rfl⟩
      rw [← Std.HashMap.isSome_getElem?_iff_mem, unknown]
      simp
  | direct step => exact .inl ⟨rfl, rfl, rfl⟩

/-- A write through the caches writes an object with its hash for its readers. -/
theorem written?_of_writeKey? {step : Step} {k : WriteKey} (write : step.writeKey? = some k) :
    step.plain.isSigned = true ∧
      ∃ o, step.plain.written? = some o ∧ contentHash o.bytes = k.2 ∧ o.audience = .only k.1 := by
  cases step with
  | putRecord type bytes signer owner audience =>
    cases write
    exact ⟨rfl, _, rfl, rfl, rfl⟩
  | getRecord type hash reader => cases write
  | getArchive hash reader => cases write
  | direct step => cases write

/-! ### What is remembered -/

/-- The readers of a write may read what is stored under its hash. -/
def Served (inner : MemoryStore) (k : WriteKey) : Prop :=
  ∃ o, inner.objects[k.2]? = some o ∧ ∀ reader ∈ k.1, o.audience.admits reader = true

theorem Served.extends {old new : MemoryStore} {k : WriteKey} (served : Served old k)
    (grown : old.Extends new) : Served new k := by
  obtain ⟨o, stored, admitted⟩ := served
  obtain ⟨o', stored', larger⟩ := grown k.2 o stored
  exact ⟨o', stored', fun reader member => larger.readers reader (admitted reader member)⟩

section Write

variable {inner : MemoryStore} {step : Step} {k : WriteKey}

/-- A write serves its readers. -/
theorem served_apply (write : step.writeKey? = some k) : Served (step.plain.apply inner) k := by
  obtain ⟨-, o, written, hash, audience⟩ := written?_of_writeKey? write
  refine ⟨MemoryStore.merge inner.objects[k.2]? o, ?_, ?_⟩
  · rw [MemoryStore.Step.objects_apply, written]
    simp only [MemoryStore.objects_insert, if_pos hash]
  · intro reader member
    cases inner.objects[k.2]? with
    | none => simpa [MemoryStore.merge, audience] using member
    | some old => simp [MemoryStore.merge, audience, member]

/-- Writing again for readers who are served already changes no object. -/
theorem objects_of_served (write : step.writeKey? = some k) (served : Served inner k) (h : Hash) :
    (step.plain.apply inner).objects[h]? = inner.objects[h]? := by
  obtain ⟨-, o, written, hash, audience⟩ := written?_of_writeKey? write
  obtain ⟨old, stored, admitted⟩ := served
  rw [MemoryStore.Step.objects_apply, written]
  simp only [MemoryStore.objects_insert]
  split
  · rename_i same
    rw [← same, hash, stored, MemoryStore.merge, audience, Audience.widen_of_admits admitted]
  · rfl

end Write

/-- The memory holds the latest of the writes that were sent on, and all of their readers are
served. -/
structure Mindful (s : CachedStore MemoryStore) (sent : List WriteKey) : Prop where
  sound : s.written.Sound
  order : s.written.order = latest sent
  served : ∀ k ∈ s.written.order, Served s.inner k

theorem mindful_new (inner : MemoryStore) (recordBytes archiveBytes : Nat) :
    Mindful (new inner recordBytes archiveBytes) [] :=
  ⟨sound_empty, rfl, by simp [new]⟩

/-- An operation that is no write leaves the memory as it is, and so does a write that is
remembered. Any other is made, and remembered behind those before it. -/
theorem mindful_apply {s : CachedStore MemoryStore} {sent : List WriteKey}
    (mindful : Mindful s sent) (step : Step) :
    Mindful (step.apply s) (sent ++ (forwardedKey? s step).toList) := by
  rcases apply_cases s step with ⟨noWrite, written, objects⟩ | ⟨k, write, known | ⟨unknown, made⟩⟩
  · have none : forwardedKey? s step = none := by simp [forwardedKey?, noWrite]
    have grown : s.inner.Extends (step.apply s).inner :=
      (step.plain.apply_extends s.inner).trans (MemoryStore.extends_of_objects_eq objects)
    rw [none, Option.toList_none, List.append_nil]
    refine ⟨written ▸ mindful.sound, written ▸ mindful.order, fun k member => ?_⟩
    exact (mindful.served k (written ▸ member)).extends grown
  · have none : forwardedKey? s step = none := by simp [forwardedKey?, known.2]
    rwa [none, Option.toList_none, List.append_nil, known.2]
  · have fresh : k ∉ s.written.order := by rwa [← mindful.sound.mem_stored_iff]
    have sent' : forwardedKey? s step = some k := by
      have counted := MemoryStore.writes_after s.inner [step.plain]
      simp [MemoryStore.after, (written?_of_writeKey? write).1] at counted
      simp [forwardedKey?, made, write, counted]
    obtain ⟨order, sound⟩ := insert_eq mindful.sound fresh
    have grown := step.plain.apply_extends s.inner
    rw [made, sent', Option.toList_some]
    refine ⟨sound, ?_, fun k' member => ?_⟩
    · rw [order, mindful.order, latest_append]
    · rw [order, latest] at member
      rcases List.mem_append.mp (List.mem_of_mem_drop member) with old | new
      · exact (mindful.served k' old).extends grown
      · rw [List.mem_singleton.mp new]
        exact served_apply write

theorem mindful_after {s : CachedStore MemoryStore} {sent : List WriteKey}
    (mindful : Mindful s sent) (history : List Step) :
    Mindful (s.after history) (sent ++ forwarded s history) := by
  induction history generalizing s sent with
  | nil => simpa [forwarded, after] using mindful
  | cons step rest ih =>
    rw [forwarded, ← List.append_assoc]
    exact ih (mindful_apply mindful step)

/-- The objects behind a history are those behind one in which every write is made. -/
theorem objects_after_plain {s : CachedStore MemoryStore} {sent : List WriteKey}
    (mindful : Mindful s sent) (history : List Step) (h : Hash) :
    (s.after history).inner.objects[h]? =
      (s.inner.after (history.map Step.plain)).objects[h]? := by
  induction history generalizing s sent with
  | nil => rfl
  | cons step rest ih =>
    have here (h : Hash) :
        (step.apply s).inner.objects[h]? = (step.plain.apply s.inner).objects[h]? := by
      rcases apply_cases s step with ⟨-, -, objects⟩ | ⟨k, write, ⟨known, same⟩ | ⟨-, made⟩⟩
      · rw [objects]
      · rw [same]
        exact (objects_of_served write
          (mindful.served k ((mindful.sound.mem_stored_iff k).mp known)) h).symm
      · rw [made]
    rw [List.map_cons, MemoryStore.after_cons, MemoryStore.objects_after, ← here h,
      ← MemoryStore.objects_after]
    exact ih (mindful_apply mindful step)

/-! ### Writes -/

/-- A write that is remembered is answered from the memory; any other is made. -/
theorem putRecord_eq {s : CachedStore MemoryStore} {sent : List WriteKey}
    (mindful : Mindful s sent) (type : String) (bytes : Bytes) (signer owner : PublicKey)
    (audience : Readers) :
    putRecord type bytes signer owner audience s =
      if (audience.insert owner, contentHash bytes) ∈ latest sent then (contentHash bytes, s)
      else (contentHash bytes,
        { s with
          inner := (s.inner.putRecord type bytes signer owner audience).2
          written := s.written.insert (audience.insert owner, contentHash bytes)
            (contentHash bytes) }) := by
  have remembered := mindful.sound.stored (audience.insert owner, contentHash bytes)
  rw [mindful.order] at remembered
  unfold putRecord
  by_cases known : (audience.insert owner, contentHash bytes) ∈ latest sent
  · simp only [remembered, if_pos known]
  · simp only [remembered, if_neg known]
    rfl

/-- After any history of operations through the caches and on the inner store, the objects of the
inner store are those of one that has made every write, and a further write is answered with the
same hash. It is made exactly when its readers and its hash are not among those of the latest writes
that were made; otherwise nothing changes at all. The memory holds just these latest writes, no more
than it has room for, and its map and its queue hold the same, each once. -/
theorem writes_as_if_forwarded (inner : MemoryStore) (recordBytes archiveBytes : Nat)
    (history : List Step) :
    let s := (new inner recordBytes archiveBytes).after history
    let complete := inner.after (history.map Step.plain)
    let recent := latest (forwarded (new inner recordBytes archiveBytes) history)
    (∀ h : Hash, s.inner.objects[h]? = complete.objects[h]?) ∧
      (∀ (type : String) (bytes : Bytes) (signer owner : PublicKey) (audience : Readers),
        let through := ObjectStore.putRecord type bytes signer owner audience s
        through.1 = (ObjectStore.putRecord type bytes signer owner audience complete).1 ∧
          (through.2.inner = (ObjectStore.putRecord type bytes signer owner audience s.inner).2 ↔
            (audience.insert owner, contentHash bytes) ∉ recent) ∧
          ((audience.insert owner, contentHash bytes) ∈ recent → through.2 = s)) ∧
      s.written.order = recent ∧ s.written.order.Nodup ∧
      (∀ k, k ∈ s.written.stored ↔ k ∈ s.written.order) ∧
      s.written.stored.size = s.written.order.length ∧ s.written.order.length ≤ capacity := by
  intro s complete recent
  have unwritten := mindful_new inner recordBytes archiveBytes
  have mindful : Mindful s (forwarded (new inner recordBytes archiveBytes) history) :=
    mindful_after unwritten history
  have short : s.written.order.length ≤ capacity := by
    rw [mindful.order]
    exact length_latest_le _
  refine ⟨objects_after_plain unwritten history, ?_, mindful.order, mindful.sound.nodup,
    mindful.sound.mem_stored_iff, mindful.sound.size_stored, short⟩
  intro type bytes signer owner audience through
  have answer : through = _ := putRecord_eq mindful type bytes signer owner audience
  by_cases known : (audience.insert owner, contentHash bytes) ∈ recent
  · have uncounted :
        s.inner ≠ (ObjectStore.putRecord type bytes signer owner audience s.inner).2 := by
      intro same
      have counted : s.inner.writes = s.inner.writes + 1 := congrArg MemoryStore.writes same
      omega
    rw [if_pos known] at answer
    rw [answer]
    exact ⟨rfl, ⟨fun made => absurd made uncounted, fun fresh => absurd known fresh⟩, fun _ => rfl⟩
  · rw [if_neg known] at answer
    rw [answer]
    exact ⟨rfl, ⟨fun _ => known, fun _ => rfl⟩, fun member => absurd member known⟩

end CachedStore

end Notary.Store
