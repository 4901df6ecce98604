/-
Reads through the caches of a store.

What a cache holds was once read from the inner store, and the objects of the inner store only gain
readers. So everything in a cache is still there, and its reader may still read it. A record is kept
under its reader and its hash alone, though: once it is kept, it is given out as any type.

* `Step`, `after` — histories of operations through the caches and on the inner store itself.
* `Coherent`, `coherent_after` — the entries of the caches are objects that their readers may read.
* `getRecord_eq_inner_iff` — a read through the cache answers like the inner store, unless the
  record is kept and of another type.
* `kept_record_of_another_type` — a record that is read as a type that it does not have.
-/

import Notary.Proofs.Store.History
import Notary.Store.Cached

namespace Notary.Store

/-- No key stands in a map twice. -/
theorem nodup_keys {κ α : Type} [BEq κ] [LawfulBEq κ] [Hashable κ] (m : Std.HashMap κ α) :
    m.keys.Nodup :=
  Std.HashMap.distinct_keys.imp fun different same => by simp [same] at different

/-! ### Entries of a cache -/

namespace ByteCache

variable {κ : Type} [DecidableEq κ] [Hashable κ]

theorem entries_get (c : ByteCache κ) (k : κ) : (c.get k).2.entries = c.entries := by
  unfold get
  cases held : c.entries[k]? <;> rfl

/-- Nothing comes into a cache when keys leave it. -/
theorem entries_evict {c : ByteCache κ} {queue : List κ} {k : κ} {v : Bytes}
    (held : (c.evict queue).entries[k]? = some v) : c.entries[k]? = some v := by
  induction queue generalizing c with
  | nil => exact held
  | cons first rest ih =>
    unfold evict at held
    split at held
    · exact held
    · have kept := ih held
      rw [Std.HashMap.getElem?_erase] at kept
      split at kept
      · simp at kept
      · exact kept

/-- After an insertion a cache holds nothing but the new value and what it held before. -/
theorem entries_insert {c : ByteCache κ} {k k' : κ} {v v' : Bytes}
    (held : (c.insert k v).entries[k']? = some v') :
    (k' = k ∧ v' = v) ∨ c.entries[k']? = some v' := by
  unfold insert at held
  split at held
  · exact .inr held
  · have kept := entries_evict held
    rw [Std.HashMap.getElem?_insert] at kept
    by_cases same : k = k'
    · simp only [same, beq_self_eq_true, if_true, Option.some.injEq] at kept
      exact .inl ⟨same.symm, kept.symm⟩
    · refine .inr ?_
      simp only [beq_iff_eq, same, if_false] at kept
      cases old : c.entries[k]? <;> simpa [old, touch] using kept

end ByteCache

namespace CachedStore

/-! ### Histories -/

/-- An operation through the caches, or one of the inner store that the caches do not see. -/
inductive Step where
  | getRecord (type : String) (hash : Hash) (reader : PublicKey)
  | getArchive (hash : Hash) (reader : PublicKey)
  | putRecord (type : String) (bytes : Bytes) (signer owner : PublicKey) (audience : Readers)
  | direct (step : MemoryStore.Step)

/-- The store after an operation. -/
def Step.apply (step : Step) (s : CachedStore MemoryStore) : CachedStore MemoryStore :=
  match step with
  | .getRecord type hash reader => (ObjectStore.getRecord type hash reader s).2
  | .getArchive hash reader => (ObjectStore.getArchive hash reader s).2
  | .putRecord type bytes signer owner audience =>
    (ObjectStore.putRecord type bytes signer owner audience s).2
  | .direct step => { s with inner := step.apply s.inner }

/-- The store that a history leaves. -/
def after (s : CachedStore MemoryStore) (history : List Step) : CachedStore MemoryStore :=
  history.foldl (fun s step => step.apply s) s

/-! ### Coherence -/

/-- Every entry is an object of the inner store that its reader may read, of one of these kinds. -/
def Backed (inner : MemoryStore) (kinds : ObjectKind → Prop) (cache : ByteCache ReadKey) : Prop :=
  ∀ (key : ReadKey) (bytes : Bytes), cache.entries[key]? = some bytes →
    ∃ o, inner.objects[key.2]? = some o ∧ kinds o.kind ∧ o.audience.admits key.1 = true ∧
      o.bytes = bytes

/-- An object stays in the inner store with its kind, its bytes and its readers. -/
theorem Backed.extends {old new : MemoryStore} {kinds : ObjectKind → Prop}
    {cache : ByteCache ReadKey} (backed : Backed old kinds cache) (grown : old.Extends new) :
    Backed new kinds cache := by
  intro key bytes held
  obtain ⟨o, stored, kind, admitted, same⟩ := backed key bytes held
  obtain ⟨o', stored', larger⟩ := grown key.2 o stored
  exact ⟨o', stored', larger.kind ▸ kind, larger.readers _ admitted, larger.bytes.trans same⟩

theorem Backed.congr {inner : MemoryStore} {kinds : ObjectKind → Prop}
    {cache cache' : ByteCache ReadKey} (backed : Backed inner kinds cache)
    (same : cache'.entries = cache.entries) : Backed inner kinds cache' := by
  intro key bytes held
  exact backed key bytes (same ▸ held)

/-- What is read from the inner store may be kept. -/
theorem Backed.insert {inner : MemoryStore} {kinds : ObjectKind → Prop}
    {cache : ByteCache ReadKey} (backed : Backed inner kinds cache) {key : ReadKey}
    {expected : ObjectKind} (fits : kinds expected) {bytes : Bytes}
    (read : inner.lookup key.2 key.1 expected = .ok bytes) :
    Backed inner kinds (cache.insert key bytes) := by
  intro key' bytes' held
  rcases ByteCache.entries_insert held with ⟨rfl, rfl⟩ | held
  · obtain ⟨o, stored, admitted, rfl, same⟩ := MemoryStore.lookup_eq_ok_iff.mp read
    exact ⟨o, stored, fits, admitted, same⟩
  · exact backed key' bytes' held

/-- A kind that records have. -/
def IsRecord (kind : ObjectKind) : Prop := ∃ type, kind = .record type

/-- The entries of both caches are objects of the inner store that their readers may read. -/
structure Coherent (s : CachedStore MemoryStore) : Prop where
  records : Backed s.inner IsRecord s.records
  archives : Backed s.inner (· = .archive) s.archives

theorem coherent_new (inner : MemoryStore) (recordBytes archiveBytes : Nat) :
    Coherent (new inner recordBytes archiveBytes) := by
  constructor <;> intro key bytes held <;> simp [new] at held

/-- A read through a cache keeps what it read. The inner store is the same but for its count. -/
theorem readThrough_backed {inner : MemoryStore} {kinds : ObjectKind → Prop}
    {cache : ByteCache ReadKey} (backed : Backed inner kinds cache) (key : ReadKey)
    {expected : ObjectKind} (fits : kinds expected) :
    let through := readThrough cache key (fun s => s.read key.2 key.1 expected) inner
    through.2.2.objects = inner.objects ∧ Backed inner kinds through.2.1 := by
  unfold readThrough
  split
  · rename_i v cache' hit
    have same : cache' = (cache.get key).2 := by rw [hit]
    exact ⟨rfl, backed.congr (same ▸ cache.entries_get key)⟩
  · rename_i cache' miss
    have same : cache' = (cache.get key).2 := by rw [miss]
    have backed' := backed.congr (same ▸ cache.entries_get key)
    cases read : inner.lookup key.2 key.1 expected with
    | error e => simpa [MemoryStore.read, read] using backed'
    | ok bytes => simpa [MemoryStore.read, read] using backed'.insert fits read

/-- A write that is remembered changes nothing; any other is made in the inner store. -/
theorem putRecord_cases (s : CachedStore MemoryStore) (type : String) (bytes : Bytes)
    (signer owner : PublicKey) (audience : Readers) :
    (Step.putRecord type bytes signer owner audience).apply s = s ∨
      ∃ written, (Step.putRecord type bytes signer owner audience).apply s =
        { s with
          inner := (MemoryStore.Step.putRecord type bytes signer owner audience).apply s.inner
          written } := by
  change (putRecord type bytes signer owner audience s).2 = s ∨
    ∃ written, (putRecord type bytes signer owner audience s).2 = _
  simp only [putRecord]
  split
  · exact .inl rfl
  · exact .inr ⟨_, rfl⟩

theorem coherent_apply {s : CachedStore MemoryStore} (coherent : Coherent s) (step : Step) :
    Coherent (step.apply s) := by
  cases step with
  | getRecord type hash reader =>
    have fits : IsRecord (.record type) := ⟨type, rfl⟩
    obtain ⟨same, backed⟩ := readThrough_backed coherent.records (reader, hash) fits
    have grown := MemoryStore.extends_of_objects_eq same
    exact ⟨backed.extends grown, coherent.archives.extends grown⟩
  | getArchive hash reader =>
    obtain ⟨same, backed⟩ := readThrough_backed coherent.archives (reader, hash) rfl
    have grown := MemoryStore.extends_of_objects_eq same
    exact ⟨coherent.records.extends grown, backed.extends grown⟩
  | putRecord type bytes signer owner audience =>
    rcases putRecord_cases s type bytes signer owner audience with same | ⟨written, same⟩
    · rw [same]
      exact coherent
    · have grown :=
        (MemoryStore.Step.putRecord type bytes signer owner audience).apply_extends s.inner
      rw [same]
      exact ⟨coherent.records.extends grown, coherent.archives.extends grown⟩
  | direct step =>
    have grown := step.apply_extends s.inner
    exact ⟨coherent.records.extends grown, coherent.archives.extends grown⟩

theorem coherent_after {s : CachedStore MemoryStore} (coherent : Coherent s)
    (history : List Step) : Coherent (s.after history) := by
  induction history generalizing s with
  | nil => exact coherent
  | cons step rest ih => exact ih (coherent_apply coherent step)

/-! ### What a reader gets -/

/-- What is kept under a key is given out without a question to the inner store. -/
theorem readThrough_of_kept {σ : Type} {cache : ByteCache ReadKey} {key : ReadKey} {bytes : Bytes}
    (kept : cache.entries[key]? = some bytes) (fetch : StateM σ (Except Fault Bytes)) (inner : σ) :
    readThrough cache key fetch inner = (.ok bytes, cache.touch key, inner) := by
  simp [readThrough, ByteCache.get, kept]

/-- For what is not kept, the inner store is asked. -/
theorem readThrough_of_not_kept {σ : Type} {cache : ByteCache ReadKey} {key : ReadKey}
    (missing : cache.entries[key]? = none) (fetch : StateM σ (Except Fault Bytes)) (inner : σ) :
    (readThrough cache key fetch inner).1 = (fetch inner).1 ∧
      (readThrough cache key fetch inner).2.2 = (fetch inner).2 := by
  unfold readThrough
  simp only [ByteCache.get, missing]
  cases fetched : fetch inner with
  | mk answer inner' => cases answer <;> exact ⟨rfl, rfl⟩

/-- A record that is kept for the reader is given out as it is, whatever its type. -/
theorem getRecord_of_kept {s : CachedStore MemoryStore} {hash : Hash} {reader : PublicKey}
    {bytes : Bytes} (kept : s.records.entries[(reader, hash)]? = some bytes) (type : String) :
    (ObjectStore.getRecord type hash reader s).1 = .ok bytes := by
  change (readThrough s.records (reader, hash) _ s.inner).1 = _
  rw [readThrough_of_kept kept]

/-- For a record that is not kept, the inner store is asked. -/
theorem getRecord_of_not_kept {s : CachedStore MemoryStore} {hash : Hash} {reader : PublicKey}
    (missing : s.records.entries[(reader, hash)]? = none) (type : String) :
    (ObjectStore.getRecord type hash reader s).1 =
      (ObjectStore.getRecord type hash reader s.inner).1 :=
  (readThrough_of_not_kept missing (ObjectStore.getRecord type hash reader) s.inner).1

/-- The record is kept for the reader, and its type in the inner store is another than the one that
is asked for. -/
def KeptOtherwise (s : CachedStore MemoryStore) (type : String) (hash : Hash)
    (reader : PublicKey) : Prop :=
  (reader, hash) ∈ s.records.entries ∧
    ∃ o other, s.inner.objects[hash]? = some o ∧ o.kind = .record other ∧ other ≠ type

/-- After any history of operations through the caches and on the inner store, a read of a record
through its cache answers what the inner store would answer, with one exception: a record that is
kept for the reader, and asked for as a type that it does not have, is given out where the inner
store refuses it. -/
theorem getRecord_eq_inner_iff (inner : MemoryStore) (recordBytes archiveBytes : Nat)
    (history : List Step) (type : String) (hash : Hash) (reader : PublicKey) :
    let s := (new inner recordBytes archiveBytes).after history
    ((ObjectStore.getRecord type hash reader s).1 =
        (ObjectStore.getRecord type hash reader s.inner).1 ↔ ¬ KeptOtherwise s type hash reader) ∧
      (KeptOtherwise s type hash reader →
        ∃ o other, s.inner.objects[hash]? = some o ∧ o.kind = .record other ∧
          (ObjectStore.getRecord type hash reader s).1 = .ok o.bytes ∧
          (ObjectStore.getRecord type hash reader s.inner).1 =
            .error (.typeMismatch hash (.record type) (.record other))) := by
  intro s
  have coherent : Coherent s :=
    coherent_after (coherent_new inner recordBytes archiveBytes) history
  have exception : KeptOtherwise s type hash reader →
      ∃ o other, s.inner.objects[hash]? = some o ∧ o.kind = .record other ∧
        (ObjectStore.getRecord type hash reader s).1 = .ok o.bytes ∧
        (ObjectStore.getRecord type hash reader s.inner).1 =
          .error (.typeMismatch hash (.record type) (.record other)) := by
    rintro ⟨member, o, other, stored, kind, different⟩
    obtain ⟨bytes, kept⟩ := Option.isSome_iff_exists.mp
      (Std.HashMap.isSome_getElem?_iff_mem.mpr member)
    obtain ⟨o', stored', -, admitted, same⟩ := coherent.records (reader, hash) bytes kept
    obtain rfl : o = o' := Option.some.inj (stored.symm.trans stored')
    refine ⟨o, other, stored, kind, same ▸ getRecord_of_kept kept type, ?_⟩
    change s.inner.lookup hash reader (.record type) = _
    rw [MemoryStore.lookup_of_admits stored admitted, kind]
    simp [different]
  refine ⟨⟨?_, ?_⟩, exception⟩
  · intro agree otherwise
    obtain ⟨o, other, -, -, given, refused⟩ := exception otherwise
    rw [given, refused] at agree
    cases agree
  · intro regular
    cases kept : s.records.entries[(reader, hash)]? with
    | none => exact getRecord_of_not_kept kept type
    | some bytes =>
      obtain ⟨o, stored, ⟨other, kind⟩, admitted, same⟩ :=
        coherent.records (reader, hash) bytes kept
      have member : (reader, hash) ∈ s.records.entries :=
        Std.HashMap.isSome_getElem?_iff_mem.mp (by simp [kept])
      rw [getRecord_of_kept kept]
      change _ = s.inner.lookup hash reader (.record type)
      rw [MemoryStore.lookup_of_admits stored admitted, same]
      by_cases different : other = type
      · rw [if_pos (kind.trans (by rw [different]))]
      · exact absurd ⟨member, o, other, stored, kind, different⟩ regular

/-- A record that was read as the type that it has can be read as any other. -/
theorem kept_record_of_another_type :
    let s := (new {} 100 100).after [.direct (.insertRecord "acme.Asset" [10, 1, 97]),
      .getRecord "acme.Asset" (contentHash [10, 1, 97]) FixedBytes.zero]
    (ObjectStore.getRecord "acme.Lien" (contentHash [10, 1, 97]) FixedBytes.zero s).1 =
        .ok [10, 1, 97] ∧
      (ObjectStore.getRecord "acme.Lien" (contentHash [10, 1, 97]) FixedBytes.zero s.inner).1 =
        .error (.typeMismatch (contentHash [10, 1, 97]) (.record "acme.Lien")
          (.record "acme.Asset")) := by
  intro s
  have stored : s.inner.objects[contentHash [10, 1, 97]]? =
      some ⟨.record "acme.Asset", [10, 1, 97], .everyone, none⟩ := by
    simp [s, after, Step.apply, new, ObjectStore.getRecord, getRecord, readThrough, ByteCache.get,
      MemoryStore.read, MemoryStore.lookup, MemoryStore.Step.apply, MemoryStore.insertRecord,
      MemoryStore.insert, MemoryStore.merge, Audience.admits]
  have kept : s.records.entries[((FixedBytes.zero, contentHash [10, 1, 97]) : ReadKey)]? =
      some [10, 1, 97] := by
    simp [s, after, Step.apply, new, ObjectStore.getRecord, getRecord, readThrough, ByteCache.get,
      ByteCache.insert, ByteCache.evict, MemoryStore.read, MemoryStore.lookup,
      MemoryStore.Step.apply, MemoryStore.insertRecord, MemoryStore.insert, MemoryStore.merge,
      Audience.admits]
  refine ⟨getRecord_of_kept kept "acme.Lien", ?_⟩
  change s.inner.lookup _ _ _ = _
  rw [MemoryStore.lookup_of_admits stored rfl]
  rfl

end CachedStore

end Notary.Store
