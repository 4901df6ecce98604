/-
What a store behind caches gives out.

A cache stands between a reader and the audience of an object, and the inner store does not know of
it. Still, a reader is never given anything but what the inner store lets him read at that moment:
every entry of a cache is an object there, with these bytes under their hash, and its reader may
read it. Archives are of one kind only, so their cache changes no answer at all.

* `Holds` — a reader may read these bytes under this hash in the inner store.
* `inner_after` — whatever is done through the caches, the inner store has a history of its own.
* `never_discloses` — the entries of the caches and the answers through them.
-/

import Notary.Proofs.Store.Account
import Notary.Proofs.Store.CachedReads

namespace Notary.Store.CachedStore

/-! ### The history of the inner store -/

/-- The inner store is left alone, or asked once. -/
theorem inner_readThrough {σ : Type} (cache : ByteCache ReadKey) (key : ReadKey)
    (fetch : StateM σ (Except Fault Bytes)) (inner : σ) :
    (readThrough cache key fetch inner).2.2 = inner ∨
      (readThrough cache key fetch inner).2.2 = (fetch inner).2 := by
  cases kept : cache.entries[key]? with
  | some bytes =>
    rw [readThrough_of_kept kept]
    exact .inl rfl
  | none => exact .inr (readThrough_of_not_kept kept fetch inner).2

/-- An operation is at most one step of the inner store. -/
theorem inner_apply (s : CachedStore MemoryStore) (step : Step) :
    ∃ steps, (step.apply s).inner = s.inner.after steps := by
  cases step with
  | getRecord type hash reader =>
    rcases inner_readThrough s.records (reader, hash) (ObjectStore.getRecord type hash reader)
      s.inner with hit | miss
    · exact ⟨[], hit⟩
    · exact ⟨[.getRecord type hash reader], miss⟩
  | getArchive hash reader =>
    rcases inner_readThrough s.archives (reader, hash) (ObjectStore.getArchive hash reader)
      s.inner with hit | miss
    · exact ⟨[], hit⟩
    · exact ⟨[.getArchive hash reader], miss⟩
  | putRecord type bytes signer owner audience =>
    rcases putRecord_cases s type bytes signer owner audience with same | ⟨written, same⟩
    · exact ⟨[], by rw [same]; rfl⟩
    · exact ⟨[.putRecord type bytes signer owner audience], by rw [same]; rfl⟩
  | direct step => exact ⟨[step], rfl⟩

theorem inner_after (s : CachedStore MemoryStore) (history : List Step) :
    ∃ steps, (s.after history).inner = s.inner.after steps := by
  induction history generalizing s with
  | nil => exact ⟨[], rfl⟩
  | cons step rest ih =>
    obtain ⟨first, applied⟩ := inner_apply s step
    obtain ⟨later, left⟩ := ih (step.apply s)
    refine ⟨first ++ later, ?_⟩
    rw [MemoryStore.after_append, ← applied]
    exact left

/-! ### Entries and answers -/

/-- The inner store has these bytes under their hash, of such a kind, and lets the reader read
them. -/
structure Holds (inner : MemoryStore) (kinds : ObjectKind → Prop) (reader : PublicKey) (hash : Hash)
    (bytes : Bytes) : Prop where
  content : contentHash bytes = hash
  stored : ∃ o, inner.objects[hash]? = some o ∧ o.bytes = bytes ∧ kinds o.kind ∧
    o.audience.admits reader = true

/-- Every object lies under the hash of its bytes. -/
def Addressed (inner : MemoryStore) : Prop :=
  ∀ (hash : Hash) (o : StoredObject), inner.objects[hash]? = some o → contentHash o.bytes = hash

section Answers

variable {inner : MemoryStore} {kinds : ObjectKind → Prop} {cache : ByteCache ReadKey}
  {reader : PublicKey} {hash : Hash} {bytes : Bytes}

/-- What is kept may be read in the inner store. -/
theorem holds_of_kept (addressed : Addressed inner) (backed : Backed inner kinds cache)
    (kept : cache.entries[(reader, hash)]? = some bytes) : Holds inner kinds reader hash bytes := by
  obtain ⟨o, stored, kind, admitted, same⟩ := backed (reader, hash) bytes kept
  exact ⟨same ▸ addressed hash o stored, o, stored, same, kind, admitted⟩

/-- What is given out may be read in the inner store, whether it was kept or not. -/
theorem holds_of_given (addressed : Addressed inner) (backed : Backed inner kinds cache)
    {expected : ObjectKind} (fits : kinds expected)
    (given : (readThrough cache (reader, hash) (fun s => s.read hash reader expected) inner).1 =
      .ok bytes) :
    Holds inner kinds reader hash bytes := by
  cases kept : cache.entries[(reader, hash)]? with
  | some bytes' =>
    rw [readThrough_of_kept kept] at given
    cases given
    exact holds_of_kept addressed backed kept
  | none =>
    rw [(readThrough_of_not_kept kept _ inner).1] at given
    obtain ⟨o, stored, admitted, kind, same⟩ := MemoryStore.lookup_eq_ok_iff.mp given
    exact ⟨same ▸ addressed hash o stored, o, stored, same, kind ▸ fits, admitted⟩

/-- Archives are of one kind, so a kept one is what the inner store would answer. -/
theorem readThrough_archive (backed : Backed inner (· = .archive) cache) :
    (readThrough cache (reader, hash) (fun s => s.read hash reader .archive) inner).1 =
      (inner.read hash reader .archive).1 := by
  cases kept : cache.entries[(reader, hash)]? with
  | some bytes =>
    obtain ⟨o, stored, kind, admitted, same⟩ := backed (reader, hash) bytes kept
    have own : inner.lookup hash reader .archive = .ok bytes :=
      MemoryStore.lookup_eq_ok_iff.mpr ⟨o, stored, admitted, kind, same⟩
    rw [readThrough_of_kept kept]
    exact own.symm
  | none => exact (readThrough_of_not_kept kept _ inner).1

end Answers

/-- After any history of operations through the caches and on the inner store, every entry of a
cache is an object of the inner store, with these bytes under the hash of them, of the kind that the
cache is for, and its reader may read it. So what a reader is given, kept or not, he may read in the inner
store at that moment; and an archive is answered for just as the inner store would answer. -/
theorem never_discloses (seeds : List MemoryStore.Step) (recordBytes archiveBytes : Nat)
    (history : List Step) :
    let s := (new (MemoryStore.after {} seeds) recordBytes archiveBytes).after history
    ((∀ reader hash bytes, s.records.entries[((reader, hash) : ReadKey)]? = some bytes →
          Holds s.inner IsRecord reader hash bytes) ∧
        ∀ reader hash bytes, s.archives.entries[((reader, hash) : ReadKey)]? = some bytes →
          Holds s.inner (· = .archive) reader hash bytes) ∧
      ((∀ type hash reader bytes, (ObjectStore.getRecord type hash reader s).1 = .ok bytes →
          Holds s.inner IsRecord reader hash bytes) ∧
        ∀ hash reader bytes, (ObjectStore.getArchive hash reader s).1 = .ok bytes →
          Holds s.inner (· = .archive) reader hash bytes) ∧
      ∀ hash reader, (ObjectStore.getArchive hash reader s).1 =
        (ObjectStore.getArchive hash reader s.inner).1 := by
  intro s
  have coherent : Coherent s := coherent_after (coherent_new _ recordBytes archiveBytes) history
  have addressed : Addressed s.inner := by
    obtain ⟨steps, left⟩ :=
      inner_after (new (MemoryStore.after {} seeds) recordBytes archiveBytes) history
    intro hash o stored
    have stored' : (MemoryStore.after {} (seeds ++ steps)).objects[hash]? = some o := by
      rw [MemoryStore.after_append]
      exact left ▸ stored
    exact MemoryStore.hash_of_stored stored'
  refine ⟨⟨?_, ?_⟩, ⟨?_, ?_⟩, ?_⟩
  · intro reader hash bytes kept
    exact holds_of_kept addressed coherent.records kept
  · intro reader hash bytes kept
    exact holds_of_kept addressed coherent.archives kept
  · intro type hash reader bytes given
    exact holds_of_given addressed coherent.records ⟨type, rfl⟩ given
  · intro hash reader bytes given
    exact holds_of_given addressed coherent.archives rfl given
  · intro hash reader
    exact readThrough_archive coherent.archives

end Notary.Store.CachedStore
