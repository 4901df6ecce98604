/-
Reading back what was written.

Objects are shared by their content, and the first write of some content decides of which kind it
is. A later write of the same bytes as another kind is answered with the hash and lets its readers
in, yet none of them can read the object as what was written.

* `lookup_after_write` — what a reader gets who asks for what was written for him.
* `read_back_iff` — a signed record is read back exactly when its bytes were not written as anything
  else before. The outputs of an execution are stored in this way.
* `second_type_is_refused` — one content as records of two types.
-/

import Notary.Engine.Execution
import Notary.Proofs.Store.History

namespace Notary.Store.MemoryStore

/-- The kind of the first write of a hash. -/
def firstKind? (h : Hash) (history : List Step) : Option ObjectKind :=
  (writesOf h history).head?.map (·.kind)

/-- Whatever happens before and after a write, a reader for whom it was made is told the kind of the
first write of the same content. -/
theorem lookup_after_write {before : List Step} {write : Step} {o : StoredObject}
    (written : write.written? = some o)
    (unique : ∀ p ∈ writesOf (contentHash o.bytes) before, p.bytes = o.bytes)
    (later : List Step) {reader : PublicKey} (admitted : o.audience.admits reader = true) :
    (after {} (before ++ write :: later)).lookup (contentHash o.bytes) reader o.kind =
      match firstKind? (contentHash o.bytes) before with
      | none => .ok o.bytes
      | some kind =>
        if kind = o.kind then .ok o.bytes
        else .error (.typeMismatch (contentHash o.bytes) o.kind kind) := by
  have stored := objects_after {} (before ++ write :: later) (contentHash o.bytes)
  have own : writesOf (contentHash o.bytes) (write :: later) =
      o :: writesOf (contentHash o.bytes) later := by simp [writesOf, written]
  rw [writesOf_append, own, Std.HashMap.getElem?_empty] at stored
  unfold firstKind?
  cases earlier : writesOf (contentHash o.bytes) before with
  | nil =>
    rw [earlier] at stored
    obtain ⟨o', merged, grown, -⟩ := mergeAll_some o (writesOf (contentHash o.bytes) later)
    have stored := stored.trans merged
    rw [lookup_of_admits stored (grown.readers reader admitted), grown.kind, grown.bytes]
    simp
  | cons first rest =>
    rw [earlier] at stored
    obtain ⟨o', merged, grown, admits⟩ :=
      mergeAll_some first (rest ++ o :: writesOf (contentHash o.bytes) later)
    have stored := stored.trans merged
    have admitted' : o'.audience.admits reader = true := by simp [admits, admitted]
    rw [lookup_of_admits stored admitted', grown.kind, grown.bytes,
      unique first (by simp [earlier])]
    rfl

/-- A signed record of a type, read again as that type by one of those for whom it was written. -/
theorem getRecord_after_putRecord {before : List Step} {bytes : Bytes}
    (unique : ∀ o ∈ writesOf (contentHash bytes) before, o.bytes = bytes) (later : List Step)
    (type : String) (signer owner : PublicKey) (audience : Readers) {reader : PublicKey}
    (addressed : reader ∈ audience ∨ reader = owner) :
    (ObjectStore.getRecord type (contentHash bytes) reader
        (after {} (before ++ .putRecord type bytes signer owner audience :: later))).1 =
      match firstKind? (contentHash bytes) before with
      | none => .ok bytes
      | some kind =>
        if kind = .record type then .ok bytes
        else .error (.typeMismatch (contentHash bytes) (.record type) kind) := by
  have admitted : (Audience.only (audience.insert owner)).admits reader = true := by
    simpa [Audience.admits] using addressed.symm
  have written : (Step.putRecord type bytes signer owner audience).written? =
      some ⟨.record type, bytes, .only (audience.insert owner), some signer⟩ := rfl
  exact lookup_after_write written unique later admitted

end Notary.Store.MemoryStore

namespace Notary.Engine

open Notary.Store Notary.Store.MemoryStore

/-- Storing an output is a signed write of its bytes under its type; the record of the output names
both. -/
theorem runOn_storeOutput (caller : Caller) (audience : Readers)
    (scope : Option Contract.ScopeState) (output : Output) (w : Workspace MemoryStore) :
    ∃ record : Contract.ProposedRecord,
      (storeOutput caller audience scope output).runOn w =
          (.ok (output.index, .pass record),
            { w with store := (Step.putRecord output.message.type output.message.bytes
                caller.signing.publicKey caller.encryption.publicKey audience).apply w.store }) ∧
        record.classname = output.message.type ∧
        record.contentHash? = some (contentHash output.message.bytes) := by
  refine ⟨_, rfl, rfl, ?_⟩
  exact Hash.ofField?_toList _

/-- A signed record is stored under the hash of its bytes for its owner and an audience. From then
on each of them gets the bytes back exactly when the first write of those bytes, if there was one
before, was that of a record of the same type; otherwise each of them is refused for the kind that
it was. An output of an execution is stored in this way, under the type and the hash that its record
names. -/
theorem read_back_iff {before : List Step} {bytes : Bytes}
    (unique : ∀ o ∈ writesOf (contentHash bytes) before, o.bytes = bytes) (later : List Step)
    (type : String) (signer owner : PublicKey) (audience : Readers) {reader : PublicKey}
    (addressed : reader ∈ audience ∨ reader = owner) :
    (ObjectStore.putRecord type bytes signer owner audience (MemoryStore.after {} before)).1 =
        contentHash bytes ∧
      ((ObjectStore.getRecord type (contentHash bytes) reader
          (MemoryStore.after {}
            (before ++ .putRecord type bytes signer owner audience :: later))).1 = .ok bytes ↔
        ∀ kind ∈ firstKind? (contentHash bytes) before, kind = .record type) ∧
      (∀ kind ∈ firstKind? (contentHash bytes) before, kind ≠ .record type →
        (ObjectStore.getRecord type (contentHash bytes) reader
            (MemoryStore.after {}
              (before ++ .putRecord type bytes signer owner audience :: later))).1 =
          .error (.typeMismatch (contentHash bytes) (.record type) kind)) ∧
      ∀ (caller : Caller) (scope : Option Contract.ScopeState) (output : Output) (c : Context),
        output.message.type = type → output.message.bytes = bytes →
        caller.signing.publicKey = signer → caller.encryption.publicKey = owner →
        ∃ record : Contract.ProposedRecord,
          (storeOutput caller audience scope output).runOn ⟨MemoryStore.after {} before, c⟩ =
              (.ok (output.index, .pass record),
                ⟨MemoryStore.after {}
                  (before ++ [.putRecord type bytes signer owner audience]), c⟩) ∧
            record.classname = type ∧ record.contentHash? = some (contentHash bytes) := by
  have read := getRecord_after_putRecord unique later type signer owner audience addressed
  refine ⟨rfl, ?_, ?_, ?_⟩
  · rw [read]
    cases firstKind? (contentHash bytes) before with
    | none => simp
    | some kind => by_cases same : kind = .record type <;> simp [same]
  · intro kind first other
    rw [read, Option.mem_def.mp first]
    simp [other]
  · rintro caller scope output c rfl rfl rfl rfl
    obtain ⟨record, ran, named, hashed⟩ := runOn_storeOutput caller audience scope output
      ⟨MemoryStore.after {} before, c⟩
    exact ⟨record, by rw [ran, after_append]; rfl, named, hashed⟩

/-- A record that was already there as a private one of its type, and is an archive later on. -/
theorem read_back_of_shared_content :
    (ObjectStore.getRecord "acme.Asset" (contentHash [10]) FixedBytes.zero
      (MemoryStore.after {} ([.insertPrivateRecord "acme.Asset" [10] {}] ++
        .putRecord "acme.Asset" [10] FixedBytes.zero FixedBytes.zero {} ::
          [.putArchive [10]]))).1 = .ok [10] := by
  have unique : ∀ o ∈ writesOf (contentHash [10])
      [.insertPrivateRecord "acme.Asset" [10] {}], o.bytes = [10] := by
    simp [writesOf, Step.written?]
  refine (read_back_iff unique [.putArchive [10]] "acme.Asset" FixedBytes.zero FixedBytes.zero {}
    (.inr rfl)).2.1.mpr ?_
  simp [firstKind?, writesOf, Step.written?]

/-- One content that is written as records of two types cannot be read as the second of them, not
even by its owner right after the write. -/
theorem second_type_is_refused :
    (∀ o ∈ writesOf (contentHash [10, 1, 97])
        [.putRecord "acme.Asset" [10, 1, 97] FixedBytes.zero FixedBytes.zero {}],
      o.bytes = [10, 1, 97]) ∧
    (ObjectStore.getRecord "acme.Lien" (contentHash [10, 1, 97]) FixedBytes.zero
      (MemoryStore.after {}
        ([.putRecord "acme.Asset" [10, 1, 97] FixedBytes.zero FixedBytes.zero {}] ++
          .putRecord "acme.Lien" [10, 1, 97] FixedBytes.zero FixedBytes.zero {} :: []))).1 =
      .error (.typeMismatch (contentHash [10, 1, 97]) (.record "acme.Lien")
        (.record "acme.Asset")) := by
  have unique : ∀ o ∈ writesOf (contentHash [10, 1, 97])
      [.putRecord "acme.Asset" [10, 1, 97] FixedBytes.zero FixedBytes.zero {}],
      o.bytes = [10, 1, 97] := by
    simp [writesOf, Step.written?]
  refine ⟨unique, ?_⟩
  rw [getRecord_after_putRecord unique [] "acme.Lien" FixedBytes.zero FixedBytes.zero {} (.inr rfl)]
  simp [firstKind?, writesOf, Step.written?]

end Notary.Engine
