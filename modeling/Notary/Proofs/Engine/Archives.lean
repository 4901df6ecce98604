/-
The archives of a context.

A plan asks for two archives, that of its definition and that of its output. What a context has
registered of them depends on who asked first, and when; yet archives never change, every key may
read them, and they stay. So whoever asks later would have found the same, unless an archive was
missing and is there now.

* `Attempt` — who executes which plan, with which objects in the store.
* `Attempt.bare`, `Attempt.full` — what a new context registers for it, step by step.
* `Attempt.Precedes`, `bare_mono`, `full_mono` — an earlier attempt registers the same.
-/

import Notary.Proofs.Context.Hashes
import Notary.Proofs.Engine.Module
import Notary.Proofs.Store.History

namespace Notary.Store.MemoryStore

theorem lookup_congr {s s' : MemoryStore} (same : s.objects = s'.objects) (hash : Hash)
    (reader : PublicKey) (expected : ObjectKind) :
    s.lookup hash reader expected = s'.lookup hash reader expected := by
  rw [lookup, lookup, same]

theorem hash_of_lookup_eq_notFound {s : MemoryStore} {hash h : Hash} {reader : PublicKey}
    {expected : ObjectKind} (refused : s.lookup hash reader expected = .error (.notFound h)) :
    h = hash := by
  unfold lookup at refused
  split at refused
  · cases refused
    rfl
  · split at refused
    · split at refused <;> cases refused
    · cases refused
      rfl

/-- An archive that somebody could read can be read by everybody from then on. -/
theorem Extends.lookup_archive {old new : MemoryStore} (grown : old.Extends new)
    (isPublic : new.ArchivesPublic) {hash : Hash} {reader : PublicKey} {bytes : Bytes}
    (found : old.lookup hash reader .archive = .ok bytes) (reader' : PublicKey) :
    new.lookup hash reader' .archive = .ok bytes := by
  obtain ⟨o, stored, -, archive, same⟩ := lookup_eq_ok_iff.mp found
  obtain ⟨o', stored', extended⟩ := grown hash o stored
  have everyone := isPublic hash o' stored' (extended.kind.trans archive)
  refine lookup_eq_ok_iff.mpr ⟨o', stored', ?_, extended.kind.trans archive,
    extended.bytes.trans same⟩
  rw [everyone]
  rfl

end Notary.Store.MemoryStore

namespace Notary.Engine

open Notary.Contract
open Notary.Context (Registered)
open Notary.Store (MemoryStore)

/-! ### One archive -/

section Fetched

variable {s : Context.Surroundings} {store : MemoryStore} {reader : PublicKey}
  {absent : Hash → Registered → Except Fault Registered} {hash? : Option Hash}
  {r r' : Registered}

theorem fetched_some (hash : Hash) :
    fetched s store reader absent (some hash) r =
      if r.hashes.contains hash then .ok r
      else
        match store.lookup hash reader .archive with
        | .ok bytes => (r.add s hash bytes).mapError .context
        | .error (.notFound _) => absent hash r
        | .error e => .error (.store e) := rfl

theorem fetched_congr {store' : MemoryStore} (same : store.objects = store'.objects) :
    fetched s store reader absent hash? r = fetched s store' reader absent hash? r := by
  cases hash? with
  | none => rfl
  | some hash => rw [fetched_some, fetched_some, MemoryStore.lookup_congr same]

theorem fetched_of_contains (known : ∀ h ∈ hash?, r.hashes.contains h = true) :
    fetched s store reader absent hash? r = .ok r := by
  cases hash? with
  | none => rfl
  | some hash => rw [fetched_some, if_pos (known hash rfl)]

/-- Either nothing new is registered, or something under the hash. -/
theorem fetched_cases
    (adds : ∀ h r r', absent h r = .ok r' → ∃ bytes, r.add s h bytes = .ok r')
    (got : fetched s store reader absent hash? r = .ok r') :
    (r' = r ∧ ∀ h ∈ hash?, r.hashes.contains h = true) ∨
      ∃ h bytes, hash? = some h ∧ r.add s h bytes = .ok r' := by
  cases hash? with
  | none =>
    cases got
    exact .inl ⟨rfl, by simp⟩
  | some hash =>
    rw [fetched_some] at got
    by_cases known : r.hashes.contains hash = true
    · rw [if_pos known] at got
      cases got
      left
      refine ⟨rfl, ?_⟩
      intro h same
      exact Option.some.inj same ▸ known
    · rw [if_neg known] at got
      split at got
      · rename_i bytes _
        cases added : r.add s hash bytes with
        | error e =>
          rw [added] at got
          cases got
        | ok r₁ =>
          rw [added] at got
          cases got
          exact .inr ⟨hash, bytes, rfl, added⟩
      · obtain ⟨bytes, added⟩ := adds hash r r' got
        exact .inr ⟨hash, bytes, rfl, added⟩
      · cases got

theorem contains_of_fetched
    (adds : ∀ h r r', absent h r = .ok r' → ∃ bytes, r.add s h bytes = .ok r')
    (got : fetched s store reader absent hash? r = .ok r') :
    (∀ h ∈ hash?, r'.hashes.contains h = true) ∧
      ∀ h, r.hashes.contains h = true → r'.hashes.contains h = true := by
  rcases fetched_cases adds got with ⟨rfl, known⟩ | ⟨hash, bytes, rfl, added⟩
  · exact ⟨known, fun h member => member⟩
  · constructor
    · intro h same
      obtain rfl : hash = h := by simpa using same
      exact Registered.contains_of_add added
    · intro h known
      exact Registered.contains_mono_add added known

/-- What was registered for one reader would be registered for another on a store that has grown,
if a hash without an archive is dealt with alike. -/
theorem fetched_mono {store' : MemoryStore} {reader' : PublicKey}
    {absent' : Hash → Registered → Except Fault Registered} (grown : store.Extends store')
    (isPublic : store'.ArchivesPublic)
    (missing : ∀ h ∈ hash?, r.hashes.contains h = false →
      store.lookup h reader .archive = .error (.notFound h) → absent h r = .ok r' →
      store'.lookup h reader' .archive = .error (.notFound h) ∧ absent' h r = .ok r')
    (got : fetched s store reader absent hash? r = .ok r') :
    fetched s store' reader' absent' hash? r = .ok r' := by
  cases hash? with
  | none => exact got
  | some hash =>
    rw [fetched_some] at got ⊢
    by_cases known : r.hashes.contains hash = true
    · rw [if_pos known] at got ⊢
      exact got
    · rw [if_neg known] at got ⊢
      split at got
      · rename_i bytes found
        rw [grown.lookup_archive isPublic found reader']
        exact got
      · rename_i h refused
        obtain rfl := MemoryStore.hash_of_lookup_eq_notFound refused
        obtain ⟨refused', same⟩ := missing h rfl (by simpa using known) refused got
        rw [refused']
        exact same
      · cases got

end Fetched

/-! ### Attempts -/

/-- Who executes which plan, with which objects in the store. -/
structure Attempt where
  store : MemoryStore
  reader : PublicKey
  plan : Plan

namespace Attempt

variable {s : Context.Surroundings} {a b : Attempt} {r r' : Registered}

/-- The archive of the definition. -/
def definition (a : Attempt) : Option Hash := a.plan.definition.contentHash?

/-- The archive of the output. -/
def output (a : Attempt) : Option Hash := a.plan.output.bind (·.contentHash?)

/-- The name of the module that defines the contract. -/
def module (a : Attempt) : String := a.plan.definition.classname

/-- The archive of the definition must be there. -/
def required (a : Attempt) : Hash → Registered → Except Fault Registered :=
  fun _ _ => .error (notBootstrapped a.plan.definition a.reader)

/-- The archive of the output may be missing. -/
def tolerated (s : Context.Surroundings) : Hash → Registered → Except Fault Registered :=
  fun h r => (r.add s h []).mapError .context

/-- What a new context has registered when the module is resolved. -/
def bare (s : Context.Surroundings) (a : Attempt) : Except Fault Registered :=
  fetched s a.store a.reader a.required a.definition {}

/-- What is registered after that, when functions are called. -/
def full (s : Context.Surroundings) (a : Attempt) (r : Registered) : Except Fault Registered :=
  fetched s a.store a.reader (tolerated s) a.output r

theorem adds_of_required (h : Hash) (r r' : Registered) (got : a.required h r = .ok r') :
    ∃ bytes, r.add s h bytes = .ok r' := by
  cases got

theorem adds_of_tolerated (h : Hash) (r r' : Registered) (got : tolerated s h r = .ok r') :
    ∃ bytes, r.add s h bytes = .ok r' := by
  unfold tolerated at got
  cases added : r.add s h [] with
  | error e =>
    rw [added] at got
    cases got
  | ok r₁ =>
    rw [added] at got
    cases got
    exact ⟨[], added⟩

theorem contains_of_bare (got : a.bare s = .ok r) :
    ∀ h ∈ a.definition, r.hashes.contains h = true :=
  (contains_of_fetched adds_of_required got).1

theorem contains_of_full (got : a.full s r = .ok r') :
    (∀ h ∈ a.output, r'.hashes.contains h = true) ∧
      ∀ h, r.hashes.contains h = true → r'.hashes.contains h = true :=
  contains_of_fetched adds_of_tolerated got

/-- The attempt was made before another, and asked for the same archives. -/
structure Precedes (a b : Attempt) : Prop where
  grown : a.store.Extends b.store
  isPublic : b.store.ArchivesPublic
  definition : a.definition = b.definition
  output : a.output = b.output

theorem Precedes.refl (isPublic : a.store.ArchivesPublic) : Precedes a a :=
  ⟨.refl a.store, isPublic, rfl, rfl⟩

/-- What was registered for the definition would be registered later, for any reader. -/
theorem bare_mono (before : a.Precedes b) (got : a.bare s = .ok r) : b.bare s = .ok r := by
  unfold bare at got ⊢
  rw [← before.definition]
  refine fetched_mono before.grown before.isPublic ?_ got
  intro h member unknown refused absent
  cases absent

/-- What was registered for the output would be registered later, for any reader who does not find
an archive that was missing. -/
theorem full_mono (before : a.Precedes b)
    (missing : ∀ h ∈ a.output, r.hashes.contains h = false →
      a.store.lookup h a.reader .archive = .error (.notFound h) →
      b.store.lookup h b.reader .archive = .error (.notFound h))
    (got : a.full s r = .ok r') : b.full s r = .ok r' := by
  unfold full at got ⊢
  rw [← before.output]
  refine fetched_mono before.grown before.isPublic ?_ got
  intro h member unknown refused absent
  exact ⟨missing h member unknown refused, absent⟩

end Attempt

end Notary.Engine
