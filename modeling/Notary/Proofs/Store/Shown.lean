/-
What a store shows a reader.

A read on behalf of a key depends on the objects that the key may read, and on nothing else: an
object that hides from the key is answered for like one that is not there.

* `MemoryStore.shown`, `lookup_eq_shown` — the part of a store that decides about a key's reads.
* `MemoryStore.Indistinct` — two stores that a reader cannot tell apart by reading.
* `indistinct_after` — what is written for others does not show.
-/

import Notary.Proofs.Store.History

namespace Notary.Store.MemoryStore

/-- The kind and the bytes of the object under a hash, if there is one that the reader may read. -/
def shown (s : MemoryStore) (reader : PublicKey) (h : Hash) : Option (ObjectKind × Bytes) :=
  (s.objects[h]?.filter (·.audience.admits reader)).map fun o => (o.kind, o.bytes)

theorem lookup_eq_shown (s : MemoryStore) (h : Hash) (reader : PublicKey) (expected : ObjectKind) :
    s.lookup h reader expected =
      match s.shown reader h with
      | none => .error (.notFound h)
      | some (kind, bytes) =>
        if kind = expected then .ok bytes else .error (.typeMismatch h expected kind) := by
  unfold lookup shown
  cases s.objects[h]? with
  | none => rfl
  | some o => by_cases admitted : o.audience.admits reader = true <;> simp [admitted, Option.filter]

/-- The stores show a reader the same. They may differ in all that they hide from him. -/
def Indistinct (reader : PublicKey) (s s' : MemoryStore) : Prop :=
  ∀ h, s.shown reader h = s'.shown reader h

namespace Indistinct

variable {reader : PublicKey} {a b c : MemoryStore}

theorem refl (s : MemoryStore) : Indistinct reader s s := fun _ => rfl

theorem trans (first : Indistinct reader a b) (second : Indistinct reader b c) :
    Indistinct reader a c :=
  fun h => (first h).trans (second h)

theorem lookup_eq (same : Indistinct reader a b) (h : Hash) (expected : ObjectKind) :
    a.lookup h reader expected = b.lookup h reader expected := by
  rw [lookup_eq_shown, lookup_eq_shown, same h]

end Indistinct

/-! ### Writes for others -/

variable {reader : PublicKey}

/-- A write that does not let the reader in shows him nothing, not even on an object that he may
read. -/
theorem indistinct_insert (s : MemoryStore) {o : StoredObject}
    (hidden : o.audience.admits reader = false) : Indistinct reader s (s.insert o).2 := by
  intro h
  unfold shown
  rw [objects_insert]
  split
  · cases s.objects[h]? with
    | none => simp [merge, Option.filter, hidden]
    | some old =>
      by_cases admitted : old.audience.admits reader = true <;>
        simp [merge, Option.filter, admitted, hidden]
  · rfl

theorem indistinct_after (s : MemoryStore) {history : List Step}
    (hidden : ∀ step ∈ history, ∀ o ∈ step.written?, o.audience.admits reader = false) :
    Indistinct reader s (s.after history) := by
  induction history generalizing s with
  | nil => exact .refl s
  | cons step rest ih =>
    have here : Indistinct reader s (step.apply s) := by
      intro h
      have objects := Step.objects_apply step s
      cases written : step.written? with
      | none =>
        rw [written] at objects
        simp only [shown, objects]
      | some o =>
        rw [written] at objects
        rw [indistinct_insert s (hidden step (by simp) o written) h]
        simp only [shown, objects]
    exact here.trans (ih (step.apply s) fun later member => hidden later (by simp [member]))

end Notary.Store.MemoryStore
