/-
The hashes that a context has registered.

* `hashes_add` — an archive that is registered adds its own hash, and the archives inside it add
  none.
* `contains_of_add`, `contains_mono_add` — it is registered from then on, like all before it.
-/

import Notary.Context.Basic

namespace Notary.Context.Registered

/-- A fold that may fail keeps what each of its steps keeps. -/
theorem hashes_foldlM {α : Type} {step : Registered → α → Except Fault Registered}
    (keeps : ∀ {r a r'}, step r a = .ok r' → r'.hashes = r.hashes) {as : List α}
    {r r' : Registered} (folded : as.foldlM step r = .ok r') : r'.hashes = r.hashes := by
  induction as generalizing r with
  | nil =>
    cases folded
    rfl
  | cons a rest ih =>
    rw [List.foldlM_cons] at folded
    cases here : step r a with
    | error e =>
      rw [here] at folded
      cases folded
    | ok r₁ =>
      rw [here] at folded
      exact (ih folded).trans (keeps here)

theorem hashes_addSchema {r r' : Registered} {entry : String × Bytes}
    (added : addSchema r entry = .ok r') : r'.hashes = r.hashes := by
  unfold addSchema at added
  split at added
  · cases added
  · cases added
    rfl

theorem hashes_addModules (modules : List (String × String)) (root : Nat) (r : Registered) :
    (modules.foldl (fun r (symbol, entry) => r.addModule symbol ⟨root, entry⟩) r).hashes =
      r.hashes := by
  induction modules generalizing r with
  | nil => rfl
  | cons m rest ih =>
    obtain ⟨symbol, entry⟩ := m
    rw [List.foldl_cons, ih]
    simp only [addModule]
    split <;> rfl

theorem hashes_addRoot {s : Surroundings} {r r' : Registered} {readNested : Bool} {hash : Hash}
    {bytes : Bytes} {nested : List Bytes}
    (added : r.addRoot s readNested hash bytes = .ok (r', nested)) : r'.hashes = r.hashes := by
  unfold addRoot at added
  split at added
  · cases added
  · split at added
    · cases added
    · rename_i content _
      split at added
      · cases added
      · rename_i r₁ schemas
        cases added
        exact (hashes_addModules content.modules r₁.roots.length r₁).trans
          (hashes_foldlM hashes_addSchema schemas)

theorem hashes_addNested {s : Surroundings} {r r' : Registered} {bytes : Bytes}
    (added : addNested s r bytes = .ok r') : r'.hashes = r.hashes := by
  unfold addNested at added
  split at added
  · cases added
  · rename_i rooted
    cases added
    exact hashes_addRoot rooted

/-- The hash of an archive that is registered is the only one that is added. -/
theorem hashes_add {s : Surroundings} {r r' : Registered} {hash : Hash} {bytes : Bytes}
    (added : r.add s hash bytes = .ok r') :
    r'.hashes = if r.hashes.contains hash then r.hashes else r.hashes ++ [hash] := by
  unfold add at added
  by_cases known : r.hashes.contains hash = true
  · rw [if_pos known] at added ⊢
    cases added
    rfl
  · rw [if_neg known] at added ⊢
    split at added
    · cases added
      rfl
    · split at added
      · cases added
      · rename_i rooted
        split at added
        · cases added
        · rename_i nested
          cases added
          rw [hashes_foldlM hashes_addNested nested, hashes_addRoot rooted]

theorem contains_of_add {s : Surroundings} {r r' : Registered} {hash : Hash} {bytes : Bytes}
    (added : r.add s hash bytes = .ok r') : r'.hashes.contains hash = true := by
  rw [hashes_add added]
  split
  · assumption
  · simp

theorem contains_mono_add {s : Surroundings} {r r' : Registered} {hash h : Hash} {bytes : Bytes}
    (added : r.add s hash bytes = .ok r') (known : r.hashes.contains h = true) :
    r'.hashes.contains h = true := by
  rw [hashes_add added]
  split
  · exact known
  · have member : h ∈ r.hashes := by simpa using known
    simp [member]

end Notary.Context.Registered
