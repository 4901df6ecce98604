/-
Setting the results of considerations.

* `ResultsOnly` — two contracts that differ in the results of some considerations at most.
* `resultsOnly_setResults` — setting results does nothing else.
* `getElem?_setResults_of_mem` — with one result for each consideration, every consideration has its
  own in the end, whatever the order.
-/

import Notary.Engine.Execution

namespace Notary.Engine

open Notary.Contract

/-- The consideration at the index has not been dealt with. -/
def PendingAt (c : Contract) (i : Nat) : Prop :=
  ∃ k, c.considerations[i]? = some k ∧ k.isPending = true

/-- A consideration without its result. -/
def emptied (k : Consideration) : Consideration := { k with result := none }

/-- The newer contract is the older one, but for the results of the considerations at some
indices. -/
structure ResultsOnly (among : Nat → Prop) (old new : Contract) : Prop where
  definition : new.definition = old.definition
  spec : new.spec = old.spec
  inputs : new.inputs = old.inputs
  recitals : new.recitals = old.recitals
  /-- Number, order, names and inputs of the considerations. -/
  slots : ∀ i : Nat, new.considerations[i]?.map emptied = old.considerations[i]?.map emptied
  others : ∀ i : Nat, ¬ among i → new.considerations[i]? = old.considerations[i]?

namespace ResultsOnly

variable {among : Nat → Prop} {a b c : Contract}

theorem refl (among : Nat → Prop) (c : Contract) : ResultsOnly among c c :=
  ⟨rfl, rfl, rfl, rfl, fun _ => rfl, fun _ _ => rfl⟩

theorem trans (first : ResultsOnly among a b) (second : ResultsOnly among b c) :
    ResultsOnly among a c where
  definition := second.definition.trans first.definition
  spec := second.spec.trans first.spec
  inputs := second.inputs.trans first.inputs
  recitals := second.recitals.trans first.recitals
  slots i := (second.slots i).trans (first.slots i)
  others i outside := (second.others i outside).trans (first.others i outside)

end ResultsOnly

/-! ### One result -/

theorem getElem?_setResult (c : Contract) (i j : Nat) (r : ExecutionResult) :
    (setResult c i r).considerations[j]? =
      if i = j then c.considerations[j]?.map fun k => { k with result := some r }
      else c.considerations[j]? := by
  simp only [setResult, List.getElem?_modify]
  split <;> simp

theorem resultsOnly_setResult {among : Nat → Prop} (c : Contract) {i : Nat} (r : ExecutionResult)
    (within : among i) : ResultsOnly among c (setResult c i r) := by
  refine ⟨rfl, rfl, rfl, rfl, ?_, ?_⟩
  · intro j
    rw [getElem?_setResult]
    split
    · cases c.considerations[j]? <;> rfl
    · rfl
  · intro j outside
    rw [getElem?_setResult, if_neg]
    rintro rfl
    exact outside within

/-! ### Several results -/

theorem setResults_append (c : Contract) (first later : List (Nat × ExecutionResult)) :
    setResults c (first ++ later) = setResults (setResults c first) later :=
  List.foldl_append

theorem resultsOnly_setResults {among : Nat → Prop} (c : Contract)
    {rs : List (Nat × ExecutionResult)} (within : ∀ r ∈ rs, among r.1) :
    ResultsOnly among c (setResults c rs) := by
  induction rs generalizing c with
  | nil => exact .refl among c
  | cons r rest ih =>
    have here := resultsOnly_setResult c r.2 (within r (by simp))
    exact here.trans (ih (setResult c r.1 r.2) fun q member => within q (by simp [member]))

theorem getElem?_setResults_of_not_mem (c : Contract) {rs : List (Nat × ExecutionResult)} {i : Nat}
    (absent : i ∉ rs.map (·.1)) :
    (setResults c rs).considerations[i]? = c.considerations[i]? := by
  have only : ResultsOnly (fun j => j ∈ rs.map (·.1)) c (setResults c rs) :=
    resultsOnly_setResults c fun _ member => List.mem_map_of_mem member
  exact only.others i absent

theorem getElem?_setResults_of_mem (c : Contract) {rs : List (Nat × ExecutionResult)}
    (distinct : (rs.map (·.1)).Nodup) {i : Nat} {r : ExecutionResult} (member : (i, r) ∈ rs) :
    (setResults c rs).considerations[i]? =
      c.considerations[i]?.map fun k => { k with result := some r } := by
  induction rs generalizing c with
  | nil => simp at member
  | cons q rest ih =>
    obtain ⟨absent, distinct⟩ := List.nodup_cons.mp distinct
    rcases List.mem_cons.mp member with rfl | member
    · rw [show setResults c ((i, r) :: rest) = setResults (setResult c i r) rest from rfl,
        getElem?_setResults_of_not_mem _ absent, getElem?_setResult, if_pos rfl]
    · have other : q.1 ≠ i := by
        rintro same
        exact absent (List.mem_map.mpr ⟨(i, r), member, same.symm⟩)
      rw [show setResults c (q :: rest) = setResults (setResult c q.1 q.2) rest from rfl,
        ih _ distinct member, getElem?_setResult, if_neg other]

end Notary.Engine
