/-
When a contract fits its specification.

The checks compare lists of names in ascending order. Lists that are equal in this way hold the same
names, each as often. The names of the inputs are compared without repetitions, those that the
specification asks for with them, so a specification that names an input twice fits no contract.

* `sorted_eq_sorted_iff` — names in order are equal when one list is a reordering of the other.
* `Supplied` — an input of the contract has the name and content.
* `factsSupplied_eq_ok_iff` — what the check of the inputs accepts, and what it reports.
* `repeated_fact_is_refused` — an input that is asked for twice.
-/

import Notary.Engine.Validation

namespace Notary.Engine

open Notary.Contract

/-! ### Texts in order -/

theorem sorted_perm (xs : List String) : (sorted xs).Perm xs :=
  List.mergeSort_perm xs _

theorem mem_sorted_iff {xs : List String} {x : String} : x ∈ sorted xs ↔ x ∈ xs :=
  (sorted_perm xs).mem_iff

theorem pairwise_sorted (xs : List String) : (sorted xs).Pairwise (· ≤ ·) := by
  have rises : (sorted xs).Pairwise fun a b => decide (a ≤ b) = true := by
    refine List.pairwise_mergeSort ?_ ?_ xs
    · simp only [decide_eq_true_eq]
      exact fun _ _ _ => String.le_trans
    · simpa only [Bool.or_eq_true, decide_eq_true_eq] using String.le_total
  exact rises.imp of_decide_eq_true

/-- In order, lists of texts differ only when one of them has a text more often. -/
theorem sorted_eq_sorted_iff {xs ys : List String} : sorted xs = sorted ys ↔ xs.Perm ys := by
  constructor
  · intro same
    exact (sorted_perm xs).symm.trans (same ▸ sorted_perm ys)
  · intro shuffled
    have sorts : (sorted xs).Perm (sorted ys) :=
      (sorted_perm xs).trans (shuffled.trans (sorted_perm ys).symm)
    exact sorts.eq_of_pairwise (fun _ _ _ _ => String.le_antisymm) (pairwise_sorted xs)
      (pairwise_sorted ys)

theorem nodup_eraseDups (xs : List String) : xs.eraseDups.Nodup := by
  induction size : xs.length using Nat.strongRecOn generalizing xs with
  | ind n ih =>
    cases xs with
    | nil => simp
    | cons x rest =>
      have shorter : (rest.filter fun y => !y == x).length < n := by
        have := List.length_filter_le (fun y => !y == x) rest
        simp only [List.length_cons] at size
        omega
      rw [List.eraseDups_cons, List.nodup_cons, List.mem_eraseDups, List.mem_filter]
      exact ⟨by simp, ih _ shorter _ rfl⟩

theorem nodup_sorted_eraseDups (xs : List String) : (sorted xs.eraseDups).Nodup :=
  (sorted_perm _).nodup_iff.mpr (nodup_eraseDups xs)

/-! ### Inputs -/

/-- An input of the contract has the name and points at content. -/
def Supplied (c : Contract) (name : String) : Prop :=
  ∃ r ∈ c.inputs, r.name = name ∧ ∃ l, r.dataLocation = some l ∧ l.hash ≠ []

theorem hasContent_iff {r : Record} :
    r.hasContent = true ↔ ∃ l, r.dataLocation = some l ∧ l.hash ≠ [] := by
  unfold Record.hasContent
  cases r.dataLocation <;> simp

/-- The names that are asked for. -/
def factNames (s : ContractSpecification) : List String := s.inputSpecs.map (·.name)

/-- The names that are asked for and supplied. -/
def suppliedNames (c : Contract) (s : ContractSpecification) : List String :=
  (c.inputs.filter fun r => r.hasContent && (sorted (factNames s)).contains r.name).map (·.name)

theorem mem_suppliedNames_iff {c : Contract} {s : ContractSpecification} {name : String} :
    name ∈ suppliedNames c s ↔ name ∈ factNames s ∧ Supplied c name := by
  simp only [suppliedNames, List.mem_map, List.mem_filter, Bool.and_eq_true, hasContent_iff,
    List.contains_iff_mem, mem_sorted_iff, Supplied]
  constructor
  · rintro ⟨r, ⟨member, content, wanted⟩, rfl⟩
    exact ⟨wanted, r, member, rfl, content⟩
  · rintro ⟨wanted, r, member, rfl, content⟩
    exact ⟨r, ⟨member, content, wanted⟩, rfl⟩

/-- The names that are asked for are those that are supplied, and none of them is asked for twice. -/
theorem perm_suppliedNames_iff {c : Contract} {s : ContractSpecification} :
    (factNames s).Perm (suppliedNames c s).eraseDups ↔
      (factNames s).Nodup ∧ ∀ name ∈ factNames s, Supplied c name := by
  constructor
  · intro same
    refine ⟨same.nodup_iff.mpr (nodup_eraseDups _), ?_⟩
    intro name wanted
    exact (mem_suppliedNames_iff.mp (List.mem_eraseDups.mp (same.mem_iff.mp wanted))).2
  · rintro ⟨distinct, supplied⟩
    refine (List.perm_ext_iff_of_nodup distinct (nodup_eraseDups _)).mpr ?_
    intro name
    rw [List.mem_eraseDups, mem_suppliedNames_iff]
    exact ⟨fun wanted => ⟨wanted, supplied name wanted⟩, fun found => found.1⟩

theorem factsSupplied_eq (c : Contract) (s : ContractSpecification) :
    factsSupplied c s =
      if sorted (factNames s) = sorted (suppliedNames c s).eraseDups then .ok ()
      else .error (.facts (sorted (factNames s)) (sorted (suppliedNames c s).eraseDups)) := rfl

/-- Who checked the inputs of a contract finds all that the specification asks for. -/
theorem supplied_of_factsSupplied {c : Contract} {s : ContractSpecification}
    (accepted : factsSupplied c s = .ok ()) : ∀ i ∈ s.inputSpecs, Supplied c i.name := by
  intro i member
  rw [factsSupplied_eq] at accepted
  split at accepted
  · rename_i same
    have names := perm_suppliedNames_iff.mp (sorted_eq_sorted_iff.mp same)
    exact names.2 i.name (List.mem_map_of_mem member)
  · cases accepted

/-- The check of the inputs accepts a contract exactly when every name that the specification asks
for is supplied with content, and none is asked for twice. Otherwise it reports the names that are
asked for, each as often as it is, and those among them that are supplied, each once. -/
theorem factsSupplied_eq_ok_iff (c : Contract) (s : ContractSpecification) :
    (factsSupplied c s = .ok () ↔
        (s.inputSpecs.map (·.name)).Nodup ∧ ∀ i ∈ s.inputSpecs, Supplied c i.name) ∧
      ∀ fault, factsSupplied c s = .error fault → ∃ required specified,
        fault = .facts required specified ∧ required.Perm (s.inputSpecs.map (·.name)) ∧
          specified.Nodup ∧
          ∀ name, name ∈ specified ↔ name ∈ s.inputSpecs.map (·.name) ∧ Supplied c name := by
  refine ⟨?_, ?_⟩
  · have supplied : (∀ i ∈ s.inputSpecs, Supplied c i.name) ↔
        ∀ name ∈ factNames s, Supplied c name := by simp [factNames]
    rw [supplied, ← factNames, ← perm_suppliedNames_iff, ← sorted_eq_sorted_iff,
      factsSupplied_eq]
    split <;> simp [*]
  · intro fault refused
    rw [factsSupplied_eq] at refused
    split at refused
    · cases refused
    · cases refused
      refine ⟨_, _, rfl, sorted_perm _, nodup_sorted_eraseDups _, ?_⟩
      intro name
      rw [mem_sorted_iff, List.mem_eraseDups, mem_suppliedNames_iff]
      rfl

/-- A specification that asks for an input twice refuses a contract that supplies it. -/
theorem repeated_fact_is_refused :
    let c : Contract := { inputs := [⟨"asset", some ⟨"acme.Asset", [1]⟩⟩] }
    let s : ContractSpecification := { inputSpecs := [{ name := "asset" }, { name := "asset" }] }
    (∀ i ∈ s.inputSpecs, Supplied c i.name) ∧
      factsSupplied c s = .error (.facts ["asset", "asset"] ["asset"]) := by
  intro c s
  have twice : sorted ["asset", "asset"] = ["asset", "asset"] :=
    List.perm_replicate.mp (sorted_perm (List.replicate 2 "asset"))
  have once : sorted ["asset"].eraseDups = ["asset"] := List.mergeSort_singleton _
  refine ⟨by simp [s, c, Supplied], ?_⟩
  unfold factsSupplied
  simp [s, c, Record.hasContent, twice, once]

end Notary.Engine
