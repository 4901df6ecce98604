/-
When the recitals of a contract fit its specification.

The roles of both are compared by their names, in ascending order. That is as good as a comparison
of the numbers: a role is shown by its name alone, without a parenthesis, and a number without a
role by its digits in parentheses, so no two numbers have one name.

* `roleName_of_number`, `roleName_of_unknown` — how a number is shown.
* `roleName_injective` — different numbers are shown differently.
* `recitalsMatch_eq_ok_iff` — what the check of the recitals accepts.
-/

import Mathlib.Data.List.Perm.Basic
import Mathlib.Data.List.Nodup
import Std.Data.String.ToInt
import Notary.Proofs.Engine.Validation

namespace Notary.Engine

open Notary.Contract

/-! ### Names of roles -/

/-- A role as it is shown. -/
def shownRole (p : PartyType) : String := p.name.map Char.toUpper

/-- A number without a role as it is shown. -/
def shownNumber (n : Int32) : String := s!"UNKNOWN({n.toInt})"

theorem roleName_of_number (p : PartyType) : roleName p.number = shownRole p := by
  rw [roleName, PartyType.ofNumber?_number, shownRole]

theorem roleName_of_unknown {n : Int32} (unknown : PartyType.ofNumber? n = none) :
    roleName n = shownNumber n := by
  rw [roleName, unknown, shownNumber]

/-- A number is that of a role or has none, and is shown accordingly. -/
theorem roleName_cases (n : Int32) :
    (∃ p : PartyType, p.number = n ∧ roleName n = shownRole p) ∨ roleName n = shownNumber n := by
  cases found : PartyType.ofNumber? n with
  | none => exact .inr (roleName_of_unknown found)
  | some p =>
    have number : p.number = n := by simpa using List.find?_some found
    exact .inl ⟨p, number, number ▸ roleName_of_number p⟩

theorem mem_all (p : PartyType) : p ∈ PartyType.all := by
  cases p <;> decide

theorem nodup_shownRole : (PartyType.all.map shownRole).Nodup := by
  decide +kernel

theorem shownRole_injective {p q : PartyType} (same : shownRole p = shownRole q) : p = q :=
  List.inj_on_of_nodup_map nodup_shownRole (mem_all p) (mem_all q) same

/-- The digits of a number, with its sign, tell which it is. -/
theorem shownNumber_injective {m n : Int32} (same : shownNumber m = shownNumber n) : m = n := by
  have digits : toString m.toInt = toString n.toInt := by
    simpa [shownNumber, String.ext_iff] using same
  have value : m.toInt = n.toInt := by
    simpa using congrArg String.toInt? digits
  exact Int32.toInt_inj.mp value

theorem parenthesis_notMem_shownRole (p : PartyType) : '(' ∉ (shownRole p).toList := by
  have none : ∀ q ∈ PartyType.all, '(' ∉ (shownRole q).toList := by decide +kernel
  exact none p (mem_all p)

theorem shownRole_ne_shownNumber (p : PartyType) (n : Int32) : shownRole p ≠ shownNumber n := by
  intro same
  have opens : '(' ∈ (toString "UNKNOWN(").toList := by decide
  refine parenthesis_notMem_shownRole p ?_
  rw [same, shownNumber, String.toList_append, String.toList_append]
  exact List.mem_append_left _ (List.mem_append_left _ opens)

/-- Different numbers are shown differently, whether they have roles or not. -/
theorem roleName_injective {m n : Int32} (same : roleName m = roleName n) : m = n := by
  rcases roleName_cases m with ⟨p, rfl, left⟩ | left <;>
    rcases roleName_cases n with ⟨q, rfl, right⟩ | right <;> rw [left, right] at same
  · rw [shownRole_injective same]
  · exact absurd same (shownRole_ne_shownNumber p n)
  · exact absurd same.symm (shownRole_ne_shownNumber q m)
  · exact shownNumber_injective same

/-! ### Recitals -/

/-- Lists of numbers are the same up to their order when their names are. -/
theorem perm_map_roleName_iff {ms ns : List Int32} :
    (ms.map roleName).Perm (ns.map roleName) ↔ ms.Perm ns :=
  List.map_perm_map_iff fun _ _ => roleName_injective

/-- The check of the recitals accepts a contract exactly when the numbers of the roles in its
recitals are those that the specification asks for, each as often, be they numbers of roles or not.
No two numbers have one name. -/
theorem recitalsMatch_eq_ok_iff (c : Contract) (s : ContractSpecification) :
    (recitalsMatch c s = .ok () ↔ (c.recitals.map (·.signerRole)).Perm s.partiesInvolved) ∧
      ∀ m n : Int32, roleName m = roleName n ↔ m = n := by
  refine ⟨?_, fun m n => ⟨roleName_injective, congrArg roleName⟩⟩
  have accepted : recitalsMatch c s = .ok () ↔ sorted (s.partiesInvolved.map roleName) =
      sorted ((c.recitals.map (·.signerRole)).map roleName) := by
    rw [recitalsMatch, List.map_map]
    split <;> simp_all [Function.comp_def]
  rw [accepted, sorted_eq_sorted_iff, perm_map_roleName_iff, List.perm_comm]

end Notary.Engine
