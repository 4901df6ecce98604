/-
The order of scopes follows the root of a name.

Providers are asked about roots alone, and the reserved namespace has no dollar sign in it. So
neither the nested part of an announced symbol nor that of a name counts, and a name is looked for
where its outermost symbol is.

* `Leads`, `leads_iff` — the text in front of the first dollar sign is the root.
* `claims_ofList_iff`, `isReserved_iff` — the names that are claimed, and those that are reserved.
* `claims_rootOf`, `isReserved_rootOf` — both can be told from the root.
* `order_of_root` — what decides on the order of a name.
-/

import Mathlib.Data.List.TakeWhile
import Notary.Symbol.Order

namespace Notary.Symbol

/-! ### Roots -/

/-- The text stands in front of the first dollar sign of a name, or is all of a name without one. -/
def Leads (front name : String) : Prop :=
  '$' ∉ front.toList ∧ (name = front ∨ ∃ nested, name = front ++ "$" ++ nested)

theorem dollar_notMem_rootOf (name : String) : '$' ∉ (rootOf name).toList := by
  intro member
  rw [rootOf, String.toList_ofList] at member
  simpa using List.all_eq_true.mp List.all_takeWhile _ member

theorem leads_rootOf (name : String) : Leads (rootOf name) name := by
  refine ⟨dollar_notMem_rootOf name, ?_⟩
  have parts : name = rootOf name ++ String.ofList (name.toList.dropWhile (· != '$')) := by
    rw [rootOf, ← String.ofList_append, List.takeWhile_append_dropWhile, String.ofList_toList]
  cases behind : name.toList.dropWhile (· != '$') with
  | nil =>
    rw [behind] at parts
    exact .inl (by simpa using parts)
  | cons c nested =>
    have dollar : c = '$' := by
      simpa [behind] using List.head?_dropWhile_not (· != '$') name.toList
    rw [behind, dollar] at parts
    exact .inr ⟨String.ofList nested, by simpa [String.ext_iff] using parts⟩

/-- There is one text in front of the first dollar sign, and it is the root. -/
theorem leads_iff {front name : String} : Leads front name ↔ rootOf name = front := by
  constructor
  · rintro ⟨plain, whole⟩
    have kept : ∀ c ∈ front.toList, (c != '$') = true := by
      rintro c member
      rw [bne_iff_ne]
      rintro rfl
      exact plain member
    rw [rootOf]
    rcases whole with rfl | ⟨nested, rfl⟩
    · rw [List.takeWhile_eq_self_iff.mpr kept, String.ofList_toList]
    · rw [String.toList_append, String.toList_append, List.append_assoc,
        List.takeWhile_append_of_pos kept]
      simp
  · rintro rfl
    exact leads_rootOf name

/-! ### Claimed and reserved names -/

/-- A name is claimed when a symbol with its root is announced. -/
theorem claims_ofList_iff {contracts schemas : List Provider} {name : String} :
    Registries.claims ⟨.ofList contracts, .ofList schemas⟩ name = true ↔
      ∃ p ∈ contracts ++ schemas, ∃ symbol ∈ p.symbols, rootOf symbol = rootOf name := by
  simp only [Registries.claims, Registry.containsRoot, Bool.or_eq_true, List.contains_iff_mem,
    Registry.mem_roots_ofList_iff, List.mem_append, or_and_right, exists_or]

/-- A name is reserved when something is written behind the name of the namespace. -/
theorem isReserved_iff {name : String} :
    isReserved name = true ↔ ∃ rest, name = reservedNamespace ++ rest := by
  rw [isReserved, List.isPrefixOf_iff_prefix]
  constructor
  · rintro ⟨rest, whole⟩
    exact ⟨String.ofList rest, by simp [String.ext_iff, ← whole]⟩
  · rintro ⟨rest, rfl⟩
    exact ⟨rest.toList, by rw [String.toList_append]⟩

theorem claims_rootOf (r : Registries) (name : String) : r.claims (rootOf name) = r.claims name := by
  rw [Registries.claims, rootOf_rootOf, Registries.claims]

/-- No dollar sign is in the reserved namespace, so none is passed over when a name is cut. -/
theorem isReserved_rootOf (name : String) : isReserved (rootOf name) = isReserved name := by
  have kept : ∀ c ∈ reservedNamespace.toList, (c != '$') = true :=
    List.all_eq_true.mp (by decide)
  rw [Bool.eq_iff_iff, isReserved, isReserved, List.isPrefixOf_iff_prefix,
    List.isPrefixOf_iff_prefix, rootOf, String.toList_ofList]
  constructor
  · intro reserved
    exact reserved.trans (List.takeWhile_prefix _)
  · rintro ⟨rest, whole⟩
    rw [← whole, List.takeWhile_append_of_pos kept]
    exact List.prefix_append _ _

/-! ### Providers -/

/-- The provider of the outermost symbols alone. -/
def Provider.outermost (p : Provider) : Provider := { p with symbols := p.symbols.map rootOf }

/-- Nested symbols claim what their outermost symbols do. -/
theorem Registry.ofList_map_outermost (ps : List Provider) :
    ofList (ps.map Provider.outermost) = ofList ps := by
  have same : ∀ (r : Registry) (p : Provider), r.register p.outermost = r.register p := by
    intro r p
    simp only [register, Provider.outermost, List.map_map, Function.comp_def, rootOf_rootOf]
  simp only [ofList, List.foldl_map, same]

/-! ### Orders -/

theorem order_eq (r : Registries) (name : String) :
    order r name =
      if isReserved name = false ∧ r.claims name = true then [.isolated, .parent, .global]
      else [.parent, .isolated, .global] := by
  rw [order]
  cases isReserved name <;> cases r.claims name <;> rfl

/-- The archives of the contract come first for a name outside the reserved namespace when a symbol
with its root was announced, in whichever registry, and the host comes first for every other name.
The root is the text in front of the first dollar sign, also where that is in an odd place. Neither
the nested part of the name counts nor those of the announced symbols. -/
theorem order_of_root (contracts schemas : List Provider) (name : String) :
    let r : Registries := ⟨.ofList contracts, .ofList schemas⟩
    (order r name = [.isolated, .parent, .global] ∨
        order r name = [.parent, .isolated, .global]) ∧
      (order r name = [.isolated, .parent, .global] ↔
        (¬ ∃ rest, name = "google.protobuf." ++ rest) ∧
          ∃ p ∈ contracts ++ schemas, ∃ symbol ∈ p.symbols, ∃ root,
            Leads root symbol ∧ Leads root name) ∧
      (Leads (rootOf name) name ∧ order r (rootOf name) = order r name) ∧
      order ⟨.ofList (contracts.map Provider.outermost), .ofList (schemas.map Provider.outermost)⟩
        name = order r name := by
  intro r
  have reserved : isReserved name = false ↔ ¬ ∃ rest, name = "google.protobuf." ++ rest := by
    rw [← Bool.not_eq_true, isReserved_iff, reservedNamespace]
  have claimed : r.claims name = true ↔ ∃ p ∈ contracts ++ schemas, ∃ symbol ∈ p.symbols,
      ∃ root, Leads root symbol ∧ Leads root name := by
    simp only [r, claims_ofList_iff, leads_iff, exists_eq_left']
    simp only [eq_comm]
  refine ⟨?_, ?_, ?_, ?_⟩
  · rw [order_eq]
    split <;> simp
  · rw [order_eq, ← reserved, ← claimed]
    split
    · rename_i first
      exact iff_of_true rfl first
    · rename_i other
      exact iff_of_false (by decide) other
  · refine ⟨leads_rootOf name, ?_⟩
    rw [order_eq, order_eq, isReserved_rootOf, claims_rootOf]
  · rw [Registry.ofList_map_outermost, Registry.ofList_map_outermost]

/-- A dollar sign behind the reserved namespace leaves a name reserved, one inside it does not, and a
name that begins with one has the empty root. -/
example :
    let r : Registries := ⟨.ofList [⟨.zero, ["$Note", "google.protobuf$Any"]⟩], .ofList []⟩
    order r "google.protobuf.$Any" = [.parent, .isolated, .global] ∧
      order r "google.protobuf$.Any" = [.isolated, .parent, .global] ∧
      order r "" = [.isolated, .parent, .global] := by
  decide +kernel

end Notary.Symbol
