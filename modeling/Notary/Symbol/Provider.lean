/-
Providers: bundles of symbols that the host ships itself.

A provider claims the root of every symbol it announces. The root of a name is its part before the
first dollar sign, so a nested name is claimed together with the symbol around it.

* `mem_roots_ofList_iff` — a registry holds exactly the roots of the announced symbols.
* `rootOf_rootOf` — the root of a root is itself.
-/

import Notary.Bytes

namespace Notary.Symbol

/-- The outermost symbol of a name: all in front of the first dollar sign. -/
def rootOf (name : String) : String := String.ofList (name.toList.takeWhile (· != '$'))

theorem rootOf_rootOf (name : String) : rootOf (rootOf name) = rootOf name := by
  simp only [rootOf, String.toList_ofList]
  congr 1
  induction name.toList with
  | nil => rfl
  | cons c rest ih =>
    simp only [List.takeWhile_cons]
    split
    · rename_i h
      simp [h, ih]
    · rfl

/-- A bundle of symbols, named by the hash of its content. -/
structure Provider where
  hash : Hash
  symbols : List String

/-- The roots that a number of providers claim. -/
structure Registry where
  /-- The claimed roots. -/
  roots : List String := []
  /-- The hashes of the providers, in the order of their registration. -/
  providers : List Hash := []

namespace Registry

/-- Adds the roots of a provider. -/
def register (r : Registry) (p : Provider) : Registry :=
  { roots := r.roots ++ p.symbols.map rootOf, providers := r.providers ++ [p.hash] }

/-- The registry of a number of providers. -/
def ofList (ps : List Provider) : Registry := ps.foldl register {}

/-- Some provider claims the root. -/
def containsRoot (r : Registry) (root : String) : Bool := r.roots.contains root

theorem roots_foldl (ps : List Provider) (r : Registry) :
    (ps.foldl register r).roots = r.roots ++ ps.flatMap fun p => p.symbols.map rootOf := by
  induction ps generalizing r with
  | nil => simp
  | cons p ps ih => simp [ih, register]

theorem mem_roots_ofList_iff {ps : List Provider} {root : String} :
    root ∈ (ofList ps).roots ↔ ∃ p ∈ ps, ∃ s ∈ p.symbols, rootOf s = root := by
  simp [ofList, roots_foldl]

end Registry

/-- The registries of the providers of contracts and of the providers of schemas. -/
structure Registries where
  contracts : Registry := {}
  schemas : Registry := {}

/-- The root of a name is claimed in either registry. -/
def Registries.claims (r : Registries) (name : String) : Bool :=
  r.contracts.containsRoot (rootOf name) || r.schemas.containsRoot (rootOf name)

end Notary.Symbol
