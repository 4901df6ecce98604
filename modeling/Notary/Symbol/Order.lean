/-
Where a name is looked for, and in which order.

The host is asked first for everything it has not handed to a provider, and for the names of the
reserved namespace. A claimed name is first looked up in the archives of the contract. The shared
types always come last.

* `order` — the three scopes in the order in which they are tried.
-/

import Notary.Symbol.Provider

namespace Notary.Symbol

/-- A place where symbols are found. -/
inductive Origin where
  /-- The archives of the contract. -/
  | isolated
  /-- The host around the engine. -/
  | parent
  /-- The types that everybody shares. -/
  | global
deriving DecidableEq, Repr

def Origin.name : Origin → String
  | .isolated => "isolated"
  | .parent => "parent"
  | .global => "global"

/-- Names that start so are always asked of the host first. -/
def reservedNamespace : String := "google.protobuf."

/-- The name lies in the reserved namespace. -/
def isReserved (name : String) : Bool := reservedNamespace.toList.isPrefixOf name.toList

/-- The scopes to try for a name, in order. -/
def order (r : Registries) (name : String) : List Origin :=
  if isReserved name || !r.claims name then [.parent, .isolated, .global]
  else [.isolated, .parent, .global]

end Notary.Symbol
