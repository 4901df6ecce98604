/-
The enumerations of the contract model and their numbers.

A message holds the bare number, which need not be one of an enumeration; `ofNumber?` names it when
it is.

* `PartyType`, `DefinitionKind`, `Outcome`.
-/

namespace Notary.Contract

/-- The role that a party plays on a contract. -/
inductive PartyType where
  | unspecified
  | originator
  | servicer
  | investor
  | custodian
  | owner
  | affiliate
  | omnibus
  | provenance
  | controller
  | validator
deriving DecidableEq, Repr

namespace PartyType

def number : PartyType → Int32
  | .unspecified => 0
  | .originator => 1
  | .servicer => 2
  | .investor => 3
  | .custodian => 4
  | .owner => 5
  | .affiliate => 6
  | .omnibus => 7
  | .provenance => 8
  | .controller => 10
  | .validator => 11

/-- All roles, in the order of their numbers. -/
def all : List PartyType :=
  [.unspecified, .originator, .servicer, .investor, .custodian, .owner, .affiliate, .omnibus,
   .provenance, .controller, .validator]

def ofNumber? (n : Int32) : Option PartyType := all.find? (·.number == n)

@[simp] theorem ofNumber?_number (p : PartyType) : ofNumber? p.number = some p := by
  cases p <;> decide

def name : PartyType → String
  | .unspecified => "Unspecified"
  | .originator => "Originator"
  | .servicer => "Servicer"
  | .investor => "Investor"
  | .custodian => "Custodian"
  | .owner => "Owner"
  | .affiliate => "Affiliate"
  | .omnibus => "Omnibus"
  | .provenance => "Provenance"
  | .controller => "Controller"
  | .validator => "Validator"

end PartyType

/-- How a definition is supplied to a contract. -/
inductive DefinitionKind where
  | unspecified
  | proposed
  | fact
  | factList
deriving DecidableEq, Repr

namespace DefinitionKind

def number : DefinitionKind → Int32
  | .unspecified => 0
  | .proposed => 1
  | .fact => 2
  | .factList => 3

/-- All kinds, in the order of their numbers. -/
def all : List DefinitionKind := [.unspecified, .proposed, .fact, .factList]

def ofNumber? (n : Int32) : Option DefinitionKind := all.find? (·.number == n)

@[simp] theorem ofNumber?_number (k : DefinitionKind) : ofNumber? k.number = some k := by
  cases k <;> decide

def name : DefinitionKind → String
  | .unspecified => "Unspecified"
  | .proposed => "Proposed"
  | .fact => "Fact"
  | .factList => "FactList"

end DefinitionKind

/-- What became of a consideration. -/
inductive Outcome where
  | unset
  | pass
  | skip
  | fail
deriving DecidableEq, Repr

namespace Outcome

def number : Outcome → Int32
  | .unset => 0
  | .pass => 1
  | .skip => 2
  | .fail => 3

/-- All outcomes, in the order of their numbers. -/
def all : List Outcome := [.unset, .pass, .skip, .fail]

def ofNumber? (n : Int32) : Option Outcome := all.find? (·.number == n)

@[simp] theorem ofNumber?_number (o : Outcome) : ofNumber? o.number = some o := by
  cases o <;> decide

def name : Outcome → String
  | .unset => "Unset"
  | .pass => "Pass"
  | .skip => "Skip"
  | .fail => "Fail"

end Outcome

end Notary.Contract
