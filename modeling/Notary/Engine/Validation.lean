/-
Checks of a contract against its specification before anything runs.

* `recitalsMatch` — the roles of the recitals are the roles that the specification asks for, each as
  often.
* `factsSupplied` — every input that the specification names is supplied with content.
* `validate` — both, the recitals first.
-/

import Notary.Contract.Model
import Notary.Text.Quoted

namespace Notary.Engine

open Notary.Contract

/-- A contract that does not fit its specification. -/
inductive ValidationFault where
  | recitals (required specified : List String)
  | facts (required specified : List String)
deriving DecidableEq, Repr

namespace ValidationFault

def message : ValidationFault → String
  | .recitals required specified =>
    "Provided signers and their roles do not match the contract spec [required parties: "
      ++ Text.Quoted.list required ++ "] [specified parties: " ++ Text.Quoted.list specified ++ "]"
  | .facts required specified =>
    "Provided facts do not match the contract spec [required facts: "
      ++ Text.Quoted.list required ++ "] [specified facts: " ++ Text.Quoted.list specified ++ "]"

end ValidationFault

/-- Texts in ascending order. -/
def sorted (xs : List String) : List String := xs.mergeSort fun a b => decide (a ≤ b)

/-- The name of a role in capitals; a number without a role is shown as it is. -/
def roleName (n : Int32) : String :=
  match PartyType.ofNumber? n with
  | some p => p.name.map Char.toUpper
  | none => s!"UNKNOWN({n.toInt})"

/-- The roles of the recitals are those of the specification, counted with multiplicity. -/
def recitalsMatch (c : Contract) (s : ContractSpecification) : Except ValidationFault Unit :=
  let required := sorted (s.partiesInvolved.map roleName)
  let specified := sorted (c.recitals.map fun r => roleName r.signerRole)
  if required = specified then .ok () else .error (.recitals required specified)

/-- Each input that the specification names, and no name twice, is supplied with content. -/
def factsSupplied (c : Contract) (s : ContractSpecification) : Except ValidationFault Unit :=
  let required := sorted (s.inputSpecs.map (·.name))
  let supplied := c.inputs.filter fun r => r.hasContent && required.contains r.name
  let specified := sorted (supplied.map (·.name)).eraseDups
  if required = specified then .ok () else .error (.facts required specified)

/-- All checks; the first that fails is reported. -/
def validate (c : Contract) (s : ContractSpecification) : Except ValidationFault Unit :=
  match recitalsMatch c s with
  | .error e => .error e
  | .ok () => factsSupplied c s

end Notary.Engine
