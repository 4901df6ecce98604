/-
What a contract module says about itself.

* `ContractMetadata` — the module's names and its functions, with an index of the functions.
* `FunctionDescriptor.exportName` — the guest function behind a function of the contract.
-/

import Std.Data.HashMap

namespace Notary.Metadata

/-- Where a parameter comes from. -/
inductive RecordKind where
  /-- Proposed with the consideration that is run. -/
  | proposed
  /-- Stored already and an input of the contract. -/
  | existing
deriving DecidableEq, Repr

/-- The name of a kind in documents. -/
def RecordKind.name : RecordKind → String
  | .proposed => "Proposed"
  | .existing => "Existing"

/-- A parameter of a function. -/
structure Parameter where
  recordType : RecordKind
  name : String
  isOptional : Bool
  /-- The full name of the message type that the argument must have. -/
  typeName : String
deriving DecidableEq, Repr

/-- A function of a contract. -/
structure FunctionDescriptor where
  name : String
  methodName : String
  invokedBy : String
  parameters : List Parameter
  returnType : String
  /-- The function is skipped when a stored record has this name. -/
  skipIfRecordExists : Option String
deriving DecidableEq, Repr

/-- The guest function that does the work. -/
def FunctionDescriptor.exportName (f : FunctionDescriptor) : String :=
  if f.methodName.isEmpty then f.name else f.methodName

/-- What a module says about itself. -/
structure Description where
  scopeSpecificationUuids : List String
  participants : List String
  name : String
  description : String
  websiteUrl : String
  iconUrl : String
  functions : List FunctionDescriptor
deriving DecidableEq, Repr

/-- A description with the position of each function under its name. -/
structure ContractMetadata extends Description where
  index : Std.HashMap String Nat

/-- Enters functions into an index; the name of one that is there already is reported. -/
def indexFunctions : List FunctionDescriptor → Nat → Std.HashMap String Nat →
    Except String (Std.HashMap String Nat)
  | [], _, index => .ok index
  | f :: fs, i, index =>
    if index.contains f.name then .error f.name
    else indexFunctions fs (i + 1) (index.insert f.name i)

namespace ContractMetadata

/-- The description with its index, unless two functions have one name. -/
def ofDescription (d : Description) : Except String ContractMetadata :=
  (indexFunctions d.functions 0 {}).map fun index => { d with index }

/-- The function of a name. -/
def function? (m : ContractMetadata) (name : String) : Option FunctionDescriptor :=
  m.index[name]?.bind fun i => m.functions[i]?

end ContractMetadata

end Notary.Metadata
