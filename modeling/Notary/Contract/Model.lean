/-
The contract model: specifications, contracts with their considerations, envelopes, and the state of
a scope.

Enumeration fields hold bare numbers and hash fields bare byte strings, as they come; the accessors
below say what they stand for.

* `Contract`, `Consideration`, `ExecutionResult` — a contract and the slots in which functions run.
* `ContractSpecification` — what a contract has to provide.
* `Envelope` — a contract with its signatures.
* `Consideration.isPending` — no result, or one equal to the default.
-/

import Notary.Bytes
import Notary.Contract.Party

namespace Notary

namespace Contract

/-- A pointer to a stored object: the name of its type and its content hash. -/
structure Location where
  classname : String := ""
  hash : Bytes := []
deriving DecidableEq

/-- A definition of a contract, an input or an output. -/
structure DefinitionSpec where
  name : String := ""
  resourceLocation : Option Location := none
  kind : Int32 := 0
deriving DecidableEq

/-- The output of a function. -/
structure OutputSpec where
  spec : Option DefinitionSpec := none
deriving DecidableEq

/-- A function that a contract offers. -/
structure FunctionSpec where
  funcName : String := ""
  inputSpecs : List DefinitionSpec := []
  invokerParty : Int32 := 0
  outputSpec : Option OutputSpec := none
deriving DecidableEq

/-- The immutable description of a contract, stored by its content hash. -/
structure ContractSpecification where
  definition : Option DefinitionSpec := none
  inputSpecs : List DefinitionSpec := []
  partiesInvolved : List Int32 := []
  functionSpecs : List FunctionSpec := []
deriving DecidableEq

/-- A named record that is already stored. -/
structure Record where
  name : String := ""
  dataLocation : Option Location := none
deriving DecidableEq

/-- A record proposed with a consideration, or the output of one. -/
structure ProposedRecord where
  name : String := ""
  hash : Bytes := []
  classname : String := ""
  ancestorHash : Bytes := []
deriving DecidableEq

/-- What became of a consideration, with its output or an error. -/
structure ExecutionResult where
  result : Int32 := 0
  output : Option ProposedRecord := none
  errorMessage : String := ""
deriving DecidableEq

/-- One slot in which a function runs. -/
structure Consideration where
  considerationName : String := ""
  inputs : List ProposedRecord := []
  result : Option ExecutionResult := none
deriving DecidableEq

/-- The keys of a party. -/
structure PartyKeys where
  signingPublicKey : Bytes := []
  encryptionPublicKey : Bytes := []
deriving DecidableEq

/-- Binds a role to the keys of the party that fills it. -/
structure Recital where
  signerRole : Int32 := 0
  signer : Option PartyKeys := none
deriving DecidableEq

end Contract

/-- A contract. -/
structure Contract where
  definition : Option Contract.DefinitionSpec := none
  spec : Option Contract.Record := none
  inputs : List Contract.Record := []
  considerations : List Contract.Consideration := []
  recitals : List Contract.Recital := []
deriving DecidableEq

namespace Contract

/-- A signature with the key that it was made with. -/
structure ContractSignature where
  signer : Bytes := []
  signature : Bytes := []
deriving DecidableEq

/-- Where an envelope belongs. -/
structure EnvelopeRef where
  scopeUuid : String := ""
  sessionUuid : String := ""
deriving DecidableEq

/-- A contract on its way between parties. -/
structure Envelope where
  envelopeRef : Option EnvelopeRef := none
  contract : Option Contract := none
  signatures : List ContractSignature := []
  executionUuid : String := ""
  scopeSpecUuid : String := ""
  newScope : Bool := false
  newSession : Bool := false
deriving DecidableEq

/-- The outputs that a scope holds under a name. -/
structure ScopeRecord where
  name : String := ""
  outputs : List ProposedRecord := []
deriving DecidableEq

/-- The records that are already on a scope. -/
structure ScopeState where
  scopeUuid : String := ""
  records : List ScopeRecord := []
deriving DecidableEq

namespace Location

def new (classname : String) (hash : Hash) : Location := ⟨classname, hash.toList⟩

/-- The content hash; none when it is empty or malformed. -/
def contentHash? (l : Location) : Option Hash := Hash.ofField? l.hash

end Location

namespace DefinitionSpec

/-- The type name of the resource, empty without a location. -/
def classname (d : DefinitionSpec) : String := (d.resourceLocation.map (·.classname)).getD ""

/-- The hash field of the resource, empty without a location. -/
def hashBytes (d : DefinitionSpec) : Bytes := (d.resourceLocation.map (·.hash)).getD []

def contentHash? (d : DefinitionSpec) : Option Hash := Hash.ofField? d.hashBytes

/-- The kind; a number without a name counts as unspecified. -/
def definitionKind (d : DefinitionSpec) : DefinitionKind :=
  (DefinitionKind.ofNumber? d.kind).getD .unspecified

end DefinitionSpec

namespace FunctionSpec

/-- The definition of the output, when there is one. -/
def outputDefinition? (f : FunctionSpec) : Option DefinitionSpec := f.outputSpec.bind (·.spec)

def invoker (f : FunctionSpec) : PartyType :=
  (PartyType.ofNumber? f.invokerParty).getD .unspecified

end FunctionSpec

/-- The parties of a specification that have a name. -/
def ContractSpecification.parties (s : ContractSpecification) : List PartyType :=
  s.partiesInvolved.filterMap PartyType.ofNumber?

namespace Record

def new (name : String) (location : Location) : Record := ⟨name, some location⟩

/-- The type name of the stored object, empty without a location. -/
def classname (r : Record) : String := (r.dataLocation.map (·.classname)).getD ""

/-- The record points at stored content. -/
def hasContent (r : Record) : Bool := r.dataLocation.any fun l => !l.hash.isEmpty

def contentHash? (r : Record) : Option Hash := r.dataLocation.bind (·.contentHash?)

end Record

namespace ProposedRecord

def new (name classname : String) (hash : Hash) : ProposedRecord :=
  { name, classname, hash := hash.toList }

def contentHash? (p : ProposedRecord) : Option Hash := Hash.ofField? p.hash

/-- The hash of the output that this record supersedes. -/
def ancestor? (p : ProposedRecord) : Option Hash := Hash.ofField? p.ancestorHash

end ProposedRecord

namespace ExecutionResult

def pass (output : ProposedRecord) : ExecutionResult :=
  { result := Outcome.pass.number, output := some output }

def fail (errorMessage : String) : ExecutionResult :=
  { result := Outcome.fail.number, errorMessage }

/-- A skipped consideration names its output but has no hash for it. -/
def skip (name classname : String) : ExecutionResult :=
  { result := Outcome.skip.number, output := some { name, classname } }

/-- The result is the default one: nothing has run yet. -/
def isUnset (r : ExecutionResult) : Bool := r = {}

def outcome (r : ExecutionResult) : Outcome := (Outcome.ofNumber? r.result).getD .unset

end ExecutionResult

namespace Consideration

/-- Without a result, or with the default one, a consideration is pending. -/
def isPending (c : Consideration) : Bool := c.result.all (·.isUnset)

def outcome (c : Consideration) : Outcome := (c.result.map (·.outcome)).getD .unset

end Consideration

namespace Recital

def new (role : PartyType) (signing encryption : PublicKey) : Recital :=
  { signerRole := role.number, signer := some ⟨signing.toList, encryption.toList⟩ }

/-- The encryption key of the party, when it is well-formed. -/
def encryptionKey? (r : Recital) : Option PublicKey :=
  r.signer.bind fun s => FixedBytes.ofBytes? 32 s.encryptionPublicKey

def role (r : Recital) : PartyType := (PartyType.ofNumber? r.signerRole).getD .unspecified

end Recital

/-- The hash of the first output of the first record with this name. -/
def ScopeState.priorOutputHash? (s : ScopeState) (name : String) : Option Bytes :=
  match s.records.find? (·.name == name) with
  | none => none
  | some r => r.outputs.head?.map (·.hash)

end Contract

end Notary
