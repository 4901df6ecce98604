/-
Why an execution ends without an envelope.

A guest that fails is no such reason: its consideration is marked and the contract is sealed.

* `DefinitionFault` — what is wrong with a contract, its specification or its records.
* `Fault` — all reasons, with those of the parts that an execution uses.
-/

import Notary.Context.Fault
import Notary.Engine.Validation
import Notary.Guest.Contract
import Notary.Store.Object
import Notary.Wire.Fault

namespace Notary.Engine

/-- What is wrong with a contract, its specification or its records. -/
inductive DefinitionFault where
  | noContract
  | noSpecification
  | noSpecificationHash (name : String)
  | undecodableSpecification (hash : Hash) (fault : Wire.Fault)
  | noDefinition
  | noFunctions
  | notAModule (name : String)
  | unloadableContract (classname : String) (fault : Guest.LoadFault)
  | unknownRecordType (name : String)
  | notAMessageType (name : String)
  | invalidRecord (hash : Hash) (classname : String) (fault : Wire.Fault)
  | malformedHash (name : String) (length : Nat)
  | duplicateRecord (name : String)
  | duplicateProposal (name : String)
  | noValues (name : String)
  | unknownFunction (function contract : String)
  | noResult (function contract : String)
deriving DecidableEq

def DefinitionFault.message : DefinitionFault → String
  | .noContract => "Envelope carries no contract"
  | .noSpecification => "Contract has no specification"
  | .noSpecificationHash name => s!"Specification {name} has no content hash"
  | .undecodableSpecification hash fault =>
    s!"Unable to decode contract specification {hash.toHex}: {fault.message}"
  | .noDefinition => "Contract specification has no definition"
  | .noFunctions => "Contract specification declares no functions"
  | .notAModule name => s!"{name} is not a contract module"
  | .unloadableContract classname fault => s!"Unable to load contract {classname}: {fault.message}"
  | .unknownRecordType name => s!"Unable to resolve record type {name}"
  | .notAMessageType name => s!"{name} is not a message type"
  | .invalidRecord hash classname fault =>
    s!"Record {hash.toHex} is not a valid {classname}: {fault.message}"
  | .malformedHash name length =>
    s!"Record {name} has a malformed content hash ({length} bytes, expected 32)"
  | .duplicateRecord name => s!"Found duplicate record messages by name: {name}"
  | .duplicateProposal name => s!"Found duplicate proposed records by name: {name}"
  | .noValues name => s!"Record {name} has no values"
  | .unknownFunction function contract =>
    s!"Unable to find function {function} on contract {contract}"
  | .noResult function contract =>
    s!"Function {function} on contract {contract} returned no result"

/-- Why an execution ends without an envelope. -/
inductive Fault where
  | definition (fault : DefinitionFault)
  /-- The archive of the contract's module is not there for this reader. -/
  | notBootstrapped (classname : String) (reader : PublicKey) (hash : Bytes)
  | validation (fault : ValidationFault)
  | store (fault : Store.Fault)
  | context (fault : Context.Fault)
  /-- An engine was asked for without a store. -/
  | noStore
deriving DecidableEq

def Fault.message : Fault → String
  | .definition fault => s!"Contract definition error: {fault.message}"
  | .notBootstrapped classname reader hash =>
    "Unable to load contract module, verify that its archive has been bootstrapped "
      ++ s!"[classname: {classname}] [public key: {reader.toHex}] "
      ++ "[hash: " ++ Text.Hex.encode hash ++ "]"
  | .validation fault => s!"Contract validation failed: {fault.message}"
  | .store fault => s!"Store error: {fault.message}"
  | .context fault => s!"Isolation error: {fault.message}"
  | .noStore => "Configuration error: an object store is required"

end Notary.Engine
