/-
The contract model on the wire: the field numbers and names of its seventeen message types.

Field numbers never change: a signature covers the bytes that follow from them.
-/

import Notary.Contract.Model
import Notary.Wire.Format

namespace Notary.Contract

open Wire

instance : Message Location where
  format := {
    name := "Location"
    blank := {}
    fields := [
      .scalar .text 1 "classname" (·.classname) fun v m => { m with classname := v },
      .scalar .blob 2 "hash" (·.hash) fun v m => { m with hash := v }] }

instance : Message DefinitionSpec where
  format := {
    name := "DefinitionSpec"
    blank := {}
    fields := [
      .scalar .text 1 "name" (·.name) fun v m => { m with name := v },
      .optional Message.format 2 "resource_location" (·.resourceLocation)
        fun v m => { m with resourceLocation := v },
      .scalar .enumeration 3 "kind" (·.kind) fun v m => { m with kind := v }] }

instance : Message OutputSpec where
  format := {
    name := "OutputSpec"
    blank := {}
    fields := [
      .optional Message.format 1 "spec" (·.spec) fun v m => { m with spec := v }] }

instance : Message FunctionSpec where
  format := {
    name := "FunctionSpec"
    blank := {}
    fields := [
      .scalar .text 1 "func_name" (·.funcName) fun v m => { m with funcName := v },
      .repeated Message.format 2 "input_specs" (·.inputSpecs)
        fun v m => { m with inputSpecs := v },
      .scalar .enumeration 3 "invoker_party" (·.invokerParty)
        fun v m => { m with invokerParty := v },
      .optional Message.format 4 "output_spec" (·.outputSpec)
        fun v m => { m with outputSpec := v }] }

instance : Message ContractSpecification where
  format := {
    name := "ContractSpecification"
    blank := {}
    fields := [
      .optional Message.format 1 "definition" (·.definition)
        fun v m => { m with definition := v },
      .repeated Message.format 2 "input_specs" (·.inputSpecs)
        fun v m => { m with inputSpecs := v },
      .packed .enumeration 3 "parties_involved" (·.partiesInvolved)
        fun v m => { m with partiesInvolved := v },
      .repeated Message.format 4 "function_specs" (·.functionSpecs)
        fun v m => { m with functionSpecs := v }] }

instance : Message Record where
  format := {
    name := "Record"
    blank := {}
    fields := [
      .scalar .text 1 "name" (·.name) fun v m => { m with name := v },
      .optional Message.format 2 "data_location" (·.dataLocation)
        fun v m => { m with dataLocation := v }] }

instance : Message ProposedRecord where
  format := {
    name := "ProposedRecord"
    blank := {}
    fields := [
      .scalar .text 1 "name" (·.name) fun v m => { m with name := v },
      .scalar .blob 2 "hash" (·.hash) fun v m => { m with hash := v },
      .scalar .text 3 "classname" (·.classname) fun v m => { m with classname := v },
      .scalar .blob 4 "ancestor_hash" (·.ancestorHash) fun v m => { m with ancestorHash := v }] }

instance : Message ExecutionResult where
  format := {
    name := "ExecutionResult"
    blank := {}
    fields := [
      .scalar .enumeration 1 "result" (·.result) fun v m => { m with result := v },
      .optional Message.format 2 "output" (·.output) fun v m => { m with output := v },
      .scalar .text 3 "error_message" (·.errorMessage) fun v m => { m with errorMessage := v }] }

instance : Message Consideration where
  format := {
    name := "Consideration"
    blank := {}
    fields := [
      .scalar .text 1 "consideration_name" (·.considerationName)
        fun v m => { m with considerationName := v },
      .repeated Message.format 2 "inputs" (·.inputs) fun v m => { m with inputs := v },
      .optional Message.format 3 "result" (·.result) fun v m => { m with result := v }] }

instance : Message PartyKeys where
  format := {
    name := "SigningAndEncryptionKeys"
    blank := {}
    fields := [
      .scalar .blob 1 "signing_public_key" (·.signingPublicKey)
        fun v m => { m with signingPublicKey := v },
      .scalar .blob 2 "encryption_public_key" (·.encryptionPublicKey)
        fun v m => { m with encryptionPublicKey := v }] }

instance : Message Recital where
  format := {
    name := "Recital"
    blank := {}
    fields := [
      .scalar .enumeration 1 "signer_role" (·.signerRole) fun v m => { m with signerRole := v },
      .optional Message.format 2 "signer" (·.signer) fun v m => { m with signer := v }] }

instance : Message Contract where
  format := {
    name := "Contract"
    blank := {}
    fields := [
      .optional Message.format 1 "definition" (·.definition)
        fun v m => { m with definition := v },
      .optional Message.format 2 "spec" (·.spec) fun v m => { m with spec := v },
      .repeated Message.format 3 "inputs" (·.inputs) fun v m => { m with inputs := v },
      .repeated Message.format 4 "considerations" (·.considerations)
        fun v m => { m with considerations := v },
      .repeated Message.format 5 "recitals" (·.recitals) fun v m => { m with recitals := v }] }

instance : Message ContractSignature where
  format := {
    name := "ContractSignature"
    blank := {}
    fields := [
      .scalar .blob 1 "signer" (·.signer) fun v m => { m with signer := v },
      .scalar .blob 2 "signature" (·.signature) fun v m => { m with signature := v }] }

instance : Message EnvelopeRef where
  format := {
    name := "EnvelopeRef"
    blank := {}
    fields := [
      .scalar .text 1 "scope_uuid" (·.scopeUuid) fun v m => { m with scopeUuid := v },
      .scalar .text 2 "session_uuid" (·.sessionUuid) fun v m => { m with sessionUuid := v }] }

instance : Message Envelope where
  format := {
    name := "Envelope"
    blank := {}
    fields := [
      .optional Message.format 1 "envelope_ref" (·.envelopeRef)
        fun v m => { m with envelopeRef := v },
      .optional Message.format 2 "contract" (·.contract) fun v m => { m with contract := v },
      .repeated Message.format 3 "signatures" (·.signatures)
        fun v m => { m with signatures := v },
      .scalar .text 4 "execution_uuid" (·.executionUuid) fun v m => { m with executionUuid := v },
      .scalar .text 5 "scope_spec_uuid" (·.scopeSpecUuid)
        fun v m => { m with scopeSpecUuid := v },
      .scalar .flag 6 "new_scope" (·.newScope) fun v m => { m with newScope := v },
      .scalar .flag 7 "new_session" (·.newSession) fun v m => { m with newSession := v }] }

instance : Message ScopeRecord where
  format := {
    name := "ScopeRecord"
    blank := {}
    fields := [
      .scalar .text 1 "name" (·.name) fun v m => { m with name := v },
      .repeated Message.format 2 "outputs" (·.outputs) fun v m => { m with outputs := v }] }

instance : Message ScopeState where
  format := {
    name := "ScopeState"
    blank := {}
    fields := [
      .scalar .text 1 "scope_uuid" (·.scopeUuid) fun v m => { m with scopeUuid := v },
      .repeated Message.format 2 "records" (·.records) fun v m => { m with records := v }] }

end Notary.Contract
