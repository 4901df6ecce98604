/-
Executing the pending considerations of a contract.

The specification says which module the contract runs; the archives that define it are registered
with the context of the contract. When the contract fits its specification, the functions that can
be executed are called one after the other. A call that fails marks its consideration and ends the
execution: the contract stays as it stands, and nothing is stored. Otherwise all outputs are stored
for the parties of the contract.

* `Plan` — a contract with its specification, and the key of its context.
* `runGuest` — the outputs of the functions, or the first that failed.
* `execute` — the contract with its results.
-/

import Notary.Context.Cache
import Notary.Contract.Format
import Notary.Engine.Binding
import Notary.Signing.Ed25519

namespace Notary.Engine

open Notary.Contract
open Notary.Metadata

/-- The keys of a caller. The first names the caller to the store, the second signs. -/
structure Caller where
  encryption : SigningKey
  signing : SigningKey

/-- What a contract is executed against. -/
structure Plan where
  contract : Contract
  specification : ContractSpecification
  /-- The definition of the specification. -/
  definition : DefinitionSpec
  /-- The definition of the first function's output. -/
  output : Option DefinitionSpec

namespace Plan

/-- The key of the context. -/
def key (p : Plan) : Context.CacheKey :=
  .of p.definition.hashBytes ((p.contract.definition.map (·.hashBytes)).getD [])
    ((p.output.map (·.hashBytes)).getD [])

/-- The module that the contract itself names, when it is another than the specification's. -/
def ownModule? (p : Plan) : Option String :=
  (p.contract.definition.map (·.classname)).filter fun n =>
    n != "" && n != p.definition.classname

/-- The plan of a contract and its specification, which must define a module and a function. -/
def of (c : Contract) (s : ContractSpecification) : Except Fault Plan :=
  match s.definition with
  | none => .error (.definition .noDefinition)
  | some d =>
    match s.functionSpecs with
    | [] => .error (.definition .noFunctions)
    | f :: _ => .ok ⟨c, s, d, f.outputDefinition?⟩

end Plan

/-- Gives the consideration at an index a result. -/
def setResult (c : Contract) (index : Nat) (r : ExecutionResult) : Contract :=
  { c with considerations := c.considerations.modify index fun k => { k with result := some r } }

/-- Gives considerations results, one after the other. -/
def setResults (c : Contract) (rs : List (Nat × ExecutionResult)) : Contract :=
  rs.foldl (fun c (i, r) => setResult c i r) c

/-- An output of a function that has been read as its type. -/
structure Output where
  index : Nat
  name : String
  message : Schema.Message

/-- The output as it is written, with its maps in order. -/
def Output.ordered (o : Output) (orders : MapOrders) : Output :=
  { o with message := o.message.ordered (orders (.output o.index)) [] }

/-- What came of calling functions. -/
inductive GuestRun where
  /-- The function of a consideration failed. -/
  | failed (index : Nat) (message : String)
  | finished (outputs : List Output)

/-- A name that must be that of a module. -/
def resolveModule {σ : Type} (s : Context.Surroundings) (name : String) :
    Action σ (Except Context.Fault Bytes) := do
  match ← Action.resolve s name with
  | .error e => return .error e
  | .ok r =>
    match r.target with
    | .module code => return .ok code
    | .message _ _ => Action.refuse (.notAModule name)

/-- Reads what a function gave as the type that it declares. Nothing at all is no output; bytes that
are no such message are a failure of the function, which is told. -/
def readOutput {σ : Type} (s : Context.Surroundings) (m : ContractMetadata) (p : Prepared)
    (output : Bytes) : Action σ (Except String Schema.Message) := do
  if output.isEmpty then Action.refuse (.noResult p.outputName m.name)
  else
    let (pool, type) ← messageType s p.function.returnType
    match pool.decode type output with
    | .ok message => return .ok message
    | .error c =>
      return .error ("Unable to decode result of " ++ p.outputName ++ " as "
        ++ p.function.returnType ++ ": " ++ (Wire.Fault.ofCause c).message)

/-- Calls functions one after the other on one guest, up to the first that fails. -/
def runGuest {σ γ : Type} (s : Context.Surroundings) (r : Runtime γ) (m : ContractMetadata) :
    List Prepared → γ → Action σ GuestRun
  | [], _ => return .finished []
  | p :: rest, g =>
    match p.invoke r g with
    | (.error e, _) => return .failed p.index (p.failure e)
    | (.ok bytes, g) => do
      match ← readOutput s m p bytes with
      | .error detail => return .failed p.index detail
      | .ok message =>
        match ← runGuest s r m rest g with
        | .finished outputs => return .finished (⟨p.index, p.outputName, message⟩ :: outputs)
        | failed => return failed

/-- The readers of the outputs: the parties with a well-formed key, and those that are added. -/
def audience (c : Contract) (extra : List PublicKey) : Store.Readers :=
  .ofList (c.recitals.filterMap (·.encryptionKey?) ++ extra)

section Store

variable {σ : Type} [Store.ObjectStore σ]

/-- Fetches the specification that a contract names. -/
def loadSpecification (c : Contract) (reader : PublicKey) : Action σ ContractSpecification := do
  match c.spec with
  | none => Action.refuse .noSpecification
  | some record =>
    match record.contentHash? with
    | none => Action.refuse (.noSpecificationHash record.name)
    | some hash =>
      let bytes ← Action.fetch (Store.ObjectStore.getRecord record.classname hash reader)
      match Wire.decode bytes with
      | .ok spec => return spec
      | .error fault => Action.refuse (.undecodableSpecification hash fault)

/-- Registers the archive of a definition and resolves the module in it. -/
def loadModule (s : Context.Surroundings) (d : DefinitionSpec) (reader : PublicKey) :
    Action σ Bytes := do
  let missing : Fault := .notBootstrapped d.classname reader d.hashBytes
  match d.contentHash? with
  | none => pure ()
  | some hash =>
    unless ← Action.inspect (·.context.isRegistered hash) do
      match ← Action.read (Store.ObjectStore.getArchive hash reader) with
      | .ok bytes => Action.register s hash bytes
      | .error (.notFound _) => throw missing
      | .error e => throw (.store e)
  match ← resolveModule s d.classname with
  | .ok code => return code
  | .error (.notFound _) => throw missing
  | .error e => throw (.context e)

/-- Fetches and registers an archive. One that is not there is registered without content, so it is
not fetched again. -/
def preloadOne (s : Context.Surroundings) (reader : PublicKey) (hash : Hash) : Action σ Unit := do
  match ← Action.read (Store.ObjectStore.getArchive hash reader) with
  | .ok bytes => Action.register s hash bytes
  | .error (.notFound _) => Action.register s hash []
  | .error e => throw (.store e)

/-- Removes a hash that stands right behind itself. -/
def dropRepeats : List Hash → List Hash
  | a :: b :: rest => if a = b then dropRepeats (b :: rest) else a :: dropRepeats (b :: rest)
  | hs => hs

/-- Registers the archives of definitions on the worker pool. -/
def preload (s : Context.Surroundings) (ds : List DefinitionSpec) (reader : PublicKey) :
    Action σ Unit := do
  let hashes ← Action.inspect fun w =>
    (ds.filterMap (·.contentHash?)).filter fun h => !w.context.isRegistered h
  let _ ← Action.all ((dropRepeats hashes).map (preloadOne s reader))

/-- Stores an output, and makes the record of it. -/
def storeOutput (caller : Caller) (readers : Store.Readers) (scope : Option ScopeState)
    (o : Output) : Action σ (Nat × ExecutionResult) := do
  let hash ← Action.ofStore (Store.ObjectStore.putRecord o.message.type o.message.bytes
    caller.signing.publicKey caller.encryption.publicKey readers)
  let ancestor := (scope.bind (·.priorOutputHash? o.name)).getD []
  let record := ProposedRecord.new o.name o.message.type hash
  return (o.index, .pass { record with ancestorHash := ancestor })

/-- Sets the results of the functions that were not executed, stores the outputs of the others on
the worker pool, and sets their results. -/
def recordOutputs (caller : Caller) (extra : List PublicKey) (scope : Option ScopeState)
    (c : Contract) (skipped : List Prepared) (outputs : List Output) : Action σ Contract := do
  let c := setResults c (skipped.map fun p => (p.index, .skip p.outputName p.function.returnType))
  let passed ← Action.all (outputs.map (storeOutput caller (audience c extra) scope))
  return setResults c passed

/-- The code of the contract's module. The archives that define it are registered first. -/
def prepareModule (s : Context.Surroundings) (p : Plan) (reader : PublicKey) : Action σ Bytes := do
  let code ← loadModule s p.definition reader
  preload s (p.definition :: p.output.toList) reader
  match validate p.contract p.specification with
  | .error e => throw (.validation e)
  | .ok () =>
    match p.ownModule? with
    | none => return code
    | some name =>
      match ← resolveModule s name with
      | .ok code => return code
      | .error e => throw (.context e)

/-- Executes a contract; the answer is the contract with its results. -/
def execute {γ : Type} (s : Context.Surroundings) (r : Runtime γ) (caller : Caller)
    (scope : Option ScopeState) (extra : List PublicKey) (p : Plan) : Action σ Contract := do
  let reader := caller.encryption.publicKey
  let code ← prepareModule s p reader
  match r.sandbox.loadContract code with
  | .error e => Action.refuse (.unloadableContract p.definition.classname e)
  | .ok (g, m) =>
    let existing ← loadExisting s reader p.contract.inputs
    let parts ← partition s reader m existing p.contract.considerations
    match ← runGuest s r m parts.executable g with
    | .failed index message => return setResult p.contract index (.fail message)
    | .finished outputs =>
      recordOutputs caller extra scope p.contract parts.skipped (outputs.map (·.ordered r.orders))

end Store

end Notary.Engine
