/-
Binding considerations to functions.

A pending consideration names a function of the contract module. Each parameter of the function asks
for a record of its name and exact type, either among the existing records or among those that the
consideration itself proposes. A function can be executed when all of its parameters have records
and the record that would make it superfluous does not exist.

* `partition` — the functions of the pending considerations that can be executed, and the others.
* `Runtime` — what an execution is run by: an executor of guests, and the orders of maps.
* `Prepared.invoke` — calls a function in the guest.
-/

import Notary.Engine.Record
import Notary.Guest.Buffer
import Notary.Schema.MapOrder

namespace Notary.Engine

open Notary.Contract
open Notary.Metadata

/-- The record that a parameter asks for. -/
def matchParameter (existing proposed : RecordPool) (p : Parameter) : Option LoadedRecord :=
  let pool := match p.recordType with
    | .existing => existing
    | .proposed => proposed
  (pool.get? p.name).filter fun r => r.type == p.typeName

/-- The records that the parameters of a function ask for, in their order. A parameter without a
record is left out. -/
def matchParameters (f : FunctionDescriptor) (existing proposed : RecordPool) :
    List LoadedRecord :=
  f.parameters.filterMap (matchParameter existing proposed)

/-- The function is superfluous, since a record exists. -/
def recordExists (f : FunctionDescriptor) (existing : RecordPool) : Bool :=
  f.skipIfRecordExists.any existing.contains

/-- All parameters have records, and the function is not superfluous. -/
def canExecute (f : FunctionDescriptor) (matched : Nat) (existing : RecordPool) : Bool :=
  matched == f.parameters.length && !recordExists f existing

/-- A message that an execution writes, for a consideration: for its function, with the position of
the argument and that among the messages of the argument, or as what the function gave. -/
inductive Written where
  | argument (index position member : Nat)
  | output (index : Nat)
deriving DecidableEq, Repr

/-- An order of the entries of maps for each message that is written. -/
abbrev MapOrders := Written → Schema.MapOrder

/-- What the functions of a contract are run by. -/
structure Runtime (γ : Type) where
  sandbox : Guest.Executor γ
  orders : MapOrders

/-- A value with the maps of each of its messages in order. -/
def RecordValue.ordered (orders : Nat → Schema.MapOrder) : RecordValue → RecordValue
  | .single m => .single (m.ordered (orders 0) [])
  | .collection ms => .collection (ms.mapIdx fun j m => m.ordered (orders j) [])

/-- A function with its arguments, for the consideration at an index. -/
structure Prepared where
  index : Nat
  function : FunctionDescriptor
  arguments : List LoadedRecord

namespace Prepared

/-- The name under which the output is recorded. -/
def outputName (p : Prepared) : String := p.function.name

/-- What the guest is handed: each argument with its maps in order. -/
def argumentBytes (p : Prepared) (orders : MapOrders) : List Bytes :=
  p.arguments.mapIdx fun i r => (r.value.ordered fun j => orders (.argument p.index i j)).bytes

/-- Calls the function with its arguments. -/
def invoke {γ : Type} (p : Prepared) (r : Runtime γ) (g : γ) : Except Guest.Fault Bytes × γ :=
  r.sandbox.call g p.function.exportName (p.argumentBytes r.orders)

/-- How the failure of a call is told. -/
def failure (p : Prepared) (fault : Guest.Fault) : String :=
  s!"Error executing {p.function.exportName}: {fault.message}"

end Prepared

/-- The functions of pending considerations. -/
structure Partition where
  executable : List Prepared := []
  skipped : List Prepared := []

/-- Where the proposed records are stored that a function wants. No name may be proposed twice, and
hashes that nobody wants are checked too. -/
def locateProposed (wanted : List String) : List String → List ProposedRecord →
    Except Fault (List Located)
  | _, [] => .ok []
  | seen, r :: rest =>
    if seen.contains r.name then .error (.definition (.duplicateProposal r.name))
    else
      match contentReference r.name r.hash with
      | .error e => .error e
      | .ok hash =>
        match locateProposed wanted (r.name :: seen) rest with
        | .error e => .error e
        | .ok later =>
          match hash with
          | some h =>
            if wanted.contains r.name then .ok (⟨r.name, r.classname, h⟩ :: later) else .ok later
          | none => .ok later

/-- The names that the parameters of a function want proposed. -/
def wantedProposals (f : FunctionDescriptor) : List String :=
  (f.parameters.filter fun p => p.recordType == .proposed).map (·.name)

section Store

variable {σ : Type} [Store.ObjectStore σ]

/-- Fetches the proposed records that a function wants. -/
def loadProposed (s : Context.Surroundings) (reader : PublicKey) (c : Consideration)
    (f : FunctionDescriptor) : Action σ RecordPool := do
  let located ← Action.ofExcept (locateProposed (wantedProposals f) [] c.inputs)
  let named ← fetchAll s reader located
  Action.ofExcept
    (named.foldlM (fun (p : RecordPool) (name, m) => p.insert (.single name m)) [])

/-- Prepares the function of the consideration at an index, and tells whether it can be executed. -/
def prepare (s : Context.Surroundings) (reader : PublicKey) (m : ContractMetadata)
    (existing : RecordPool) (c : Consideration) (index : Nat) : Action σ (Prepared × Bool) := do
  match m.function? c.considerationName with
  | none => Action.refuse (.unknownFunction c.considerationName m.name)
  | some f =>
    let proposed ← loadProposed s reader c f
    let arguments := matchParameters f existing proposed
    return (⟨index, f, arguments⟩, canExecute f arguments.length existing)

/-- Splits the considerations from an index on. Those with a result are left alone. -/
def partitionFrom (s : Context.Surroundings) (reader : PublicKey) (m : ContractMetadata)
    (existing : RecordPool) : Nat → List Consideration → Action σ Partition
  | _, [] => return {}
  | index, c :: rest =>
    if c.isPending then do
      let (p, runs) ← prepare s reader m existing c index
      let later ← partitionFrom s reader m existing (index + 1) rest
      if runs then return { later with executable := p :: later.executable }
      else return { later with skipped := p :: later.skipped }
    else partitionFrom s reader m existing (index + 1) rest

/-- Splits the pending considerations by whether their functions can be executed. -/
def partition (s : Context.Surroundings) (reader : PublicKey) (m : ContractMetadata)
    (existing : RecordPool) (cs : List Consideration) : Action σ Partition :=
  partitionFrom s reader m existing 0 cs

end Store

end Notary.Engine
