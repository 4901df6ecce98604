/-
Records that an execution works with: named values of message types.

A name that occurs once among the inputs of a contract is a single message; a name that occurs more
often is a collection, in the order of the inputs.

* `LoadedRecord`, `RecordPool` — a record, and records by name.
* `loadExisting` — the records that the inputs of a contract point at.
-/

import Notary.Contract.Model
import Notary.Engine.Frames
import Notary.Engine.Workspace
import Notary.Schema.Reading

namespace Notary.Engine

open Notary.Contract

/-- The value of a record. -/
inductive RecordValue where
  | single (message : Schema.Message)
  | collection (messages : List Schema.Message)

namespace RecordValue

/-- The messages of a value. -/
def messages : RecordValue → List Schema.Message
  | .single m => [m]
  | .collection ms => ms

def size (v : RecordValue) : Nat := v.messages.length

/-- The form in which a value is handed to a guest: a message as it is, a collection in frames. -/
def bytes : RecordValue → Bytes
  | .single m => m.bytes
  | .collection ms => Frames.join (ms.map (·.bytes))

end RecordValue

/-- A record with the full name of its message type. -/
structure LoadedRecord where
  name : String
  type : String
  value : RecordValue

namespace LoadedRecord

def single (name : String) (message : Schema.Message) : LoadedRecord :=
  ⟨name, message.type, .single message⟩

/-- The record of messages that share a name. The first gives the type. -/
def ofMessages (name : String) : List Schema.Message → Except Fault LoadedRecord
  | [] => .error (.definition (.noValues name))
  | [m] => .ok (single name m)
  | m :: ms => .ok ⟨name, m.type, .collection (m :: ms)⟩

end LoadedRecord

/-- Records in the order of their names, each name once. -/
abbrev RecordPool := List LoadedRecord

namespace RecordPool

def get? (p : RecordPool) (name : String) : Option LoadedRecord := p.find? (·.name == name)

def contains (p : RecordPool) (name : String) : Bool := p.any (·.name == name)

/-- Puts a record behind all records of smaller names. -/
def place (r : LoadedRecord) : RecordPool → RecordPool
  | [] => [r]
  | q :: rest => if r.name < q.name then r :: q :: rest else q :: place r rest

/-- Adds a record, unless its name is taken. -/
def insert (p : RecordPool) (r : LoadedRecord) : Except Fault RecordPool :=
  if p.contains r.name then .error (.definition (.duplicateRecord r.name)) else .ok (p.place r)

end RecordPool

/-- The hash in a record's hash field. An empty field holds none; all else must be a hash. -/
def contentReference (name : String) (field : Bytes) : Except Fault (Option Hash) :=
  if field.isEmpty then .ok none
  else
    match FixedBytes.ofBytes? 32 field with
    | some hash => .ok (some hash)
    | none => .error (.definition (.malformedHash name field.length))

/-- A record that is stored: its name, the type to read it as, and its hash. -/
structure Located where
  name : String
  classname : String
  hash : Hash
deriving DecidableEq

/-- A name that must be that of a message type, with the pool of the type. -/
def messageType {σ : Type} (s : Context.Surroundings) (name : String) :
    Action σ (Schema.Pool × Schema.MessageType) := do
  match ← Action.resolve s name with
  | .error (.notFound name) => Action.refuse (.unknownRecordType name)
  | .error e => throw (.context e)
  | .ok r =>
    match r.target with
    | .message pool type => return (pool, type)
    | .module _ => Action.refuse (.notAMessageType name)

section Store

variable {σ : Type} [Store.ObjectStore σ]

/-- Fetches a record and reads it as its type. -/
def fetchRecord (s : Context.Surroundings) (reader : PublicKey) (l : Located) :
    Action σ Schema.Message := do
  let bytes ← Action.fetch (Store.ObjectStore.getRecord l.classname l.hash reader)
  let (pool, type) ← messageType s l.classname
  match pool.decode type bytes with
  | .ok m => return m
  | .error c => Action.refuse (.invalidRecord l.hash l.classname (.ofCause c))

/-- Fetches records on the worker pool; each is given back with its name. -/
def fetchAll (s : Context.Surroundings) (reader : PublicKey) (ls : List Located) :
    Action σ (List (String × Schema.Message)) := do
  let messages ← Action.all (ls.map (fetchRecord s reader))
  return (ls.map (·.name)).zip messages

end Store

/-- Where an input is stored; nowhere when it points at no content. -/
def locateInput (r : Record) : Except Fault (Option Located) :=
  (contentReference r.name ((r.dataLocation.map (·.hash)).getD [])).map fun hash =>
    hash.map fun h => ⟨r.name, r.classname, h⟩

/-- Where the inputs with content are stored. -/
def locateInputs (inputs : List Record) : Except Fault (List Located) :=
  (inputs.mapM locateInput).map fun ls => ls.filterMap id

/-- The records of named messages: those of one name together, names in ascending order. -/
def groupByName (named : List (String × Schema.Message)) : Except Fault RecordPool :=
  let names := sorted (named.map (·.1)).eraseDups
  names.foldlM (fun (p : RecordPool) name => do
    let messages := (named.filter fun m => m.1 == name).map (·.2)
    p.insert (← LoadedRecord.ofMessages name messages)) []

/-- Fetches every input that points at content. All hashes are checked before anything is
fetched. -/
def loadExisting {σ : Type} [Store.ObjectStore σ] (s : Context.Surroundings) (reader : PublicKey)
    (inputs : List Record) : Action σ RecordPool := do
  let located ← Action.ofExcept (locateInputs inputs)
  let named ← fetchAll s reader located
  Action.ofExcept (groupByName named)

end Notary.Engine
