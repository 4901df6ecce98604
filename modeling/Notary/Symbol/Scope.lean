/-
Symbols and the scopes that hold them.

* `Target`, `Resolved` — what a name resolves to, the code of a module or a message type, and where.
* `Scope` — modules by name, and message types; a module hides a message type of its name.
-/

import Notary.Schema.Annotation
import Notary.Symbol.Order

namespace Notary.Symbol

/-- What a name resolves to. -/
inductive Target where
  | module (code : Bytes)
  /-- A message type, with the pool in which its fields find their types. -/
  | message (pool : Schema.Pool) (type : Schema.MessageType)
deriving DecidableEq

namespace Target

def isModule : Target → Bool
  | .module _ => true
  | .message _ _ => false

def isMessage : Target → Bool
  | .module _ => false
  | .message _ _ => true

/-- The short form in which a target is shown. -/
def shown : Target → String
  | .module code => s!"Module({code.length} bytes)"
  | .message _ type => s!"Message({type.name})"

end Target

/-- A resolved name. -/
structure Resolved where
  name : String
  origin : Origin
  target : Target
deriving DecidableEq

/-- The full name of a type may be given behind a dot. -/
def withoutDot (name : String) : String :=
  match name.toList with
  | '.' :: rest => String.ofList rest
  | _ => name

/-- A message type of a pool as a target. -/
def ofPool? (pool : Schema.Pool) (name : String) : Option Target :=
  (pool.type? (withoutDot name)).map (.message pool)

/-- Symbols that do not change. -/
structure Scope where
  modules : List (String × Bytes) := []
  pool : Schema.Pool := {}
deriving DecidableEq

namespace Scope

/-- The module of a name, else the message type of the name. -/
def find? (s : Scope) (name : String) : Option Target :=
  match s.modules.lookup name with
  | some code => some (.module code)
  | none => ofPool? s.pool name

/-- Adds a module, instead of one that has the name. -/
def withModule (s : Scope) (name : String) (code : Bytes) : Scope :=
  { s with modules := (name, code) :: s.modules.filter fun m => m.1 != name }

/-- Adds an encoded set of schemas. -/
def withSchemas? (s : Scope) (set : Bytes) : Option Scope :=
  (s.pool.addSet? set).map fun pool => { s with pool }

/-- The scope of the types that everybody shares. -/
def shared : Scope := { pool := Schema.sharedPool }

end Scope

end Notary.Symbol
