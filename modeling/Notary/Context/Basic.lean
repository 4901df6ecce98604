/-
Contexts: the symbols of one contract, kept apart from those of all others.

Archives are registered with a context. An archive, and each archive inside it, becomes a root; the
roots are searched in the order in which they came, so an earlier module hides a later one. An
archive is registered as a whole or not at all. Names are resolved through the scopes around the
context, and a name that was resolved once keeps its answer.

* `Context.register` — registers an archive by its hash.
* `Context.find` — a name among the context's own archives.
* `Context.resolve` — a name in all scopes, in the order for this name.
-/

import Notary.Archive.Layout
import Notary.Context.Fault
import Notary.Digest.Content
import Notary.Symbol.Scope

namespace Notary

open Notary.Symbol

/-- How contexts read archives. -/
structure Context.Options where
  /-- Archives inside an archive are registered too. -/
  readNestedArchives : Bool := true
  /-- The directory for copies of archives; none stands for the system's own. -/
  scratchDir : Option String := none
deriving DecidableEq, Repr

/-- What contexts have around them. -/
structure Context.Surroundings where
  host : Scope := {}
  global : Scope := .shared
  registries : Registries := {}
  options : Context.Options := {}
  /-- The directories in which copies can be written. -/
  isWritable : String → Bool := fun _ => true

/-- The entry of a module, and the place of its root. -/
structure Context.Place where
  root : Nat
  entry : String
deriving DecidableEq, Repr

/-- What has been registered. -/
structure Context.Registered where
  hashes : List Hash := []
  /-- The entries of each archive, in the order of search. -/
  roots : List (List Archive.Entry) := []
  modules : List (String × Context.Place) := []
  pool : Schema.Pool := {}
deriving DecidableEq

/-- A context: its archives, and the names that were resolved. -/
structure Context where
  registered : Context.Registered := {}
  resolved : List Resolved := []
deriving DecidableEq

namespace Context

/-- The copy of an archive can be written. -/
def Surroundings.canWrite (s : Surroundings) : Bool := s.options.scratchDir.all s.isWritable

namespace Registered

/-- Adds a module, unless its symbol is there. -/
def addModule (r : Registered) (symbol : String) (place : Place) : Registered :=
  if (r.modules.lookup symbol).isSome then r
  else { r with modules := r.modules ++ [(symbol, place)] }

/-- Adds the schemas of an entry. -/
def addSchema (r : Registered) (entry : String × Bytes) : Except Fault Registered :=
  match r.pool.addSet? entry.2 with
  | none => .error (.schema entry.1)
  | some pool => .ok { r with pool }

/-- Adds an archive as one root, and gives back the archives inside it. -/
def addRoot (r : Registered) (s : Surroundings) (readNested : Bool) (hash : Hash) (bytes : Bytes) :
    Except Fault (Registered × List Bytes) :=
  if !s.canWrite then .error .scratch
  else
    match Archive.scan readNested bytes with
    | none => .error (.archive hash)
    | some c =>
      match c.schemas.foldlM addSchema r with
      | .error e => .error e
      | .ok r =>
        let root := r.roots.length
        let r := c.modules.foldl (fun r (symbol, entry) => r.addModule symbol ⟨root, entry⟩) r
        .ok ({ r with roots := r.roots ++ [c.entries] }, c.nested)

/-- Adds an archive that lies in another. Archives inside it are not looked for. -/
def addNested (s : Surroundings) (r : Registered) (bytes : Bytes) : Except Fault Registered :=
  match r.addRoot s false (contentHash bytes) bytes with
  | .error e => .error e
  | .ok (r, _) => .ok r

/-- Adds an archive with all archives inside it. -/
def add (r : Registered) (s : Surroundings) (hash : Hash) (bytes : Bytes) :
    Except Fault Registered :=
  if r.hashes.contains hash then .ok r
  else if bytes.isEmpty then .ok { r with hashes := r.hashes ++ [hash] }
  else
    match r.addRoot s s.options.readNestedArchives hash bytes with
    | .error e => .error e
    | .ok (r, nested) =>
      match nested.foldlM (addNested s) r with
      | .error e => .error e
      | .ok r => .ok { r with hashes := r.hashes ++ [hash] }

/-- The module of a name, read from its archive; else the message type of the name. -/
def find (r : Registered) (name : String) : Except Fault (Option Target) :=
  match r.modules.lookup name with
  | none => .ok (ofPool? r.pool name)
  | some place =>
    match r.roots[place.root]? with
    | none => .ok none
    | some entries =>
      match Archive.read? entries place.entry with
      | none => .error .scratch
      | some code => .ok (some (.module code))

end Registered

/-- A context without archives. -/
def empty : Context := {}

/-- Registers an archive by its hash. What is registered already, or is empty, adds no symbols. When
anything is wrong the context stays as it was. -/
def register (c : Context) (s : Surroundings) (hash : Hash) (bytes : Bytes) :
    Except Fault Unit × Context :=
  match c.registered.add s hash bytes with
  | .error e => (.error e, c)
  | .ok r => (.ok (), { c with registered := r })

def isRegistered (c : Context) (hash : Hash) : Bool := c.registered.hashes.contains hash

/-- How many archives are registered. -/
def archiveCount (c : Context) : Nat := c.registered.hashes.length

/-- How many copies of archives there are. -/
def rootCount (c : Context) : Nat := c.registered.roots.length

/-- A name among the context's own archives. -/
def find (c : Context) (name : String) : Except Fault (Option Target) := c.registered.find name

/-- A name in one of the three scopes. -/
def findIn (c : Context) (s : Surroundings) (name : String) :
    Origin → Except Fault (Option Target)
  | .isolated => c.find name
  | .parent => .ok (s.host.find? name)
  | .global => .ok (s.global.find? name)

/-- The scopes that were asked for a name, and what came of it. -/
structure Search where
  asked : List Origin
  result : Except Fault Resolved

/-- Asks scopes one after the other, up to the first that has the name. -/
def search (c : Context) (s : Surroundings) (name : String) : List Origin → Search
  | [] => ⟨[], .error (.notFound name)⟩
  | origin :: rest =>
    match c.findIn s name origin with
    | .error e => ⟨[origin], .error e⟩
    | .ok (some target) => ⟨[origin], .ok ⟨name, origin, target⟩⟩
    | .ok none =>
      let later := c.search s name rest
      ⟨origin :: later.asked, later.result⟩

/-- A name that was resolved before. -/
def recalled? (c : Context) (name : String) : Option Resolved :=
  c.resolved.find? (·.name == name)

/-- Resolves a name: as before when it was resolved once, else through the scopes in their order. A
hit is kept, a miss is not. -/
def resolve (c : Context) (s : Surroundings) (name : String) : Search × Context :=
  match c.recalled? name with
  | some r => (⟨[], .ok r⟩, c)
  | none =>
    let found := c.search s name (order s.registries name)
    match found.result with
    | .ok r => (found, { c with resolved := c.resolved ++ [r] })
    | .error _ => (found, c)

end Context

end Notary
