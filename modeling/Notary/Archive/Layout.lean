/-
What the entries of an archive are for.

An entry `a/b/C.wasm` is the module `a.b.C`; entries ending in `.desc` hold message schemas; entries
ending in `.jar` or `.zip` are archives of their own. All others are ignored, but every entry must
be one that can be opened.

* `moduleSymbol?` — the symbol of a module entry.
* `scan` — the modules, schemas and nested archives of an archive, each in directory order.
-/

import Notary.Archive.Directory

namespace Notary.Archive

/-- The text without an ending, when it has it. -/
def stripEnding? (ending cs : List Char) : Option (List Char) :=
  if ending.isSuffixOf cs then some (cs.take (cs.length - ending.length)) else none

/-- The text ends so. -/
def endsWith (ending name : String) : Bool := ending.toList.isSuffixOf name.toList

/-- The symbol of a module entry: its path with dots for slashes. Slashes in front do not count, and
a file without a name is no module. -/
def moduleSymbol? (entry : String) : Option String :=
  match stripEnding? ".wasm".toList entry.toList with
  | none => none
  | some stem =>
    match stem.getLast? with
    | none => none
    | some '/' => none
    | some _ =>
      some (String.ofList ((stem.dropWhile (· == '/')).map fun c => if c == '/' then '.' else c))

/-- What an entry is for. -/
inductive Role where
  | module (symbol : String)
  | schema
  | nested
  | ignored
deriving DecidableEq, Repr

def Role.ofName (name : String) : Role :=
  match moduleSymbol? name with
  | some symbol => .module symbol
  | none =>
    if endsWith ".desc" name then .schema
    else if endsWith ".jar" name || endsWith ".zip" name then .nested
    else .ignored

/-- What the entries of an archive are. -/
structure Contents where
  /-- All entries. -/
  entries : List Entry
  /-- Symbols with the names of their entries, whose content is read when it is asked for. -/
  modules : List (String × String) := []
  /-- Names of entries with encoded descriptor sets. -/
  schemas : List (String × Bytes) := []
  /-- Archives inside this one. -/
  nested : List Bytes := []

/-- Adds what one entry holds. -/
def Contents.add (readNested : Bool) (c : Contents) (e : Entry) : Option Contents :=
  if !e.isOpenable then none
  else if isDirectory e.name then some c
  else
    match Role.ofName e.name with
    | .module symbol => some { c with modules := c.modules ++ [(symbol, e.name)] }
    | .schema => e.content?.map fun bs => { c with schemas := c.schemas ++ [(e.name, bs)] }
    | .nested =>
      if readNested then e.content?.map fun bs => { c with nested := c.nested ++ [bs] }
      else some c
    | .ignored => some c

/-- What an archive holds. -/
def scan (readNested : Bool) (bs : Bytes) : Option Contents :=
  match ofBytes? bs with
  | none => none
  | some es => es.foldlM (Contents.add readNested) { entries := es }

/-- The content of the entry of a name. -/
def read? (es : List Entry) (name : String) : Option Bytes :=
  (es.find? (·.name == name)).bind Entry.content?

end Notary.Archive
