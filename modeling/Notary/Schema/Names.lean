/-
Full names: what declarations take, and how a short name finds one.

A declaration inside another takes the name of the outer one, a dot and its own name. The names of
an enumeration stand beside it, not inside it.

* `FileDecl.definitions` — all full names that a file takes.
* `scopes` — where a short name is looked for, from the inside out.
-/

import Notary.Schema.Declaration

namespace Notary.Schema

/-- What a full name stands for. -/
inductive Meaning where
  | package
  | message
  | enumeration
  | service
  /-- A field that is added to a type from outside. -/
  | extension
  /-- A field, a choice, a function of a service, or a name of an enumeration. -/
  | member
deriving DecidableEq, Repr

/-- Names can be looked for inside what has such a name. -/
def Meaning.isHolder : Meaning → Bool
  | .package | .message | .enumeration | .service => true
  | .extension | .member => false

/-- A full name with what it stands for, and the file that says so. -/
structure Definition where
  name : String
  meaning : Meaning
  file : String
deriving DecidableEq, Repr

/-- A name inside a scope. -/
def qualify (scope name : String) : String := if scope = "" then name else scope ++ "." ++ name

/-- A scope and all scopes around it, the innermost first. The empty scope is the last. -/
def enclosing : List String → List String
  | [] => [""]
  | p :: rest => ".".intercalate (rest.reverse ++ [p]) :: enclosing rest

/-- The parts of a dotted name. -/
def parts (name : String) : List String :=
  (name.toList.splitOn '.').map String.ofList

/-- The scopes in which a name of a scope is looked for. -/
def scopes (scope : String) : List String :=
  if scope = "" then [""] else enclosing (parts scope).reverse

/-- A message type declaration with its full name. -/
structure Declared where
  name : String
  file : FileDecl
  decl : MessageDecl

mutual

/-- The message types that a declaration holds, itself among them. -/
def declaredIn (file : FileDecl) (scope : String) : MessageDecl → List Declared
  | d@(.mk name _ nested _ _ _ _ _ _) =>
    ⟨qualify scope name, file, d⟩ :: allDeclaredIn file (qualify scope name) nested

/-- The message types that declarations hold. -/
def allDeclaredIn (file : FileDecl) (scope : String) : List MessageDecl → List Declared
  | [] => []
  | m :: rest => declaredIn file scope m ++ allDeclaredIn file scope rest

end

mutual

/-- The fields for other types that a declaration holds, each with the scope that it stands in.
Those of the types inside it come first. -/
def extensionsIn (scope : String) : MessageDecl → List (String × FieldDecl)
  | .mk name _ nested _ _ extensions _ _ _ =>
    allExtensionsIn (qualify scope name) nested ++ extensions.map (qualify scope name, ·)

/-- The fields for other types that declarations hold. -/
def allExtensionsIn (scope : String) : List MessageDecl → List (String × FieldDecl)
  | [] => []
  | m :: rest => extensionsIn scope m ++ allExtensionsIn scope rest

end

namespace FileDecl

/-- All message types of a file. -/
def declared (f : FileDecl) : List Declared := allDeclaredIn f f.package f.messages

/-- All enumerations of a file, each with the scope that it stands in. -/
def declaredEnums (f : FileDecl) : List (String × EnumDecl) :=
  f.enums.map (f.package, ·) ++ f.declared.flatMap fun d => d.decl.enums.map (d.name, ·)

/-- All fields for types of other files, each with the scope that it stands in. -/
def declaredExtensions (f : FileDecl) : List (String × FieldDecl) :=
  allExtensionsIn f.package f.messages ++ f.extensions.map (f.package, ·)

/-- The packages of a file: its own and those around it. A dot in front stands behind the package
without a name. -/
def packages (f : FileDecl) : List String :=
  let own := parts f.package
  if f.package = "" then []
  else (List.range own.length).map fun n => ".".intercalate (own.take (n + 1))

/-- All names that a file takes. -/
def definitions (f : FileDecl) : List Definition :=
  let define (meaning : Meaning) (name : String) : Definition := ⟨name, meaning, f.name⟩
  let members (scope : String) (names : List String) : List Definition :=
    names.map fun n => define .member (qualify scope n)
  let enums := f.declaredEnums.flatMap fun (scope, e) =>
    define .enumeration (qualify scope e.name) :: members scope (e.values.map (·.name))
  let messages := f.declared.flatMap fun d =>
    define .message d.name
      :: members d.name (d.decl.oneofs.map (·.name) ++ d.decl.fields.map (·.name))
  let services := f.services.flatMap fun s =>
    define .service (qualify f.package s.name)
      :: members (qualify f.package s.name) (s.methods.map (·.name))
  let extensions := f.declaredExtensions.map fun (scope, e) =>
    define .extension (qualify scope e.name)
  f.packages.map (define .package) ++ messages ++ enums ++ services ++ extensions

end FileDecl

end Notary.Schema
