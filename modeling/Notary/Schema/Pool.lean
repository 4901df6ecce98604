/-
Pools of message types.

Files are added in sets. A file of a name that the pool has is passed over; all others must fit
together: each is valid by itself, no full name is taken twice, every dependency is present, and
every type that is named is declared in a file that the naming file sees. A file sees itself, its
dependencies, and what these give on; what is given on a second time counts as a dependency.

* `Pool.link?` — the pool with the types of a number of files; none when they do not fit. Options do
  not count yet.
* `Pool.type?` — a message type by its full name.
-/

import Notary.Schema.Default
import Notary.Schema.Valid

namespace Notary.Schema

/-- A file of a pool, with the files that are seen through it. -/
structure PoolFile where
  name : String
  reexports : List String
deriving DecidableEq, Repr

/-- An enumeration with its full name. -/
structure EnumType where
  name : String
  values : List (String × Int32)
deriving DecidableEq, Repr

/-- The types that have been added, with all names that are taken. -/
structure Pool where
  files : List PoolFile := []
  definitions : List Definition := []
  enums : List EnumType := []
  types : List MessageType := []
  /-- Fields from outside, each with the full name of the type it is added to. -/
  extensions : List (String × Field) := []
deriving DecidableEq, Repr

/-- What the type of a field is found to be. -/
inductive FieldType where
  | scalar (k : ScalarKind)
  | enumeration (e : EnumType)
  | message (name : String)
  | group (name : String)

namespace FieldType

/-- The kind of the values. -/
def kind : FieldType → Kind
  | .scalar k => .scalar k
  | .enumeration _ => .scalar .enumeration
  | .message name => .message name
  | .group name => .group name

/-- The names of the numbers of an enumeration. -/
def numberNames : FieldType → List (String × Int32)
  | .enumeration e => e.values
  | _ => []

/-- The default value, given by a text or not. None when the text does not stand for a value; an
enumeration starts with its first name. -/
def default? : FieldType → Option String → Option (Option Datum)
  | .scalar k, some s => (k.ofText? [] s).map some
  | .scalar _, none => some none
  | .enumeration e, some s => (ScalarKind.enumeration.ofText? e.values s).map some
  | .enumeration e, none =>
    some (e.values.head?.map fun (_, n) => ScalarKind.enumeration.ofInt n.toInt)
  | _, some _ => none
  | _, none => some none

end FieldType

/-- The scalar kinds by the numbers of the format. -/
def scalarKind? (type : Int32) : Option ScalarKind :=
  [(1, .double), (2, .float), (3, .int64), (4, .uint64), (5, .int32), (6, .fixed64),
   (7, .fixed32), (8, .bool), (9, .string), (12, .bytes), (13, .uint32), (15, .sfixed32),
   (16, .sfixed64), (17, .sint32), (18, ScalarKind.sint64)].lookup type.toInt

namespace Pool

/-- A message type by its full name. -/
def type? (p : Pool) (name : String) : Option MessageType := p.types.find? (·.name == name)

def hasFile (p : Pool) (name : String) : Bool := p.files.any (·.name == name)

def definition? (p : Pool) (name : String) : Option Definition :=
  p.definitions.find? (·.name == name)

/-- A field that was added to a type from outside. Of two with one number the older one counts. -/
def extension? (p : Pool) (type : String) (number : Nat) : Option Field :=
  (p.extensions.find? fun (t, f) => t == type && f.number == number).map (·.2)

/-! ### Names -/

/-- Takes a name. Only packages may have a name in common. -/
def define? (p : Pool) (d : Definition) : Option Pool :=
  match p.definition? d.name with
  | none => some { p with definitions := p.definitions ++ [d] }
  | some other => if other.meaning = .package ∧ d.meaning = .package then some p else none

/-- Takes the name of a file and all names in it. -/
def addFile? (p : Pool) (f : FileDecl) : Option Pool :=
  if p.hasFile f.name || !f.isValid then none
  else
    let file : PoolFile := ⟨f.name, f.publicDependencies.filterMap f.dependencyAt?⟩
    f.definitions.foldlM define? { p with files := p.files ++ [file] }

/-- What a file gives on. -/
def reexports (p : Pool) (name : String) : List String :=
  ((p.files.find? (·.name == name)).map (·.reexports)).getD []

/-- The files seen so far, with those that a file gives on. One that was seen already is entered in
turn; a way through all files need not be longer than there are files. -/
def seeThrough (p : Pool) : Nat → List String → String → List String
  | 0, seen, _ => seen
  | k + 1, seen, name =>
    (p.reexports name).foldl (fun seen d =>
      if seen.contains d then p.seeThrough k seen d else seen ++ [d]) seen

/-- The files that a file sees. -/
def visible (p : Pool) (f : FileDecl) : List String :=
  f.name :: f.dependencies.foldl (fun seen d =>
    p.seeThrough p.files.length (if seen.contains d then seen else seen ++ [d]) d) []

/-- The names of a pool as they are seen from a scope in a file. -/
structure View where
  pool : Pool
  seen : List String
  scope : String

namespace View

/-- What a full name stands for, when it is wanted and the file with it is seen. -/
def wanted? (v : View) (isWanted : Meaning → Bool) (name : String) : Option Definition :=
  (v.pool.definition? name).filter fun d => v.seen.contains d.file && isWanted d.meaning

/-- What a name stands for: a full name behind a dot, else the nearest around the scope. The first
part of a dotted name decides where the rest is looked for, seen or not. -/
def resolve? (v : View) (isWanted : Meaning → Bool) (name : String) : Option Definition :=
  match name.toList with
  | '.' :: full => v.wanted? isWanted (String.ofList full)
  | _ =>
    match parts name with
    | [] => none
    | [_] => (scopes v.scope).findSome? fun s => v.wanted? isWanted (qualify s name)
    | first :: _ =>
      let holder := (scopes v.scope).find? fun s =>
        (v.pool.definition? (qualify s first)).any (·.meaning.isHolder)
      holder.bind fun s => v.wanted? isWanted (qualify s name)

/-- The message type that a name stands for. -/
def message? (v : View) (name : String) : Option String :=
  (v.resolve? (· == .message) name).map (·.name)

/-- The field from outside that a name stands for, with the type that it is added to. -/
def extension? (v : View) (name : String) : Option (String × Field) :=
  (v.resolve? (· == .extension) name).bind fun d =>
    v.pool.extensions.find? fun (_, f) => f.name == d.name

/-- The type of a field. The name of a type counts more than the number for its kind, and without
any of both a field is a floating-point number. -/
def fieldType? (v : View) (f : FieldDecl) : Option FieldType :=
  if f.typeName = "" then
    if f.type = 10 ∨ f.type = 11 ∨ f.type = 14 then none
    else some (.scalar ((scalarKind? f.type).getD .double))
  else
    match v.resolve? (fun m => m == .message || m == .enumeration) f.typeName with
    | none => none
    | some d =>
      if d.meaning = .enumeration then
        (v.pool.enums.find? (·.name == d.name)).map .enumeration
      else if f.type = 10 then some (.group d.name)
      else some (.message d.name)

/-- A field with its type found. -/
def field? (v : View) (isThird : Bool) (f : FieldDecl) : Option Field := do
  let type ← v.fieldType? f
  let default? ← type.default? f.defaultText
  let isRepeated := f.label = 3
  let mapEntry : Option String := match type.kind with
    | .message t | .group t =>
      if isRepeated && (v.pool.type? t).any fun t => t.isEntry then some t else none
    | .scalar _ => none
  let (isPackable, isPlain) := match type.kind with
    | .scalar k => (k.isPackable, true)
    | _ => (false, false)
  return {
    number := f.number.toInt.toNat
    name := f.name
    kind := (mapEntry.map Kind.message).getD type.kind
    arity := if mapEntry.isSome then .map else if isRepeated then .list else .single
    packed := isRepeated && isPackable && (f.options.map (·.value)).getD isThird
    hasPresence := f.isOptional || f.oneofIndex.isSome
      || (!isRepeated && (!isPlain || !isThird))
    oneof := f.oneofIndex.map (·.toInt.toNat)
    default?
    numberNames := type.numberNames }

end View

/-! ### Types -/

/-- A message type without its fields. -/
def outline (d : Declared) : MessageType :=
  ⟨d.name, [], d.decl.isEntry, d.decl.numbering⟩

/-- A message type with the types of its fields found. -/
def messageType? (p : Pool) (isThird : Bool) (d : Declared) : Option MessageType := do
  let fields ← d.decl.fields.mapM fun f =>
    View.field? ⟨p, p.visible d.file, qualify d.name f.name⟩ isThird f
  return { outline d with fields := fields.mergeSort fun a b => a.number ≤ b.number }

/-- A field for a type from outside, with that type. The type must allow its number. -/
def outerField? (p : Pool) (file : FileDecl) (isThird : Bool) (scope : String) (f : FieldDecl) :
    Option (String × Field) := do
  let v : View := ⟨p, p.visible file, qualify scope f.name⟩
  let extendee ← v.message? (← f.extendee)
  let type ← p.type? extendee
  guard (type.numbering.allows true f.number.toInt)
  let field ← v.field? isThird f
  return (extendee, { field with
    name := v.scope
    hasPresence := field.arity = .single
    oneof := none
    isExtension := true })

/-- All functions of the services of a file take and give message types. -/
def hasFunctions (p : Pool) (f : FileDecl) : Bool :=
  f.services.all fun s => s.methods.all fun m =>
    let v : View := ⟨p, p.visible f, qualify (qualify f.package s.name) m.name⟩
    (v.message? m.input).isSome && (v.message? m.output).isSome

/-- The message types and the outer fields of a file. -/
def contents? (p : Pool) (f : FileDecl) : Option (List MessageType × List (String × Field)) := do
  let isThird ← f.isThird?
  guard (f.dependencies.all p.hasFile && p.hasFunctions f)
  let types ← f.declared.mapM (p.messageType? isThird)
  let extensions ← f.declaredExtensions.mapM fun (scope, e) => p.outerField? f isThird scope e
  return (types, extensions)

/-- The enumerations of a file. -/
def enumTypes (f : FileDecl) : List EnumType :=
  f.declaredEnums.map fun (scope, e) =>
    ⟨qualify scope e.name, e.values.map fun v => (v.name, v.number)⟩

/-- The files that the pool does not have yet. -/
def fresh (p : Pool) (files : List FileDecl) : List FileDecl :=
  files.filter fun f => !p.hasFile f.name

/-- The pool with the types of a number of files. -/
def link? (p : Pool) (files : List FileDecl) : Option Pool := do
  let fresh := p.fresh files
  let named ← fresh.foldlM addFile? p
  let outlined := { named with
    enums := p.enums ++ fresh.flatMap enumTypes
    types := p.types ++ (fresh.flatMap FileDecl.declared).map outline }
  let contents ← fresh.mapM outlined.contents?
  return { outlined with
    types := p.types ++ contents.flatMap Prod.fst
    extensions := p.extensions ++ contents.flatMap Prod.snd }

end Pool

end Notary.Schema
