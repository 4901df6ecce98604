/-
Options as messages.

The options of a declaration are a message of a type that the pool has, or else of the shared type
of that name, and must be well-formed as such. Options that are given by name are looked up in this
type, part by part, and must fit the field that they name. A field that is no list can be given
once. The message with all of them is the options in the end: written, it must be well-formed as the
options of such a declaration, whatever its type says.

* `Pool.add?` — the pool with the types of a number of files; none when they do not fit, options
  included.
* `Pool.addSet?` — the same for an encoded set of files.
-/

import Notary.Schema.Reading
import Notary.Schema.Shared

namespace Notary.Schema

open Notary.Wire

/-- The options of a declaration, with the name of their type and the scope in which they stand. -/
structure Annotation where
  type : String
  scope : String
  named : List NamedOption
  bytes : Bytes
  /-- The bytes are options of such a declaration. -/
  isReadable : Bytes → Bool

/-- The annotation of a declaration, when it has one. -/
def annotate {α : Type} (f : Format (Options α)) (scope : String) (o : Option (Options α)) :
    List Annotation :=
  o.toList.map fun o =>
    ⟨"google.protobuf." ++ f.name, scope, o.named, o.bytes, fun bs => (f.read bs).isOk⟩

namespace Declared

/-- The annotation of a message type itself. -/
def ownAnnotation (d : Declared) : List Annotation :=
  annotate Options.ofMessage d.name d.decl.options

/-- All annotations of a message type but those of the types inside it. -/
def annotations (d : Declared) : List Annotation :=
  d.ownAnnotation
    ++ (d.decl.fields.flatMap fun f =>
      annotate Options.ofField (qualify d.name f.name) f.options)
    ++ (d.decl.oneofs.flatMap fun o =>
      annotate Options.ofOneof (qualify d.name o.name) o.options)
    ++ (d.decl.extensionRanges.flatMap fun r =>
      annotate Options.ofRange d.name r.options)

end Declared

namespace FileDecl

/-- The annotations of enumerations and of their names. -/
def enumAnnotations (f : FileDecl) : List Annotation :=
  f.declaredEnums.flatMap fun (scope, e) =>
    annotate Options.ofEnum (qualify scope e.name) e.options
      ++ e.values.flatMap fun v => annotate Options.ofValue (qualify scope v.name) v.options

/-- The annotations of services and of their functions. -/
def serviceAnnotations (f : FileDecl) : List Annotation :=
  f.services.flatMap fun s =>
    let name := qualify f.package s.name
    annotate Options.ofService name s.options
      ++ s.methods.flatMap fun m => annotate Options.ofMethod (qualify name m.name) m.options

/-- All annotations of a file. -/
def annotations (f : FileDecl) : List Annotation :=
  annotate Options.ofFile f.package f.options
    ++ f.declared.flatMap Declared.annotations
    ++ f.enumAnnotations
    ++ f.serviceAnnotations
    ++ f.declaredExtensions.flatMap fun (scope, e) =>
      annotate Options.ofField (qualify scope e.name) e.options

end FileDecl

namespace NamedOption

/-- The whole number that an option gives. -/
def whole? (o : NamedOption) : Option Int :=
  match o.positive with
  | some n => some n
  | none => o.negative

/-- The pattern of the floating-point number of 64 bits that an option gives. No word stands for
one. -/
def double? (o : NamedOption) : Option Nat :=
  match o.double with
  | some b => some (Bytes.leValue b)
  | none => o.whole?.map fun n =>
    Decimal.Format.double.nearest n.natAbs 0 + if n < 0 then Decimal.Format.double.sign else 0

/-- The value without inner structure that an option gives to a field. -/
def datum? (o : NamedOption) (f : Field) : ScalarKind → Option Datum
  | .bool =>
    match o.identifier with
    | some "true" => some (.number 1)
    | some "false" => some (.number 0)
    | _ => none
  | .enumeration =>
    (o.identifier.bind fun s => f.numberNames.lookup s).map fun n =>
      ScalarKind.enumeration.ofInt n.toInt
  | .string => (o.text.filter fun b => (Bytes.toText? b).isSome).map .blob
  | .bytes => o.text.map .blob
  | .double => o.double?.map .number
  | .float => o.double?.map fun n => .number (Float.ofBits n.toUInt64).toFloat32.toBits.toNat
  | k => (o.whole?.filter k.has).map k.ofInt

/-- The value that an option gives to a field. A message that is given as text says nothing,
whatever the text is. -/
def value? (o : NamedOption) (f : Field) : Option Value :=
  match f.kind with
  | .scalar k => (o.datum? f k).map .datum
  | .message name | .group name => o.aggregate.map fun _ => .message (.blank name)

end NamedOption

namespace Pool

/-- The field that a part of a name stands for in a message type. -/
def View.named? (v : View) (t : MessageType) (part : NamePart) : Option Field :=
  if part.isExtension then
    ((v.extension? part.name).filter fun (type, _) => type == t.name).map (·.2)
  else t.fields.find? (·.name == part.name)

/-- Gives a message what an option says, whose name leads into it. -/
def putOption? (p : Pool) (v : View) (o : NamedOption) :
    List NamePart → MessageType → Message → Option Message
  | [], _, m => some m
  | part :: rest, t, m =>
    match v.named? t part with
    | none => none
    | some f =>
      match rest, f.kind with
      | [], _ =>
        if f.arity = .single ∧ !(m.values f.number).isEmpty then none
        else (o.value? f).map fun v => m.put f (m.values f.number ++ [v])
      | _ :: _, .message name | _ :: _, .group name =>
        match f.arity, p.type? name with
        | .single, some inner =>
          (p.putOption? v o rest inner (m.child f name)).map fun c => m.put f [.message c]
        | _, _ => none
      | _ :: _, .scalar _ => none

/-- The options of a declaration with those that are given by name; none when they do not fit. -/
def settled? (p : Pool) (f : FileDecl) (a : Annotation) : Option Bytes := do
  let holder := if (p.type? a.type).isSome then p else sharedPool
  let type ← holder.type? a.type
  let m ← (holder.decode type a.bytes).toOption
  let v : View := ⟨p, p.visible f, a.scope⟩
  let m ← a.named.foldlM (fun m o => holder.putOption? v o o.path type m) m
  guard (a.isReadable m.bytes)
  return m.bytes

/-- The message type is that of the entries of a map, by its options in the end. -/
def isSettledEntry (p : Pool) (d : Declared) : Bool :=
  d.ownAnnotation.any fun a => (p.settled? d.file a).any fun bs =>
    (Options.ofMessage.read bs).toOption.any (·.value)

/-- A list of entries is a map. -/
def settleField (p : Pool) (f : Field) : Field :=
  match f.arity, f.kind with
  | .list, .message name | .list, .group name =>
    if (p.type? name).any (·.isEntry) then { f with arity := .map, kind := .message name } else f
  | _, _ => f

/-- The pool with the entries of maps told apart from all other messages by the options in the end.
What is an entry already stays one. -/
def settle (p : Pool) (declared : List Declared) : Pool :=
  let entries := (declared.filter p.isSettledEntry).map (·.name)
  let mark (t : MessageType) : MessageType :=
    if entries.contains t.name then { t with isEntry := true } else t
  let p : Pool := { p with types := p.types.map mark }
  let types := p.types.map fun t => { t with fields := t.fields.map p.settleField }
  { p with types, extensions := p.extensions.map fun (t, f) => (t, p.settleField f) }

/-- The pool with the types of a number of files. -/
def add? (p : Pool) (files : List FileDecl) : Option Pool := do
  let q ← p.link? files
  let fresh := p.fresh files
  guard (fresh.all fun f => f.annotations.all fun a => (q.settled? f a).isSome)
  return q.settle (fresh.flatMap FileDecl.declared)

/-- The pool with the types of an encoded set of files. -/
def addSet? (p : Pool) (bs : Bytes) : Option Pool :=
  match FileDecl.readSet bs with
  | .error _ => none
  | .ok files => p.add? files

end Pool

end Notary.Schema
