/-
What declarations must fulfil on their own, whatever else there is.

* `MessageDecl.isValid` — the fields of a message type have numbers, names and choices of their own.
* `EnumDecl.isValid` — so have the names of an enumeration.
* `FileDecl.isValid` — all declarations of a file, and the places of its dependencies.
-/

import Notary.Schema.Names
import Notary.Schema.Type

namespace Notary.Schema

/-- The range of a declaration whose last end does not belong to it. -/
def RangeDecl.open (r : RangeDecl) : NumberRange := ⟨r.first.toInt, r.last.toInt⟩

/-- The range of a declaration whose last end belongs to it. -/
def RangeDecl.closed (r : RangeDecl) : NumberRange := ⟨r.first.toInt, r.last.toInt + 1⟩

/-- Underscores go, and the character behind each becomes a capital. -/
def camelCase (raise : Bool) : List Char → List Char
  | [] => []
  | c :: rest =>
    if c = '_' then camelCase true rest
    else (if raise then c.toUpper else c) :: camelCase false rest

namespace FieldDecl

/-- The name of a field in documents. -/
def nameInDocuments (f : FieldDecl) : String :=
  f.documentName.getD (String.ofList (camelCase false f.name.toList))

/-- The name of a field without underscores and capitals. -/
def plainName (f : FieldDecl) : String :=
  String.ofList ((f.name.toList.filter (· != '_')).map Char.toLower)

end FieldDecl

namespace MessageDecl

/-- Which numbers fields may have. -/
def numbering (m : MessageDecl) : Numbering :=
  ⟨m.reserved.map RangeDecl.open, m.extensionRanges.map (·.toRangeDecl.open)⟩

/-- Fields have numbers of their own. One that says that it is added to a type, whatever that is,
counts as a field from outside. -/
def hasValidNumbers (m : MessageDecl) : Bool :=
  decide (m.fields.map (·.number)).Nodup && m.fields.all fun f =>
    m.numbering.allows f.extendee.isSome f.number.toInt

/-- Fields have names of their own in documents; in the third version also when case and underscores
do not count. -/
def hasValidNames (isThird : Bool) (m : MessageDecl) : Bool :=
  decide (m.fields.map (·.nameInDocuments)).Nodup
    && (!isThird || decide (m.fields.map (·.plainName)).Nodup)

/-- Every field that belongs to a choice belongs to one that there is. -/
def hasValidChoices (m : MessageDecl) : Bool :=
  m.fields.all fun f => f.oneofIndex.all fun i => 0 ≤ i.toInt && i.toInt < (m.oneofs.length : Int)

def isValid (isThird : Bool) (m : MessageDecl) : Bool :=
  m.hasValidNumbers && m.hasValidNames isThird && m.hasValidChoices

end MessageDecl

namespace EnumDecl

/-- There is a name, in the third version one for zero in front; no number is reserved, and no two
names share one unless they may. -/
def isValid (isThird : Bool) (e : EnumDecl) : Bool :=
  let numbers := e.values.map (·.number.toInt)
  let reserved := e.reserved.map RangeDecl.closed
  !numbers.isEmpty && (!isThird || numbers.head? == some 0)
    && (e.allowsAlias || decide numbers.Nodup)
    && numbers.all fun n => !reserved.any (·.contains n)

end EnumDecl

namespace FileDecl

/-- The rules of the third version hold: values stand in one stretch unless told otherwise, and a
plain field has no presence. None when the version is unknown. -/
def isThird? (f : FileDecl) : Option Bool :=
  match f.version with
  | none => some false
  | some v => if v = "proto3" then some true else if v = "proto2" then some false else none

/-- The dependency at a place. -/
def dependencyAt? (f : FileDecl) (i : Int32) : Option String :=
  if i < 0 then none else f.dependencies[i.toInt.toNat]?

/-- The version is known, and everything declared fits by itself. -/
def isValid (f : FileDecl) : Bool :=
  match f.isThird? with
  | none => false
  | some isThird =>
    (f.publicDependencies ++ f.weakDependencies).all (fun i => (f.dependencyAt? i).isSome)
      && f.declared.all (fun d => d.decl.isValid isThird)
      && f.declaredEnums.all fun (_, e) => e.isValid isThird

end FileDecl

end Notary.Schema
