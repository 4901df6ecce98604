/-
The JSON document in which a contract module describes itself.

* `Description.read`, `Description.write` — the document's shape, read and written.
* `ContractMetadata.parse` — bytes to metadata; nothing is accepted in part.
* `Fault` — the bytes are no text, the text is no such document, or a function is declared twice.
-/

import Notary.Json.Shape
import Notary.Metadata.Basic
import Notary.Text.Utf8

namespace Notary.Metadata

open Json

/-- Why a document is not accepted. -/
inductive Fault where
  | notUtf8 (fault : Text.Utf8.Fault)
  | notDocument (fault : Json.Fault)
  | duplicateFunction (name : String)
deriving DecidableEq, Repr

def Fault.message : Fault → String
  | .notUtf8 fault => s!"not UTF-8: {fault.message}"
  | .notDocument fault => fault.message
  | .duplicateFunction name => s!"function {name} is declared more than once"

/-- Reads a value into one part of a draft. -/
def into {D α : Type} (read : Reader α) (set : D → α → D) (d : D) : Reader D := fun cs =>
  (read cs).map fun (a, rest) => (set d a, rest)

def RecordKind.read : Reader RecordKind :=
  variant [(RecordKind.proposed.name, .proposed), (RecordKind.existing.name, .existing)]

/-- A parameter of which some fields have been read. -/
structure ParameterDraft where
  recordType : Option RecordKind := none
  name : Option String := none
  isOptional : Option Bool := none
  typeName : Option String := none

def parameterShape : Shape ParameterDraft Parameter where
  name := "Parameter"
  blank := {}
  fields := [
    ⟨"record_type", true, (·.recordType.isSome),
      into RecordKind.read fun d v => { d with recordType := some v }⟩,
    ⟨"name", true, (·.name.isSome), into text fun d v => { d with name := some v }⟩,
    ⟨"optional", true, (·.isOptional.isSome),
      into boolean fun d v => { d with isOptional := some v }⟩,
    ⟨"type", true, (·.typeName.isSome), into text fun d v => { d with typeName := some v }⟩]
  finish d :=
    ⟨d.recordType.getD .proposed, d.name.getD "", d.isOptional.getD false, d.typeName.getD ""⟩

/-- A function of which some fields have been read. -/
structure FunctionDraft where
  name : Option String := none
  methodName : Option String := none
  invokedBy : Option String := none
  parameters : Option (List Parameter) := none
  returnType : Option String := none
  skipIfRecordExists : Option (Option String) := none

def functionShape : Shape FunctionDraft FunctionDescriptor where
  name := "FunctionDescriptor"
  blank := {}
  fields := [
    ⟨"name", true, (·.name.isSome), into text fun d v => { d with name := some v }⟩,
    ⟨"method_name", true, (·.methodName.isSome),
      into text fun d v => { d with methodName := some v }⟩,
    ⟨"invoked_by", true, (·.invokedBy.isSome), into text fun d v => { d with invokedBy := some v }⟩,
    ⟨"parameters", true, (·.parameters.isSome),
      into (list parameterShape.read) fun d v => { d with parameters := some v }⟩,
    ⟨"return_type", true, (·.returnType.isSome),
      into text fun d v => { d with returnType := some v }⟩,
    ⟨"skip_if_record_exists", false, (·.skipIfRecordExists.isSome),
      into (nullable text) fun d v => { d with skipIfRecordExists := some v }⟩]
  finish d :=
    ⟨d.name.getD "", d.methodName.getD "", d.invokedBy.getD "", d.parameters.getD [],
      d.returnType.getD "", d.skipIfRecordExists.getD none⟩

/-- A description of which some fields have been read. -/
structure DescriptionDraft where
  scopeSpecificationUuids : Option (List String) := none
  participants : Option (List String) := none
  name : Option String := none
  description : Option String := none
  websiteUrl : Option String := none
  iconUrl : Option String := none
  functions : Option (List FunctionDescriptor) := none

def descriptionShape : Shape DescriptionDraft Description where
  name := "ContractMetadata"
  blank := {}
  fields := [
    ⟨"scope_specification_uuids", true, (·.scopeSpecificationUuids.isSome),
      into (list text) fun d v => { d with scopeSpecificationUuids := some v }⟩,
    ⟨"participants", true, (·.participants.isSome),
      into (list text) fun d v => { d with participants := some v }⟩,
    ⟨"name", true, (·.name.isSome), into text fun d v => { d with name := some v }⟩,
    ⟨"description", true, (·.description.isSome),
      into text fun d v => { d with description := some v }⟩,
    ⟨"website_url", true, (·.websiteUrl.isSome),
      into text fun d v => { d with websiteUrl := some v }⟩,
    ⟨"icon_url", true, (·.iconUrl.isSome), into text fun d v => { d with iconUrl := some v }⟩,
    ⟨"functions", true, (·.functions.isSome),
      into (list functionShape.read) fun d v => { d with functions := some v }⟩]
  finish d :=
    ⟨d.scopeSpecificationUuids.getD [], d.participants.getD [], d.name.getD "",
      d.description.getD "", d.websiteUrl.getD "", d.iconUrl.getD "", d.functions.getD []⟩

/-- Items with commas between them. -/
def joined : List (List Char) → List Char
  | [] => []
  | [a] => a
  | a :: rest => a ++ ',' :: joined rest

def writeList (xs : List (List Char)) : List Char := '[' :: (joined xs ++ [']'])

def writeObject (entries : List (String × List Char)) : List Char :=
  '{' :: (joined (entries.map fun (k, v) => writeText k ++ ':' :: v) ++ ['}'])

def writeBoolean (b : Bool) : List Char := (if b then "true" else "false").toList

def Parameter.write (p : Parameter) : List Char :=
  writeObject [("record_type", writeText p.recordType.name), ("name", writeText p.name),
    ("optional", writeBoolean p.isOptional), ("type", writeText p.typeName)]

/-- The name of the record that makes the function be skipped is left out when there is none. -/
def FunctionDescriptor.write (f : FunctionDescriptor) : List Char :=
  writeObject <|
    [("name", writeText f.name), ("method_name", writeText f.methodName),
      ("invoked_by", writeText f.invokedBy), ("parameters", writeList (f.parameters.map (·.write))),
      ("return_type", writeText f.returnType)] ++
    match f.skipIfRecordExists with
    | none => []
    | some r => [("skip_if_record_exists", writeText r)]

def Description.write (d : Description) : List Char :=
  writeObject [
    ("scope_specification_uuids", writeList (d.scopeSpecificationUuids.map writeText)),
    ("participants", writeList (d.participants.map writeText)),
    ("name", writeText d.name), ("description", writeText d.description),
    ("website_url", writeText d.websiteUrl), ("icon_url", writeText d.iconUrl),
    ("functions", writeList (d.functions.map (·.write)))]

namespace ContractMetadata

/-- The metadata of a text. -/
def ofText (s : String) : Except Fault ContractMetadata :=
  match document descriptionShape.read s with
  | .error e => .error (.notDocument e)
  | .ok d => (ofDescription d).mapError .duplicateFunction

/-- The metadata of a module's answer. -/
def parse (bs : Bytes) : Except Fault ContractMetadata :=
  match Text.Utf8.decode bs with
  | .error e => .error (.notUtf8 e)
  | .ok s => ofText s

/-- The document of the metadata. The index is not part of it. -/
def toText (m : ContractMetadata) : String := String.ofList m.toDescription.write

end ContractMetadata

/-- A function read on its own. -/
def FunctionDescriptor.ofText (s : String) : Except Json.Fault FunctionDescriptor :=
  document functionShape.read s

end Notary.Metadata
