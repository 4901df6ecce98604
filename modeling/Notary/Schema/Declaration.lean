/-
Encoded declarations of message types: sets of files, each with messages, enumerations, services and
fields for types of other files.

* `FileDecl`, `MessageDecl`, `FieldDecl`, `EnumDecl`, `ServiceDecl` — what a file declares.
* `FileDecl.readSet` — the files of an encoded set. Everything declared must be well-formed, also
  what is not kept.
-/

import Notary.Schema.Options

namespace Notary.Schema

open Notary.Wire

/-- The declaration of a field. The numbers for its label and type are those of the format. -/
structure FieldDecl where
  name : String := ""
  /-- The type that the field is added to from outside. -/
  extendee : Option String := none
  number : Int32 := 0
  label : Int32 := 1
  type : Int32 := 0
  typeName : String := ""
  defaultText : Option String := none
  /-- The values stand in one stretch. Without options the version decides that. -/
  options : Option (Options Bool) := none
  oneofIndex : Option Int32 := none
  /-- The name in documents; it follows from the name of the field when it is not given. -/
  documentName : Option String := none
  /-- The field has presence though it is none of a choice. -/
  isOptional : Bool := false
deriving DecidableEq

/-- A range of numbers by its two ends. -/
structure RangeDecl where
  first : Int32 := 0
  last : Int32 := 0
deriving DecidableEq

/-- A range that is set aside for fields from outside. -/
structure ExtensionRangeDecl extends RangeDecl where
  options : Option (Options Unit) := none
deriving DecidableEq

/-- A name of an enumeration. -/
structure EnumValueDecl where
  name : String := ""
  number : Int32 := 0
  options : Option (Options Unit) := none
deriving DecidableEq

/-- A choice between fields. -/
structure OneofDecl where
  name : String := ""
  options : Option (Options Unit) := none
deriving DecidableEq

/-- The declaration of an enumeration: its names with their numbers. -/
structure EnumDecl where
  name : String := ""
  values : List EnumValueDecl := []
  options : Option (Options Bool) := none
  /-- Numbers that no name may have, with both ends. -/
  reserved : List RangeDecl := []
deriving DecidableEq

/-- The declaration of a message type. -/
structure MessageDecl where
  name : String := ""
  fields : List FieldDecl := []
  nested : List MessageDecl := []
  enums : List EnumDecl := []
  /-- Numbers set aside for fields from outside, without the last end. -/
  extensionRanges : List ExtensionRangeDecl := []
  extensions : List FieldDecl := []
  options : Option (Options Bool) := none
  oneofs : List OneofDecl := []
  /-- Numbers that no field may have, without the last end. -/
  reserved : List RangeDecl := []

/-- The declaration of a function of a service. -/
structure MethodDecl where
  name : String := ""
  input : String := ""
  output : String := ""
  options : Option (Options Unit) := none
deriving DecidableEq

/-- The declaration of a service. -/
structure ServiceDecl where
  name : String := ""
  methods : List MethodDecl := []
  options : Option (Options Unit) := none
deriving DecidableEq

/-- The declarations of a file. -/
structure FileDecl where
  name : String := ""
  package : String := ""
  dependencies : List String := []
  messages : List MessageDecl := []
  enums : List EnumDecl := []
  services : List ServiceDecl := []
  extensions : List FieldDecl := []
  options : Option (Options Unit) := none
  /-- The places of the dependencies that whoever depends on this file sees too. -/
  publicDependencies : List Int32 := []
  /-- The places of the dependencies that might be absent elsewhere. -/
  weakDependencies : List Int32 := []
  version : Option String := none

/-- The declared type is that of the entries of a map. -/
def MessageDecl.isEntry (m : MessageDecl) : Bool := m.options.any (·.value)

/-- Two names may share a number. The option counts by its name, too, before it is looked up. -/
def EnumDecl.allowsAlias (e : EnumDecl) : Bool :=
  e.options.any fun o => o.value || o.named.any (·.turnsOn "allow_alias")

def RangeDecl.format : Format RangeDecl where
  name := "ReservedRange"
  blank := {}
  fields := [
    .scalar .enumeration 1 "start" (·.first) fun v m => { m with first := v },
    .scalar .enumeration 2 "end" (·.last) fun v m => { m with last := v }]

namespace FieldDecl

def format : Format FieldDecl where
  name := "FieldDescriptorProto"
  blank := {}
  fields := [
    .scalar .text 1 "name" (·.name) fun v m => { m with name := v },
    .given .text 2 "extendee" (·.extendee) fun v m => { m with extendee := v },
    .scalar .enumeration 3 "number" (·.number) fun v m => { m with number := v },
    .scalar .enumeration 4 "label" (·.label) fun v m => { m with label := v },
    .scalar .enumeration 5 "type" (·.type) fun v m => { m with type := v },
    .scalar .text 6 "type_name" (·.typeName) fun v m => { m with typeName := v },
    .given .text 7 "default_value" (·.defaultText) fun v m => { m with defaultText := v },
    Options.field Options.ofField 8 (·.options) fun v m => { m with options := v },
    .given .enumeration 9 "oneof_index" (·.oneofIndex) fun v m => { m with oneofIndex := v },
    .given .text 10 "json_name" (·.documentName) fun v m => { m with documentName := v },
    .scalar .flag 17 "proto3_optional" (·.isOptional) fun v m => { m with isOptional := v }]

end FieldDecl

namespace EnumDecl

def valueFormat : Format EnumValueDecl where
  name := "EnumValueDescriptorProto"
  blank := {}
  fields := [
    .scalar .text 1 "name" (·.name) fun v m => { m with name := v },
    .scalar .enumeration 2 "number" (·.number) fun v m => { m with number := v },
    Options.field Options.ofValue 3 (·.options) fun v m => { m with options := v }]

def format : Format EnumDecl where
  name := "EnumDescriptorProto"
  blank := {}
  fields := [
    .scalar .text 1 "name" (·.name) fun v m => { m with name := v },
    .repeated valueFormat 2 "value" (·.values) fun v m => { m with values := v },
    Options.field Options.ofEnum 3 (·.options) fun v m => { m with options := v },
    .repeated RangeDecl.format 4 "reserved_range" (·.reserved)
      fun v m => { m with reserved := v },
    Checked.scalars .text 5 "reserved_name"]

end EnumDecl

namespace MessageDecl

def oneofFormat : Format OneofDecl where
  name := "OneofDescriptorProto"
  blank := {}
  fields := [
    .scalar .text 1 "name" (·.name) fun v m => { m with name := v },
    Options.field Options.ofOneof 2 (·.options) fun v m => { m with options := v }]

def extensionRangeFormat : Format ExtensionRangeDecl where
  name := "ExtensionRange"
  blank := {}
  fields := [
    .scalar .enumeration 1 "start" (·.first) fun v m => { m with first := v },
    .scalar .enumeration 2 "end" (·.last) fun v m => { m with last := v },
    Options.field Options.ofRange 3 (·.options) fun v m => { m with options := v }]

/-- The format of declarations with so many levels of types inside types. -/
def formatTo : Nat → Format MessageDecl
  | 0 => ⟨"DescriptorProto", {}, []⟩
  | depth + 1 => {
    name := "DescriptorProto"
    blank := {}
    fields := [
      .scalar .text 1 "name" (·.name) fun v m => { m with name := v },
      .repeated FieldDecl.format 2 "field" (·.fields) fun v m => { m with fields := v },
      .repeated (formatTo depth) 3 "nested_type" (·.nested) fun v m => { m with nested := v },
      .repeated EnumDecl.format 4 "enum_type" (·.enums) fun v m => { m with enums := v },
      .repeated extensionRangeFormat 5 "extension_range" (·.extensionRanges)
        fun v m => { m with extensionRanges := v },
      .repeated FieldDecl.format 6 "extension" (·.extensions)
        fun v m => { m with extensions := v },
      Options.field Options.ofMessage 7 (·.options) fun v m => { m with options := v },
      .repeated oneofFormat 8 "oneof_decl" (·.oneofs) fun v m => { m with oneofs := v },
      .repeated RangeDecl.format 9 "reserved_range" (·.reserved)
        fun v m => { m with reserved := v },
      Checked.scalars .text 10 "reserved_name"] }

/-- No deeper level can be reached when a declaration is read. -/
def format : Format MessageDecl := formatTo depthLimit

end MessageDecl

namespace ServiceDecl

def methodFormat : Format MethodDecl where
  name := "MethodDescriptorProto"
  blank := {}
  fields := [
    .scalar .text 1 "name" (·.name) fun v m => { m with name := v },
    .scalar .text 2 "input_type" (·.input) fun v m => { m with input := v },
    .scalar .text 3 "output_type" (·.output) fun v m => { m with output := v },
    Options.field Options.ofMethod 4 (·.options) fun v m => { m with options := v },
    Checked.flag 5 "client_streaming",
    Checked.flag 6 "server_streaming"]

def format : Format ServiceDecl where
  name := "ServiceDescriptorProto"
  blank := {}
  fields := [
    .scalar .text 1 "name" (·.name) fun v m => { m with name := v },
    .repeated methodFormat 2 "method" (·.methods) fun v m => { m with methods := v },
    Options.field Options.ofService 3 (·.options) fun v m => { m with options := v }]

end ServiceDecl

namespace FileDecl

/-- Where a declaration stood in its text, and what was said about it there. -/
def locationFormat : Format Unit where
  name := "Location"
  blank := ()
  fields := [
    Checked.scalars .enumeration 1 "path", Checked.scalars .enumeration 2 "span",
    Checked.text 3 "leading_comments", Checked.text 4 "trailing_comments",
    Checked.scalars .text 6 "leading_detached_comments"]

def locationsFormat : Format Unit :=
  ⟨"SourceCodeInfo", (), [Checked.messages locationFormat 1 "location"]⟩

def format : Format FileDecl where
  name := "FileDescriptorProto"
  blank := {}
  fields := [
    .scalar .text 1 "name" (·.name) fun v m => { m with name := v },
    .scalar .text 2 "package" (·.package) fun v m => { m with package := v },
    .listed .text 3 "dependency" (·.dependencies) fun v m => { m with dependencies := v },
    .repeated MessageDecl.format 4 "message_type" (·.messages)
      fun v m => { m with messages := v },
    .repeated EnumDecl.format 5 "enum_type" (·.enums) fun v m => { m with enums := v },
    .repeated ServiceDecl.format 6 "service" (·.services) fun v m => { m with services := v },
    .repeated FieldDecl.format 7 "extension" (·.extensions)
      fun v m => { m with extensions := v },
    Options.field Options.ofFile 8 (·.options) fun v m => { m with options := v },
    .optional locationsFormat 9 "source_code_info" (fun _ => none) fun _ m => m,
    .listed .enumeration 10 "public_dependency" (·.publicDependencies)
      fun v m => { m with publicDependencies := v },
    .listed .enumeration 11 "weak_dependency" (·.weakDependencies)
      fun v m => { m with weakDependencies := v },
    .given .text 12 "syntax" (·.version) fun v m => { m with version := v }]

def setFormat : Format (List FileDecl) where
  name := "FileDescriptorSet"
  blank := []
  fields := [.repeated format 1 "file" id fun v _ => v]

/-- The files of an encoded set. -/
def readSet (bs : Bytes) : Except Fault (List FileDecl) := setFormat.read bs

end FileDecl

end Notary.Schema
