/-
Options of declarations.

Three of them matter by themselves: that a message type is that of map entries, that the values of a
field stand in one stretch, and that two names of an enumeration may share a number. All others are
read as what they are declared to be; so are options that are given by their names, which are looked
up later. The bytes of all options are kept, since the types of options can be declared too. Every
option takes a level of depth, whatever its layout.

* `Options` — what is kept of the options of a declaration.
* `Checked` — fields that must be well-formed and are not kept.
* `Options.field` — the field of a declaration that holds its options.
-/

import Notary.Wire.Format

namespace Notary.Schema

open Notary.Wire

/-- A part of the name of an option. -/
structure NamePart where
  name : String := ""
  /-- The part names a field that was added from outside. -/
  isExtension : Bool := false
deriving DecidableEq, Repr

/-- An option that is given by its name, with its value in one of several forms. -/
structure NamedOption where
  path : List NamePart := []
  /-- A word. -/
  identifier : Option String := none
  /-- A whole number, in one of two forms. -/
  positive : Option Nat := none
  negative : Option Int := none
  /-- A floating-point number. -/
  double : Option Bytes := none
  /-- The bytes of a text. -/
  text : Option Bytes := none
  /-- The text of a message. -/
  aggregate : Option String := none
deriving DecidableEq, Repr

/-- The options of a declaration: the value that matters, those that are given by name, and the
bytes of all. -/
structure Options (α : Type) where
  value : α
  named : List NamedOption := []
  bytes : Bytes := []
deriving DecidableEq

namespace Checked

variable {M α : Type}

/-- A scalar that is not kept. -/
def scalar (s : Scalar α) (number : Nat) (name : String) : Wire.Field M :=
  .given s number name (fun _ => none) fun _ m => m

/-- Scalars that are not kept. -/
def scalars (s : Scalar α) (number : Nat) (name : String) : Wire.Field M :=
  .listed s number name (fun _ => []) fun _ m => m

/-- Messages that are not kept. -/
def messages (f : Format α) (number : Nat) (name : String) : Wire.Field M :=
  .repeated f number name (fun _ => []) fun _ m => m

def text : Nat → String → Wire.Field M := scalar .text

def flag : Nat → String → Wire.Field M := scalar .flag

def number : Nat → String → Wire.Field M := scalar .enumeration

/-- The field takes a level of depth. -/
def deeper (f : Wire.Field M) : Wire.Field M where
  number := f.number
  name := f.name
  encode := f.encode
  merge depth w m bs :=
    match depth with
    | 0 => .error (.ofCause .depthLimit)
    | _ + 1 => f.merge depth w m bs

end Checked

namespace NamedOption

/-- A whole number of 64 bits. -/
def count : Scalar Nat where
  wire := .varint
  blank := 0
  write := Varint.write
  read := Varint.read

/-- A whole number of 64 bits with a sign. -/
def difference : Scalar Int where
  wire := .varint
  blank := 0
  write n := Varint.write (n % 2 ^ 64).toNat
  read bs := (Varint.read bs).map fun (n, rest) => ((Int64.ofNat n).toInt, rest)

/-- A number of eight bytes. -/
def eight : Scalar Bytes where
  wire := .fixed64
  blank := []
  write := id
  read := takeBytes 8

def partFormat : Format NamePart where
  name := "NamePart"
  blank := {}
  fields := [
    .scalar .text 1 "name_part" (·.name) fun v m => { m with name := v },
    .scalar .flag 2 "is_extension" (·.isExtension) fun v m => { m with isExtension := v }]

def format : Format NamedOption where
  name := "UninterpretedOption"
  blank := {}
  fields := [
    .repeated partFormat 2 "name" (·.path) fun v m => { m with path := v },
    .given .text 3 "identifier_value" (·.identifier) fun v m => { m with identifier := v },
    .given count 4 "positive_int_value" (·.positive) fun v m => { m with positive := v },
    .given difference 5 "negative_int_value" (·.negative) fun v m => { m with negative := v },
    .given eight 6 "double_value" (·.double) fun v m => { m with double := v },
    .given .blob 7 "string_value" (·.text) fun v m => { m with text := v },
    .given .text 8 "aggregate_value" (·.aggregate) fun v m => { m with aggregate := v }]

/-- The option turns on what has this name. -/
def turnsOn (o : NamedOption) (name : String) : Bool :=
  o.path == [⟨name, false⟩] && o.identifier == some "true"

end NamedOption

namespace Options

open Checked (text flag number)

/-- The field with the options that are given by name. -/
def namedField {α : Type} : Wire.Field (Options α) :=
  .repeated NamedOption.format 999 "uninterpreted_option" (·.named) fun v m => { m with named := v }

/-- The options of a kind of declaration. Every kind may have options that are given by name. -/
def format {α : Type} (name : String) (blank : α) (fields : List (Wire.Field (Options α))) :
    Format (Options α) where
  name := name
  blank := ⟨blank, [], []⟩
  fields := (fields ++ [namedField]).map Checked.deeper

/-- The option that matters. -/
def kept (number : Nat) (name : String) : Wire.Field (Options Bool) :=
  .scalar .flag number name (·.value) fun v m => { m with value := v }

def ofFile : Format (Options Unit) :=
  format "FileOptions" () [
    text 1 "java_package", text 8 "java_outer_classname", number 9 "optimize_for",
    flag 10 "java_multiple_files", text 11 "go_package", flag 16 "cc_generic_services",
    flag 17 "java_generic_services", flag 18 "py_generic_services",
    flag 20 "java_generate_equals_and_hash", flag 23 "deprecated", flag 27 "java_string_check_utf8",
    flag 31 "cc_enable_arenas", text 36 "objc_class_prefix", text 37 "csharp_namespace",
    text 39 "swift_prefix", text 40 "php_class_prefix", text 41 "php_namespace",
    flag 42 "php_generic_services", text 44 "php_metadata_namespace", text 45 "ruby_package"]

/-- Whether a message type is that of the entries of a map. -/
def ofMessage : Format (Options Bool) :=
  format "MessageOptions" false [
    flag 1 "message_set_wire_format", flag 2 "no_standard_descriptor_accessor", flag 3 "deprecated",
    kept 7 "map_entry"]

/-- Whether the values of a field stand in one stretch. -/
def ofField : Format (Options Bool) :=
  format "FieldOptions" false [
    number 1 "ctype", kept 2 "packed", flag 3 "deprecated", flag 5 "lazy", number 6 "jstype",
    flag 10 "weak"]

def ofOneof : Format (Options Unit) := format "OneofOptions" () []

def ofRange : Format (Options Unit) := format "ExtensionRangeOptions" () []

/-- Whether two names of an enumeration may share a number. -/
def ofEnum : Format (Options Bool) :=
  format "EnumOptions" false [kept 2 "allow_alias", flag 3 "deprecated"]

def ofValue : Format (Options Unit) := format "EnumValueOptions" () [flag 1 "deprecated"]

def ofService : Format (Options Unit) := format "ServiceOptions" () [flag 33 "deprecated"]

def ofMethod : Format (Options Unit) :=
  format "MethodOptions" () [flag 33 "deprecated", number 34 "idempotency_level"]

/-- The field of a declaration that holds its options. Stretches of options add up. -/
def field {M α : Type} (f : Format (Options α)) (number : Nat) (get : M → Option (Options α))
    (set : Option (Options α) → M → M) : Wire.Field M where
  number := number
  name := "options"
  encode m :=
    match get m with
    | none => []
    | some o => Key.write number .delimited ++ (Varint.write o.bytes.length ++ o.bytes)
  merge depth w m bs :=
    match f.mergeNested depth w ((get m).getD f.blank) bs, readDelimited bs with
    | .error e, _ => .error e
    | .ok _, .error c => .error (.ofCause c)
    | .ok (o, rest), .ok (b, _) => .ok (set (some { o with bytes := o.bytes ++ b }) m, rest)

end Options

end Notary.Schema
