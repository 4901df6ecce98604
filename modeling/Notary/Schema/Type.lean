/-
Message types that are known only when the program runs.

* `ScalarKind` — the kinds of values without inner structure: how each is laid out, read and
  written.
* `Field`, `MessageType` — what a type says about its fields.
-/

import Notary.Decimal.Nearest
import Notary.Wire.Format

namespace Notary.Schema

open Notary.Wire

/-- The kinds of values without inner structure. -/
inductive ScalarKind where
  | double
  | float
  | int64
  | uint64
  | int32
  | fixed64
  | fixed32
  | bool
  | string
  | bytes
  | uint32
  | enumeration
  | sfixed32
  | sfixed64
  | sint32
  | sint64
deriving DecidableEq, Repr

/-- A value without inner structure: a number as it stands on the wire, or a byte string. -/
inductive Datum where
  | number (n : Nat)
  | blob (bs : Bytes)
deriving DecidableEq, Repr

namespace ScalarKind

def wire : ScalarKind → WireType
  | .double | .fixed64 | .sfixed64 => .fixed64
  | .float | .fixed32 | .sfixed32 => .fixed32
  | .string | .bytes => .delimited
  | .int64 | .uint64 | .int32 | .bool | .uint32 | .enumeration | .sint32 | .sint64 => .varint

/-- Values of this kind may stand in one stretch. -/
def isPackable (k : ScalarKind) : Bool := k.wire != .delimited

/-- The number that a varint stands for: kinds of 32 bits keep the lowest 32, with their sign when
they have one in front, and every truth value but zero is one. -/
def narrow (k : ScalarKind) (n : Nat) : Nat :=
  match k with
  | .int32 | .enumeration =>
    if n % 2 ^ 32 < 2 ^ 31 then n % 2 ^ 32 else n % 2 ^ 32 + (2 ^ 64 - 2 ^ 32)
  | .uint32 | .sint32 => n % 2 ^ 32
  | .bool => min n 1
  | _ => n

/-- A value and what follows it. -/
def read (k : ScalarKind) (bs : Bytes) : Except Cause (Datum × Bytes) :=
  match k.wire with
  | .varint => (Varint.read bs).map fun (n, rest) => (.number (k.narrow n), rest)
  | .fixed64 => (takeBytes 8 bs).map fun (b, rest) => (.number (Bytes.leValue b), rest)
  | .fixed32 => (takeBytes 4 bs).map fun (b, rest) => (.number (Bytes.leValue b), rest)
  | _ =>
    match readDelimited bs with
    | .error c => .error c
    | .ok (b, rest) =>
      if k = .string ∧ Bytes.toText? b = none then .error .notUtf8 else .ok (.blob b, rest)

/-- The bytes of a value. -/
def write (k : ScalarKind) : Datum → Bytes
  | .number n =>
    match k.wire with
    | .fixed64 => Bytes.le 8 n
    | .fixed32 => Bytes.le 4 n
    | _ => Varint.write n
  | .blob b => Varint.write b.length ++ b

/-- The value that an absent field has when nothing else is said. -/
def zero (k : ScalarKind) : Datum :=
  match k with
  | .string | .bytes => .blob []
  | _ => .number 0

/-- Two values are the same. Floating-point values are compared as numbers. -/
def same (k : ScalarKind) : Datum → Datum → Bool
  | .number a, .number b =>
    match k with
    | .float => Decimal.Format.single.same a b
    | .double => Decimal.Format.double.same a b
    | _ => a == b
  | .blob a, .blob b => a == b
  | _, _ => false

end ScalarKind

/-- What a field holds. -/
inductive Kind where
  | scalar (k : ScalarKind)
  /-- A message behind its length. -/
  | message (type : String)
  /-- A message between two keys. -/
  | group (type : String)
deriving DecidableEq, Repr

/-- How many values a field holds. -/
inductive Arity where
  | single
  | list
  /-- One entry for each key; the values are entry messages. -/
  | map
deriving DecidableEq, Repr

/-- A field of a message type. -/
structure Field where
  number : Nat
  name : String
  kind : Kind
  arity : Arity
  /-- The values are written in one stretch. -/
  packed : Bool
  /-- A default value is told apart from no value. -/
  hasPresence : Bool
  /-- The choice that the field belongs to. -/
  oneof : Option Nat := none
  /-- The value that the field has when it is absent; none stands for the zero of its kind. -/
  default? : Option Datum := none
  /-- The names of its numbers, when the field is of an enumeration. -/
  numberNames : List (String × Int32) := []
  /-- The field was added to the type from outside; then its name is a full one. -/
  isExtension : Bool := false
deriving DecidableEq, Repr

/-- The default value of a field without inner structure. -/
def Field.defaultDatum (f : Field) (k : ScalarKind) : Datum := f.default?.getD k.zero

/-- Field numbers from `first` on, up to below `stop`. -/
structure NumberRange where
  first : Int
  stop : Int
deriving DecidableEq, Repr

def NumberRange.contains (r : NumberRange) (n : Int) : Bool := r.first ≤ n && n < r.stop

/-- Which numbers the fields of a message type may have. -/
structure Numbering where
  /-- The numbers that no field may have. -/
  reserved : List NumberRange := []
  /-- The numbers that are set aside for fields from outside. -/
  extensions : List NumberRange := []
deriving DecidableEq, Repr

namespace Numbering

/-- The largest field number. -/
def largest : Int := 2 ^ 29 - 1

/-- The numbers that no field of any type has. -/
def unused : NumberRange := ⟨19000, 20000⟩

/-- A field may have the number. A field from outside has one of those set aside for such fields,
any other field has none of them. -/
def allows (r : Numbering) (isFromOutside : Bool) (n : Int) : Bool :=
  1 ≤ n && n ≤ largest && !unused.contains n && !r.reserved.any (·.contains n)
    && r.extensions.any (·.contains n) == isFromOutside

end Numbering

/-- A message type, with its fields in number order. -/
structure MessageType where
  name : String
  fields : List Field
  /-- The type is that of the entries of a map. -/
  isEntry : Bool
  numbering : Numbering := {}
deriving DecidableEq, Repr

namespace MessageType

def field? (t : MessageType) (number : Nat) : Option Field := t.fields.find? (·.number == number)

end MessageType

end Notary.Schema
