/-
Field keys, and passing over fields that nothing is known about.

* `Key.read`, `Key.write` — a field's number together with the layout of its value.
* `skip` — passes over one field, with all fields of a group.
-/

import Notary.Bytes
import Notary.Wire.Fault
import Notary.Wire.Varint

namespace Notary.Wire

/-- How deep messages and groups may be nested. -/
def depthLimit : Nat := 100

namespace Key

def write (number : Nat) (w : WireType) : Bytes := Varint.write (number * 8 + w.number)

/-- The key in front of a byte string. A key has at most 32 bits, a known layout and a field number
above zero; the first of these that fails is reported. -/
def read (bs : Bytes) : Except Cause (Nat × WireType × Bytes) :=
  match Varint.read bs with
  | .error c => .error c
  | .ok (key, rest) =>
    if 2 ^ 32 ≤ key then .error (.invalidKey key)
    else match WireType.ofNumber? (key % 8) with
      | none => .error (.unknownWireType (key % 8))
      | some w => if key / 8 = 0 then .error .zeroTag else .ok (key / 8, w, rest)

end Key

/-- The first `n` bytes and the rest, when there are so many. -/
def takeBytes (n : Nat) (bs : Bytes) : Except Cause (Bytes × Bytes) :=
  if n ≤ bs.length then .ok (bs.take n, bs.drop n) else .error .underflow

/-- A length and as many bytes. -/
def readDelimited (bs : Bytes) : Except Cause (Bytes × Bytes) :=
  match Varint.read bs with
  | .error c => .error c
  | .ok (n, rest) => takeBytes n rest

/-- The layout must be the expected one. -/
def expect (expected actual : WireType) : Except Cause Unit :=
  if actual = expected then .ok () else .error (.wireType actual expected)

/-- Passes over the fields of a group up to its end. Every field takes a byte, so the number of
bytes left bounds the number of fields. -/
def skipGroup (field : Nat → WireType → Bytes → Except Cause Bytes) (number : Nat) :
    Nat → Bytes → Except Cause Bytes
  | 0, _ => .error .invalidVarint
  | k + 1, bs =>
    match Key.read bs with
    | .error c => .error c
    | .ok (n, .endGroup, rest) => if n = number then .ok rest else .error .unexpectedEndGroup
    | .ok (n, w, rest) =>
      match field n w rest with
      | .error c => .error c
      | .ok rest => skipGroup field number k rest

/-- Passes over the value of a field whose key has been read. Each nested group needs one more level
of depth, and so does what it holds. -/
def skip : Nat → Nat → WireType → Bytes → Except Cause Bytes
  | 0, _, _, _ => .error .depthLimit
  | d + 1, number, w, bs =>
    match w with
    | .varint => (Varint.read bs).map (·.2)
    | .fixed32 => (takeBytes 4 bs).map (·.2)
    | .fixed64 => (takeBytes 8 bs).map (·.2)
    | .delimited => (readDelimited bs).map (·.2)
    | .startGroup => skipGroup (fun n w bs => skip d n w bs) number (bs.length + 1) bs
    | .endGroup => .error .unexpectedEndGroup

end Notary.Wire
