/-
Fields that a message type says nothing about. They are kept, with all that a group holds, so that a
message is written back with them.

* `Unknown` — a field with its number and value.
* `Unknown.take` — the value of an unknown field, read behind its key.
-/

import Notary.Wire.Format

namespace Notary.Schema

open Notary.Wire

/-- A field that its message type does not know. -/
inductive Unknown where
  | varint (number value : Nat)
  | fixed64 (number : Nat) (bytes : Bytes)
  | blob (number : Nat) (bytes : Bytes)
  | group (number : Nat) (fields : List Unknown)
  | fixed32 (number : Nat) (bytes : Bytes)

namespace Unknown

def number : Unknown → Nat
  | .varint n _ => n
  | .fixed64 n _ => n
  | .blob n _ => n
  | .group n _ => n
  | .fixed32 n _ => n

mutual

/-- The bytes of a field, key and value. -/
def bytes : Unknown → Bytes
  | .varint n v => Key.write n .varint ++ Varint.write v
  | .fixed64 n b => Key.write n .fixed64 ++ b
  | .blob n b => Key.write n .delimited ++ (Varint.write b.length ++ b)
  | .group n fs => Key.write n .startGroup ++ (allBytes fs ++ Key.write n .endGroup)
  | .fixed32 n b => Key.write n .fixed32 ++ b

/-- The bytes of fields, one after the other. -/
def allBytes : List Unknown → Bytes
  | [] => []
  | f :: rest => bytes f ++ allBytes rest

end

/-- The fields of a group up to its end, in the order in which they come. Every field takes a byte,
so the number of bytes left bounds their number. -/
def takeGroup (field : Nat → WireType → Bytes → Except Cause (Unknown × Bytes)) (number : Nat) :
    Nat → List Unknown → Bytes → Except Cause (List Unknown × Bytes)
  | 0, _, _ => .error .invalidVarint
  | k + 1, done, bs =>
    match Key.read bs with
    | .error c => .error c
    | .ok (n, .endGroup, rest) =>
      if n = number then .ok (done.reverse, rest) else .error .unexpectedEndGroup
    | .ok (n, w, rest) =>
      match field n w rest with
      | .error c => .error c
      | .ok (u, rest) => takeGroup field number k (u :: done) rest

/-- The value of a field whose key has been read. A group needs a level of depth. -/
def take (depth number : Nat) (w : WireType) (bs : Bytes) : Except Cause (Unknown × Bytes) :=
  match w with
  | .varint => (Varint.read bs).map fun (v, rest) => (.varint number v, rest)
  | .fixed64 => (takeBytes 8 bs).map fun (b, rest) => (.fixed64 number b, rest)
  | .delimited => (readDelimited bs).map fun (b, rest) => (.blob number b, rest)
  | .fixed32 => (takeBytes 4 bs).map fun (b, rest) => (.fixed32 number b, rest)
  | .endGroup => .error .unexpectedEndGroup
  | .startGroup =>
    match depth with
    | 0 => .error .depthLimit
    | d + 1 =>
      (takeGroup (take d) number (bs.length + 1) [] bs).map fun (fs, rest) =>
        (.group number fs, rest)

/-- Adds a field behind all fields of its number and of smaller ones. -/
def insert (u : Unknown) : List Unknown → List Unknown
  | [] => [u]
  | v :: rest => if v.number ≤ u.number then v :: insert u rest else u :: v :: rest

end Unknown

end Notary.Schema
