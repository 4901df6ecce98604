/-
Messages of types known only when the program runs.

A message holds a slot for each field that has something to say, in number order, and the fields
that its type does not know, also in number order. A field without presence that has its default
value says nothing and has no slot; so has an empty list without presence.

* `Message.put` — gives a field its values, and takes them from the other members of its choice.
* `Message.bytes` — the bytes of a message: the fields of its type, then all others by number.
-/

import Notary.Schema.Type
import Notary.Schema.Unknown

namespace Notary.Schema

open Notary.Wire

mutual

/-- A value of a field. -/
inductive Value where
  | datum (d : Datum)
  | message (m : Message)

/-- The values of a field. -/
inductive Slot where
  | mk (field : Field) (values : List Value)

/-- A message of a type, with the fields that the type does not know. -/
inductive Message where
  | mk (type : String) (slots : List Slot) (unknown : List Unknown)

end

namespace Slot

def field : Slot → Field
  | .mk f _ => f

def values : Slot → List Value
  | .mk _ vs => vs

end Slot

namespace Message

/-- The full name of the type. -/
def type : Message → String
  | .mk t _ _ => t

def slots : Message → List Slot
  | .mk _ ss _ => ss

def unknown : Message → List Unknown
  | .mk _ _ us => us

/-- The message of a type that says nothing. -/
def blank (type : String) : Message := .mk type [] []

end Message

/-- The values of the field are the entries of a map. -/
def Field.holdsEntries (f : Field) : Bool :=
  match f.arity, f.kind with
  | .map, .message _ => true
  | _, _ => false

/-- Values of a field on the wire: each with the field's key, or all in one stretch. -/
def Field.frame (f : Field) (bodies : List Bytes) : Bytes :=
  let delimited (b : Bytes) : Bytes := Key.write f.number .delimited ++ (Varint.write b.length ++ b)
  match f.kind with
  | .scalar k =>
    if f.packed then delimited bodies.flatten
    else bodies.flatMap fun b => Key.write f.number k.wire ++ b
  | .message _ => bodies.flatMap delimited
  | .group _ =>
    bodies.flatMap fun b => Key.write f.number .startGroup ++ (b ++ Key.write f.number .endGroup)

/-- Fields by their numbers: those of a type, then those from outside among the unknown ones. -/
def arrange (slots : List (Field × Bytes)) (unknown : List (Nat × Bytes)) : Bytes :=
  let (outer, own) := slots.partition fun (f, _) => f.isExtension
  let others := outer.map (fun (f, b) => (f.number, b)) ++ unknown
  own.flatMap (·.2) ++ (others.mergeSort fun a b => a.1 ≤ b.1).flatMap (·.2)

mutual

/-- The bytes of a value without its key. -/
def Value.body (k : Kind) : Value → Bytes
  | .datum d =>
    match k with
    | .scalar s => s.write d
    | _ => []
  | .message m => m.bytes

/-- The bytes of each of a number of values. -/
def bodies (k : Kind) : List Value → List Bytes
  | [] => []
  | v :: rest => v.body k :: bodies k rest

def Slot.bytes : Slot → Bytes
  | .mk f vs => f.frame (bodies f.kind vs)

/-- The bytes of each of a number of slots. -/
def slotsBytes : List Slot → List (Field × Bytes)
  | [] => []
  | s :: rest => (s.field, s.bytes) :: slotsBytes rest

/-- The bytes of a message. -/
def Message.bytes : Message → Bytes
  | .mk _ slots unknown => arrange (slotsBytes slots) (unknown.map fun u => (u.number, u.bytes))

end

/-- The field says nothing by having these values: no presence, and no values or the default. -/
def Field.isSilent (f : Field) (vs : List Value) : Bool :=
  !f.hasPresence && match vs with
    | [] => true
    | [.datum d] =>
      match f.arity, f.kind with
      | .single, .scalar k => k.same d (f.defaultDatum k)
      | _, _ => false
    | _ => false

/-- The values that a field has when nothing is known about it. -/
def Field.defaultValues (f : Field) : List Value :=
  match f.arity, f.kind with
  | .single, .scalar k => [.datum (f.defaultDatum k)]
  | .single, .message t | .single, .group t => [.message (.blank t)]
  | _, _ => []

/-- Two different members of one choice. -/
def Field.excludes (f g : Field) : Bool :=
  f.oneof.isSome && f.oneof == g.oneof && f.number != g.number

/-- Puts a slot in its place by number, instead of one that is there. -/
def Slot.insert (s : Slot) : List Slot → List Slot
  | [] => [s]
  | t :: rest =>
    if s.field.number < t.field.number then s :: t :: rest
    else if s.field.number = t.field.number then s :: rest
    else t :: insert s rest

namespace Message

/-- The values of a field. -/
def values (m : Message) (number : Nat) : List Value :=
  ((m.slots.find? (·.field.number == number)).map Slot.values).getD []

/-- Gives a field its values. The other members of its choice lose theirs. -/
def put (f : Field) (vs : List Value) : Message → Message
  | .mk type slots unknown =>
    let slots := slots.filter fun s => !f.excludes s.field
    if f.isSilent vs then
      .mk type (slots.filter fun s => s.field.number != f.number) unknown
    else .mk type ((Slot.mk f vs).insert slots) unknown

/-- Keeps an unknown field. -/
def keep (u : Unknown) : Message → Message
  | .mk type slots unknown => .mk type slots (u.insert unknown)

/-- The message that a field holds, blank when it holds none. -/
def child (m : Message) (f : Field) (type : String) : Message :=
  match m.values f.number with
  | .message c :: _ => c
  | _ => blank type

end Message

end Notary.Schema
