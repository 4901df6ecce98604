/-
Reading messages of types known only when the program runs.

The rules are those of typed messages: the last value of a single field counts, messages merge, and
numbers of a list come one by one or in a stretch. A map keeps one entry for each key, the last. A
group and an embedded message each need one more level of depth; an entry of a map does not.

* `Pool.decode` — the message of a type that a byte string holds.
-/

import Notary.Schema.Message
import Notary.Schema.Pool

namespace Notary.Schema

open Notary.Wire

/-- A way to read the value of a field, whose key has been read, into a message of a type. -/
abbrev Reader := MessageType → Nat → WireType → Message → Bytes → Except Cause (Message × Bytes)

/-- Reads one field, key and value. -/
def readKeyed (read : Nat → WireType → Message → Bytes → Except Cause (Message × Bytes))
    (m : Message) (bs : Bytes) : Except Cause (Message × Bytes) :=
  match Key.read bs with
  | .error c => .error c
  | .ok (n, w, rest) => read n w m rest

/-- Reads the fields of a group up to its end. Every field takes a byte, so the number of bytes left
bounds their number. -/
def readGroup (read : Nat → WireType → Message → Bytes → Except Cause (Message × Bytes))
    (number : Nat) : Nat → Message → Bytes → Except Cause (Message × Bytes)
  | 0, _, _ => .error .invalidVarint
  | k + 1, m, bs =>
    match Key.read bs with
    | .error c => .error c
    | .ok (n, .endGroup, rest) => if n = number then .ok (m, rest) else .error .unexpectedEndGroup
    | .ok (n, w, rest) =>
      match read n w m rest with
      | .error c => .error c
      | .ok (m, rest) => readGroup read number k m rest

/-- The key of an entry, as the values that its field holds. -/
def Message.entryKey (m : Message) : List Datum :=
  (m.values 1).filterMap fun
    | .datum d => some d
    | .message _ => none

/-- The entries with one more, in the place of that with the same key. Here they stand in the order
in which their keys were met first; when the message is written, a `MapOrder` says their order. -/
def insertEntry (e : Message) (vs : List Value) : List Value :=
  let isSame (v : Value) : Bool :=
    match v with
    | .message m => m.entryKey == e.entryKey
    | .datum _ => false
  if vs.any isSame then vs.map fun v => if isSame v then .message e else v
  else vs ++ [.message e]

/-- The fields of an entry. The key and the value are held apart, so no choice is made between them.
A key that is not read is the zero of its kind, whatever its field says about defaults. -/
def MessageType.entryField? (t : MessageType) (number : Nat) : Option Field :=
  if number = 1 then (t.field? 1).map fun f => { f with oneof := none, default? := none }
  else if number = 2 then (t.field? 2).map fun f => { f with oneof := none }
  else none

/-- An entry that nothing has been read of. -/
def MessageType.blankEntry (t : MessageType) : Message :=
  let put (m : Message) (number : Nat) : Message :=
    match t.entryField? number with
    | some f => m.put f f.defaultValues
    | none => m
  put (put (.blank t.name) 1) 2

namespace Pool

/-- Reads a scalar into a single field. -/
def readScalar (f : Field) (k : ScalarKind) (w : WireType) (m : Message) (bs : Bytes) :
    Except Cause (Message × Bytes) :=
  match expect k.wire w with
  | .error c => .error c
  | .ok () =>
    match k.read bs with
    | .error c => .error c
    | .ok (d, rest) => .ok (m.put f [.datum d], rest)

/-- Reads one scalar, or a stretch of them, at the end of a list. -/
def readScalars (f : Field) (k : ScalarKind) (w : WireType) (m : Message) (bs : Bytes) :
    Except Cause (Message × Bytes) :=
  let one (vs : List Value) (bs : Bytes) : Except Cause (List Value × Bytes) :=
    match k.read bs with
    | .error c => .error c
    | .ok (d, rest) => .ok (vs ++ [.datum d], rest)
  let read : Except Cause (List Value × Bytes) :=
    if w = .delimited ∧ k.isPackable then within id one (m.values f.number) bs
    else
      match expect k.wire w with
      | .error c => .error c
      | .ok () => one (m.values f.number) bs
  match read with
  | .error c => .error c
  | .ok (vs, rest) => .ok (m.put f vs, rest)

/-- Reads a message of a type between two keys, or behind its length. -/
def readChild (read : Reader) (f : Field) (type : MessageType) (isGroup : Bool) (child : Message)
    (bs : Bytes) : Except Cause (Message × Bytes) :=
  if isGroup then readGroup (read type) f.number (bs.length + 1) child bs
  else within id (readKeyed (read type)) child bs

/-- Reads a message that is the value of a field, in what there is of it when the field is single.
The reader is for messages one level deeper; there is none when the depth is used up. -/
def readMessage (p : Pool) (deeper : Option Reader) (f : Field) (name : String) (isGroup : Bool)
    (w : WireType) (m : Message) (bs : Bytes) : Except Cause (Message × Bytes) :=
  match expect (if isGroup then .startGroup else .delimited) w with
  | .error c => .error c
  | .ok () =>
    match deeper, p.type? name with
    | some read, some type =>
      let child := if f.arity = .single then m.child f name else .blank name
      match readChild read f type isGroup child bs with
      | .error c => .error c
      | .ok (c, rest) =>
        let before := if f.arity = .single then [] else m.values f.number
        .ok (m.put f (before ++ [.message c]), rest)
    | _, _ => .error .depthLimit

/-- Reads an entry of a map. The layout that its key states does not count. -/
def readEntry (read : Nat → WireType → Message → Bytes → Except Cause (Message × Bytes))
    (f : Field) (type : MessageType) (m : Message) (bs : Bytes) :
    Except Cause (Message × Bytes) :=
  match within id (readKeyed read) type.blankEntry bs with
  | .error c => .error c
  | .ok (e, rest) => .ok (m.put f (insertEntry e (m.values f.number)), rest)

/-- Reads the value of a field in a message with so much depth left. The value of an entry may be a
map in turn; each map inside a map takes a byte at least, which bounds how many there are. Fields of
an entry but its key and value are passed over. -/
def readField (p : Pool) (depth : Nat) (deeper : Option Reader) :
    Nat → Field → WireType → Message → Bytes → Except Cause (Message × Bytes)
  | 0, _, _, _, _ => .error .underflow
  | k + 1, f, w, m, bs =>
    match f.arity, f.kind with
    | .single, .scalar s => readScalar f s w m bs
    | _, .scalar s => readScalars f s w m bs
    | .map, .message name =>
      match p.type? name with
      | none => .error .depthLimit
      | some type =>
        readEntry (fun n w m bs =>
          match type.entryField? n with
          | some g => p.readField depth deeper k g w m bs
          | none => (skip depth n w bs).map fun rest => (m, rest)) f type m bs
    | _, .message name => p.readMessage deeper f name false w m bs
    | _, .group name => p.readMessage deeper f name true w m bs

/-- The field of a number: one of the type, or one that was added to it from outside. -/
def field? (p : Pool) (t : MessageType) (number : Nat) : Option Field :=
  match t.field? number with
  | some f => some f
  | none => p.extension? t.name number

/-- Reads the value of a field of a message; a field that nobody knows is kept. -/
def readKnown (p : Pool) (depth : Nat) (deeper : Option Reader) (t : MessageType) (number : Nat)
    (w : WireType) (m : Message) (bs : Bytes) : Except Cause (Message × Bytes) :=
  match p.field? t number with
  | some f => p.readField depth deeper (bs.length + 1) f w m bs
  | none => (Unknown.take depth number w bs).map fun (u, rest) => (m.keep u, rest)

/-- The reader for messages of the pool with so many levels of depth left. -/
def reader (p : Pool) : Nat → Reader
  | 0 => p.readKnown 0 none
  | d + 1 => p.readKnown (d + 1) (some (p.reader d))

/-- The message of a type that a byte string holds. -/
def decode (p : Pool) (t : MessageType) (bs : Bytes) : Except Cause Message :=
  (repeatUntil 0 (readKeyed (p.reader depthLimit t)) bs.length (.blank t.name) bs).map (·.1)

end Pool

end Notary.Schema
