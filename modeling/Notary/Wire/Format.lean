/-
Message formats: how the fields of a structure are written and read.

A format lists the fields of a message type in number order. A scalar field is left out when it has
its default value; a message that is present is written even when it is empty. Reading keeps the
last value of a scalar field, merges messages, and passes over fields it does not know.

* `Scalar`, `Field`, `Format` — a value, a field and a message type on the wire.
* `encode`, `decode` — the bytes of a message, and the message of its bytes.
-/

import Notary.Bytes
import Notary.Wire.Fault
import Notary.Wire.Key
import Notary.Wire.Varint

namespace Notary.Wire

/-- A value without inner structure on the wire. -/
structure Scalar (α : Type) where
  wire : WireType
  blank : α
  write : α → Bytes
  read : Bytes → Except Cause (α × Bytes)

namespace Scalar

/-- A byte string behind its length. -/
def blob : Scalar Bytes where
  wire := .delimited
  blank := []
  write b := Varint.write b.length ++ b
  read := readDelimited

/-- A text behind the length of its UTF-8 form. -/
def text : Scalar String where
  wire := .delimited
  blank := ""
  write s := let b := Bytes.ofText s; Varint.write b.length ++ b
  read bs :=
    match readDelimited bs with
    | .error c => .error c
    | .ok (b, rest) =>
      match Bytes.toText? b with
      | none => .error .notUtf8
      | some s => .ok (s, rest)

/-- A truth value; every number but zero is true. -/
def flag : Scalar Bool where
  wire := .varint
  blank := false
  write b := Varint.write b.toNat
  read bs := (Varint.read bs).map fun (n, rest) => (n != 0, rest)

/-- The varint that stands for a signed number: its value modulo 2⁶⁴. -/
def signedToNat (i : Int32) : Nat := (i.toInt % 2 ^ 64).toNat

/-- The number of an enumeration, known or not. Only the lowest 32 bits count. -/
def enumeration : Scalar Int32 where
  wire := .varint
  blank := 0
  write i := Varint.write (signedToNat i)
  read bs := (Varint.read bs).map fun (n, rest) => (Int32.ofNat n, rest)

end Scalar

/-- Reads values while more than `stop` bytes are left. Every value takes a byte, so the number of
bytes to read bounds the number of values. -/
def repeatUntil {ε σ : Type} (stop : Nat) (step : σ → Bytes → Except ε (σ × Bytes)) :
    Nat → σ → Bytes → Except ε (σ × Bytes)
  | 0, a, bs => .ok (a, bs)
  | k + 1, a, bs =>
    if bs.length ≤ stop then .ok (a, bs)
    else match step a bs with
      | .error e => .error e
      | .ok (a, rest) => repeatUntil stop step k a rest

/-- A length, and values over exactly so many bytes. A value may run past the end of its stretch, as
long as there are bytes; that is noticed after it. -/
def within {ε σ : Type} (fault : Cause → ε) (step : σ → Bytes → Except ε (σ × Bytes)) (a : σ)
    (bs : Bytes) : Except ε (σ × Bytes) :=
  match Varint.read bs with
  | .error c => .error (fault c)
  | .ok (n, rest) =>
    if rest.length < n then .error (fault .underflow)
    else
      let stop := rest.length - n
      match repeatUntil stop step n a rest with
      | .error e => .error e
      | .ok (a, rest) =>
        if rest.length = stop then .ok (a, rest) else .error (fault .lengthExceeded)

/-- One field of the message type `M`. The first argument of `merge` is the depth that is left. -/
structure Field (M : Type) where
  number : Nat
  name : String
  encode : M → Bytes
  merge : Nat → WireType → M → Bytes → Except Fault (M × Bytes)

/-- A message type: its name, the message without content, and its fields in number order. -/
structure Format (M : Type) where
  name : String
  blank : M
  fields : List (Field M)

namespace Format

variable {M : Type}

/-- The bytes of a message: its fields one after the other. -/
def write (f : Format M) (m : M) : Bytes := f.fields.flatMap fun fd => fd.encode m

/-- Reads one field, key and value, into a message. -/
def mergeField (f : Format M) (depth : Nat) (m : M) (bs : Bytes) : Except Fault (M × Bytes) :=
  match Key.read bs with
  | .error c => .error (.ofCause c)
  | .ok (number, w, rest) =>
    match f.fields.find? (·.number == number) with
    | some fd =>
      match fd.merge depth w m rest with
      | .error e => .error (e.inField f.name fd.name)
      | .ok r => .ok r
    | none =>
      match skip depth number w rest with
      | .error c => .error (.ofCause c)
      | .ok rest => .ok (m, rest)

/-- Reads an embedded message into one that may have content already. -/
def mergeNested (f : Format M) (depth : Nat) (w : WireType) (m : M) (bs : Bytes) :
    Except Fault (M × Bytes) :=
  match expect .delimited w with
  | .error c => .error (.ofCause c)
  | .ok () =>
    match depth with
    | 0 => .error (.ofCause .depthLimit)
    | d + 1 => within Fault.ofCause (f.mergeField d) m bs

/-- The message that a byte string holds. -/
def read (f : Format M) (bs : Bytes) : Except Fault M :=
  (repeatUntil 0 (f.mergeField depthLimit) bs.length f.blank bs).map (·.1)

/-- A message behind its length. -/
def writeNested (f : Format M) (m : M) : Bytes :=
  let b := f.write m
  Varint.write b.length ++ b

end Format

namespace Field

variable {M α : Type}

/-- A scalar field, left out when it has its default value. -/
def scalar [DecidableEq α] (s : Scalar α) (number : Nat) (name : String) (get : M → α)
    (set : α → M → M) : Field M where
  number := number
  name := name
  encode m := if get m = s.blank then [] else Key.write number s.wire ++ s.write (get m)
  merge _ w m bs :=
    match expect s.wire w with
    | .error c => .error (.ofCause c)
    | .ok () =>
      match s.read bs with
      | .error c => .error (.ofCause c)
      | .ok (a, rest) => .ok (set a m, rest)

/-- A scalar field that tells its default value from no value. -/
def given (s : Scalar α) (number : Nat) (name : String) (get : M → Option α)
    (set : Option α → M → M) : Field M where
  number := number
  name := name
  encode m :=
    match get m with
    | none => []
    | some a => Key.write number s.wire ++ s.write a
  merge _ w m bs :=
    match expect s.wire w with
    | .error c => .error (.ofCause c)
    | .ok () =>
      match s.read bs with
      | .error c => .error (.ofCause c)
      | .ok (a, rest) => .ok (set (some a) m, rest)

/-- Reads one value of a repeated scalar, or a stretch of them when values can stand in one. -/
def mergeScalars (s : Scalar α) (get : M → List α) (set : List α → M → M) (w : WireType) (m : M)
    (bs : Bytes) : Except Fault (M × Bytes) :=
  let one (m : M) (bs : Bytes) : Except Fault (M × Bytes) :=
    match s.read bs with
    | .error c => .error (.ofCause c)
    | .ok (a, rest) => .ok (set (get m ++ [a]) m, rest)
  if w = .delimited ∧ s.wire ≠ .delimited then within Fault.ofCause one m bs
  else
    match expect s.wire w with
    | .error c => .error (.ofCause c)
    | .ok () => one m bs

/-- A repeated scalar, each value written with the key of the field. -/
def listed (s : Scalar α) (number : Nat) (name : String) (get : M → List α)
    (set : List α → M → M) : Field M where
  number := number
  name := name
  encode m := (get m).flatMap fun a => Key.write number s.wire ++ s.write a
  merge _ w m bs := mergeScalars s get set w m bs

/-- A repeated scalar, written in one stretch and read in either form. -/
def packed (s : Scalar α) (number : Nat) (name : String) (get : M → List α)
    (set : List α → M → M) : Field M where
  number := number
  name := name
  encode m :=
    match get m with
    | [] => []
    | xs =>
      let b := xs.flatMap s.write
      Key.write number .delimited ++ (Varint.write b.length ++ b)
  merge _ w m bs := mergeScalars s get set w m bs

/-- An embedded message that may be absent. -/
def optional (f : Format α) (number : Nat) (name : String) (get : M → Option α)
    (set : Option α → M → M) : Field M where
  number := number
  name := name
  encode m :=
    match get m with
    | none => []
    | some a => Key.write number .delimited ++ f.writeNested a
  merge depth w m bs :=
    match f.mergeNested depth w ((get m).getD f.blank) bs with
    | .error e => .error e
    | .ok (a, rest) => .ok (set (some a) m, rest)

/-- A list of embedded messages. -/
def repeated (f : Format α) (number : Nat) (name : String) (get : M → List α)
    (set : List α → M → M) : Field M where
  number := number
  name := name
  encode m := (get m).flatMap fun a => Key.write number .delimited ++ f.writeNested a
  merge depth w m bs :=
    match f.mergeNested depth w f.blank bs with
    | .error e => .error e
    | .ok (a, rest) => .ok (set (get m ++ [a]) m, rest)

end Field

/-- Types of messages with a format on the wire. -/
class Message (M : Type) where
  format : Format M

/-- The bytes of a message. -/
def encode {M : Type} [Message M] (m : M) : Bytes := (Message.format (M := M)).write m

/-- The message of a byte string. -/
def decode {M : Type} [Message M] (bs : Bytes) : Except Fault M := (Message.format (M := M)).read bs

end Notary.Wire
