/-
Hexadecimal text.

Two digits a byte, written in lower case and read in either case. What is read is the UTF-8 form of
the text, so a position counts bytes and a character that is no digit is reported byte by byte.

* `encode`, `decode` — the digits of a byte string, and the byte string of its digits.
* `FixedBytes.ofHex` — a byte string of fixed length from its digits.
-/

import Notary.Bytes
import Notary.Text.Quoted

namespace Notary.Text.Hex

/-- The digit of a number below sixteen. -/
def digit (n : Nat) : Char :=
  if n < 10 then Char.ofNat (48 + n) else Char.ofNat (87 + n)

/-- The number of a digit of either case. -/
def value? (c : Char) : Option Nat :=
  if '0' ≤ c ∧ c ≤ '9' then some (c.toNat - 48)
  else if 'a' ≤ c ∧ c ≤ 'f' then some (c.toNat - 87)
  else if 'A' ≤ c ∧ c ≤ 'F' then some (c.toNat - 55)
  else none

/-- The two digits of a byte. -/
def digits (b : UInt8) : List Char := [digit (b.toNat / 16), digit (b.toNat % 16)]

/-- The digits of a byte string. -/
def encode (bs : Bytes) : String := String.ofList (bs.flatMap digits)

/-- Why a text is not a byte string in digits. -/
inductive Fault where
  | oddLength
  | badDigit (byte : UInt8) (position : Nat)
deriving DecidableEq, Repr

def Fault.message : Fault → String
  | .oddLength => "Odd number of digits"
  | .badDigit byte position =>
    s!"Invalid character {Quoted.char (Char.ofNat byte.toNat)} at position {position}"

/-- Reads pairs of digits; the first byte of text that is none is reported. -/
def decodePairs : Nat → Bytes → Except Fault Bytes
  | _, [] => .ok []
  | _, [_] => .error .oddLength
  | i, a :: b :: rest =>
    match value? (Char.ofNat a.toNat) with
    | none => .error (.badDigit a i)
    | some x =>
      match value? (Char.ofNat b.toNat) with
      | none => .error (.badDigit b (i + 1))
      | some y =>
        match decodePairs (i + 2) rest with
        | .error e => .error e
        | .ok bs => .ok (UInt8.ofNat (16 * x + y) :: bs)

/-- The byte string of its digits. An odd number of digits is reported before any other fault. -/
def decode (s : String) : Except Fault Bytes :=
  let bs := Bytes.ofText s
  if bs.length % 2 = 1 then .error .oddLength else decodePairs 0 bs

/-- Why a text is not a byte string of the wanted length. -/
inductive WidthFault where
  | digits (fault : Fault)
  | width (expected actual : Nat)
deriving DecidableEq, Repr

def WidthFault.message : WidthFault → String
  | .digits fault => s!"invalid hex: {fault.message}"
  | .width expected actual => s!"expected {expected} hex characters, got {actual}"

end Notary.Text.Hex

namespace Notary.FixedBytes

open Text

/-- The digits of the byte string, which is how it is shown. -/
def toHex {n : Nat} (b : FixedBytes n) : String := Hex.encode b.toList

/-- The byte string from exactly twice as many digits. -/
def ofHex (n : Nat) (s : String) : Except Hex.WidthFault (FixedBytes n) :=
  match Hex.decode s with
  | .error e => .error (.digits e)
  | .ok bs =>
    match ofBytes? n bs with
    | none => .error (.width (2 * n) s.utf8ByteSize)
    | some b => .ok b

/-- The byte string under the name of its type. -/
def named {n : Nat} (b : FixedBytes n) (name : String) : String := s!"{name}({b.toHex})"

end Notary.FixedBytes
