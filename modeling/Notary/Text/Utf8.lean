/-
Byte strings as text, and where one stops being text.

* `Utf8.decode` — the text of a byte string, or the place of its first ill-formed character.
* `Utf8.lossy` — the text of a byte string with a mark in place of what is ill-formed.
-/

import Notary.Bytes

namespace Notary.Text.Utf8

/-- The first place at which a byte string is not UTF-8: the index of the character's first byte,
and how many bytes are wrong, unless the byte string merely ends too early. -/
structure Fault where
  index : Nat
  length : Option Nat
deriving DecidableEq, Repr

def Fault.message (f : Fault) : String :=
  match f.length with
  | some n => s!"invalid utf-8 sequence of {n} bytes from index {f.index}"
  | none => s!"incomplete utf-8 byte sequence from index {f.index}"

/-- The ranges of the bytes that may follow a first byte, in order; none for a byte that starts no
character. -/
def followers (b : UInt8) : Option (List (UInt8 × UInt8)) :=
  let tail : UInt8 × UInt8 := (0x80, 0xbf)
  if b < 0x80 then some []
  else if b < 0xc2 then none
  else if b < 0xe0 then some [tail]
  else if b = 0xe0 then some [(0xa0, 0xbf), tail]
  else if b = 0xed then some [(0x80, 0x9f), tail]
  else if b < 0xf0 then some [tail, tail]
  else if b = 0xf0 then some [(0x90, 0xbf), tail, tail]
  else if b < 0xf4 then some [tail, tail, tail]
  else if b = 0xf4 then some [(0x80, 0x8f), tail, tail]
  else none

/-- How the bytes after a first byte go on: the rest behind the character, or how many bytes are
wrong. -/
def follow : List (UInt8 × UInt8) → Nat → Bytes → Except (Option Nat) Bytes
  | [], _, bs => .ok bs
  | _ :: _, _, [] => .error none
  | (lo, hi) :: ranges, seen, b :: bs =>
    if lo ≤ b ∧ b ≤ hi then follow ranges (seen + 1) bs else .error (some seen)

/-- The first fault of a byte string that starts at an index. Every character has a byte, so the
length bounds the number of characters. -/
def locate : Nat → Nat → Bytes → Option Fault
  | 0, _, _ => none
  | _ + 1, _, [] => none
  | k + 1, i, b :: bs =>
    match followers b with
    | none => some ⟨i, some 1⟩
    | some ranges =>
      match follow ranges 1 bs with
      | .error n => some ⟨i, n⟩
      | .ok rest => locate k (i + (1 + bs.length - rest.length)) rest

/-- The text of a byte string. -/
def decode (bs : Bytes) : Except Fault String :=
  match Bytes.toText? bs with
  | some s => .ok s
  | none => .error ((locate bs.length 0 bs).getD ⟨bs.length, none⟩)

/-- The text of a byte string, with the replacement character for each run of wrong bytes. Between
two of them a byte is passed at least, so the length bounds their number. -/
def lossyFrom : Nat → Bytes → String
  | 0, _ => ""
  | k + 1, bs =>
    match locate bs.length 0 bs with
    | none => (Bytes.toText? bs).getD ""
    | some f =>
      let front := (Bytes.toText? (bs.take f.index)).getD ""
      match f.length with
      | none => front ++ "\uFFFD"
      | some n => front ++ "\uFFFD" ++ lossyFrom k (bs.drop (f.index + n))

def lossy (bs : Bytes) : String := lossyFrom (bs.length + 1) bs

end Notary.Text.Utf8
