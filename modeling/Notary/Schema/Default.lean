/-
Default values of fields, which are declared as texts.

* `ScalarKind.ofText?` — the value of a kind that a text stands for.
-/

import Notary.Schema.Type
import Notary.Text.Hex

namespace Notary.Schema

open Notary.Decimal (Format)

/-- The whole number that a text stands for: digits behind an optional sign. -/
def wholeOf? (s : String) : Option Int :=
  let (negative, cs) := Format.signOf s.toList
  let (ds, rest) := Format.digitsOf cs
  if ds.isEmpty || !rest.isEmpty then none
  else some (if negative then -(Format.valueOf ds : Int) else Format.valueOf ds)

/-- The byte of two hexadecimal digits; instead of the first there may be a plus sign. -/
def hexByte? (high low : Char) : Option UInt8 := do
  let n ← if high = '+' then some 0 else Text.Hex.value? high
  return UInt8.ofNat (16 * n + (← Text.Hex.value? low))

/-- The byte of a letter behind a backslash. -/
def escapedByte? (c : Char) : Option UInt8 :=
  [('a', 7), ('b', 8), ('f', 12), ('n', 10), ('r', 13), ('t', 9), ('v', 11), ('\\', 92), ('?', 63),
   ('\'', 39), ('"', (34 : UInt8))].lookup c

/-- The bytes of a text in which a backslash starts a byte that is given by a letter, by up to three
octal digits or by two hexadecimal ones. Each step takes a character. -/
def unescape? : Nat → List Char → Option Bytes
  | 0, _ => some []
  | _, [] => some []
  | k + 1, '\\' :: c :: rest =>
    let octal := ((c :: rest).take 3).takeWhile fun c => '0' ≤ c && c ≤ '7'
    if !octal.isEmpty then
      let n := octal.foldl (fun n c => 8 * n + (c.toNat - 48)) 0
      (unescape? k ((c :: rest).drop octal.length)).map (UInt8.ofNat n :: ·)
    else if c = 'x' ∨ c = 'X' then
      match rest with
      | a :: b :: rest => do
        let byte ← hexByte? a b
        let bytes ← unescape? k rest
        return byte :: bytes
      | _ => none
    else do
      let b ← escapedByte? c
      let bytes ← unescape? k rest
      return b :: bytes
  | _ + 1, ['\\'] => none
  | k + 1, c :: rest => (unescape? k rest).map (Bytes.ofText (String.ofList [c]) ++ ·)

namespace ScalarKind

/-- How many bits the numbers of a kind have, and whether there are negative ones. -/
def width : ScalarKind → Nat × Bool
  | .int32 | .sint32 | .sfixed32 | .enumeration => (32, true)
  | .int64 | .sint64 | .sfixed64 => (64, true)
  | .uint32 | .fixed32 => (32, false)
  | _ => (64, false)

/-- A whole number as it stands on the wire. -/
def ofInt (k : ScalarKind) (n : Int) : Datum :=
  match k with
  | .sint32 | .sint64 => .number (if 0 ≤ n then 2 * n else -2 * n - 1).toNat
  | .fixed32 | .sfixed32 => .number (n % 2 ^ 32).toNat
  | _ => .number (n % 2 ^ 64).toNat

/-- The kind has the number. -/
def has (k : ScalarKind) (n : Int) : Bool :=
  let (bits, signed) := k.width
  if signed then -2 ^ (bits - 1) ≤ n && n < 2 ^ (bits - 1) else 0 ≤ n && n < 2 ^ bits

/-- The whole number that a text stands for, when the kind has it. Kinds without negative numbers
have no minus either. -/
def ofWhole? (k : ScalarKind) (s : String) : Option Datum :=
  if !k.width.2 && s.toList.contains '-' then none
  else ((wholeOf? s).filter k.has).map k.ofInt

/-- The value of a kind that a text stands for. An enumeration has its own names. -/
def ofText? (k : ScalarKind) (names : List (String × Int32)) (s : String) : Option Datum :=
  match k with
  | .double => (Format.double.ofText? s).map .number
  | .float => (Format.single.ofText? s).map .number
  | .bool => if s = "true" then some (.number 1) else if s = "false" then some (.number 0) else none
  | .string => some (.blob (Bytes.ofText s))
  | .bytes => (unescape? (s.length + 1) s.toList).map .blob
  | .enumeration => (names.lookup s).map fun n => k.ofInt n.toInt
  | _ => k.ofWhole? s

end ScalarKind

end Notary.Schema
