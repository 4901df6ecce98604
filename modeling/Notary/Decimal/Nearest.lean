/-
The binary floating-point number nearest to a decimal text.

A format is given by the width of its full mantissas and the power of its shortest step. The
patterns of its positive numbers ascend with the numbers, step by step, so a pattern is the number
of steps from zero when each is as long as the steps around it; infinity comes right behind the
largest number, and what is not a number lies beyond.

* `Format.nearest` — the pattern of the number nearest to k·10^e; of two, the even one.
* `Format.ofText?` — the pattern of the number that a text stands for.
-/

import Notary.Decimal.Shortest

namespace Notary.Decimal

/-- A binary floating-point format. -/
structure Format where
  /-- The bits of a full mantissa. -/
  precision : Nat
  /-- The power of two of the shortest step. -/
  least : Int
  /-- The pattern of infinity. -/
  infinity : Nat
  /-- The pattern of minus zero: the bit of the sign. -/
  sign : Nat
deriving DecidableEq, Repr

namespace Format

/-- Numbers of 32 bits. -/
def single : Format := ⟨24, -149, 0x7F800000, 2 ^ 31⟩

/-- Numbers of 64 bits. -/
def double : Format := ⟨53, -1074, 0x7FF0000000000000, 2 ^ 63⟩

/-- The pattern of what is not a number. -/
def undefined (f : Format) : Nat := f.infinity + 2 ^ (f.precision - 2)

/-- The pattern stands for no number. -/
def isUndefined (f : Format) (pattern : Nat) : Bool := f.infinity < pattern % f.sign

/-- Two patterns stand for the same number. Both zeros are the same. -/
def same (f : Format) (a b : Nat) : Bool :=
  !f.isUndefined a && (a == b || (a % f.sign == 0 && b % f.sign == 0))

/-- The whole number nearest to a ratio in units of 2^q, the even one of two. -/
def roundAt (r : Ratio) (q : Int) : Nat :=
  let (n, d) := if 0 ≤ q then (r.num, r.den * 2 ^ q.toNat) else (r.num * 2 ^ (-q).toNat, r.den)
  let (m, rest) := (n / d, n % d)
  if d < 2 * rest ∨ (2 * rest = d ∧ m % 2 = 1) then m + 1 else m

/-- The power of two of the step around a positive ratio: a full mantissa reaches it, unless the
step would be too short. -/
def stepAt (f : Format) (r : Ratio) : Int :=
  let q : Int := (Nat.log2 r.num : Int) - Nat.log2 r.den - f.precision
  let isShort := (scaled (2 ^ f.precision) q).le r
  max f.least (if isShort then q + 1 else q)

/-- The most digits and the largest powers of ten that are told from larger ones. -/
def reach : Int := 400

/-- The pattern of the number nearest to k·10^e. -/
def nearest (f : Format) (k : Nat) (e : Int) : Nat :=
  let size : Int := (Nat.toDigits 10 k).length + e
  if k = 0 ∨ size < -reach then 0
  else if reach < size then f.infinity
  else
    let r := decimal k e
    let q := f.stepAt r
    min f.infinity ((q - f.least).toNat * 2 ^ (f.precision - 1) + roundAt r q)

/-- The digits in front of a text, and what follows them. -/
def digitsOf (cs : List Char) : List Char × List Char := cs.span Char.isDigit

/-- The number that digits stand for. -/
def valueOf (ds : List Char) : Nat := ds.foldl (fun n c => 10 * n + (c.toNat - 48)) 0

/-- A sign in front of a text: whether it is a minus, and what follows it. -/
def signOf : List Char → Bool × List Char
  | '+' :: rest => (false, rest)
  | '-' :: rest => (true, rest)
  | cs => (false, cs)

/-- The exponent behind its letter, up to the end. No exponent at all is zero. -/
def exponent? : List Char → Option Int
  | [] => some 0
  | c :: rest =>
    let (negative, cs) := signOf rest
    let (ds, rest) := digitsOf cs
    if (c = 'e' ∨ c = 'E') ∧ !ds.isEmpty ∧ rest.isEmpty then
      some (if negative then -(valueOf ds : Int) else valueOf ds)
    else none

/-- Digits with at most one point among or around them, and an exponent, as k and e of k·10^e. -/
def decimal? (cs : List Char) : Option (Nat × Int) :=
  let (whole, cs) := digitsOf cs
  let (fraction, cs) := match cs with
    | '.' :: rest => digitsOf rest
    | cs => ([], cs)
  if whole.isEmpty && fraction.isEmpty then none
  else (exponent? cs).map fun e => (valueOf (whole ++ fraction), e - fraction.length)

/-- The pattern of the number that a text stands for, with a sign or without. -/
def ofText? (f : Format) (s : String) : Option Nat :=
  let (negative, cs) := signOf s.toList
  let word := String.ofList (cs.map Char.toLower)
  let size :=
    if word = "inf" ∨ word = "infinity" then some f.infinity
    else if word = "nan" then some f.undefined
    else (decimal? cs).map fun (k, e) => f.nearest k e
  size.map fun n => if negative then f.sign + n else n

end Format

end Notary.Decimal
