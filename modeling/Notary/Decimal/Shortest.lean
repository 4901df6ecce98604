/-
The shortest decimal text that reads back as a binary floating-point number.

A positive number m·2^q stands for all reals that round to it: those less than half a step away, and
the two ends too when m is even. Below the least mantissa of full width the step is half as long,
unless it is the shortest step there is. For one digit, two digits and so on, the two neighbours of
the number on the grid of that many digits are tried; the first grid with a neighbour among those
reals wins, and of two neighbours the nearer, or the even one when they are equally near.

* `digits` — the digits and the power of ten of the first of them.
* `Style.text` — the digits as positional or exponential text.
-/

import Notary.Bytes

namespace Notary.Decimal

/-- A positive rational number. -/
structure Ratio where
  num : Nat
  den : Nat

/-- A positive binary number m·2^q. -/
structure Binary where
  m : Nat
  q : Int

/-- `k · 2^q` as a ratio. -/
def scaled (k : Nat) (q : Int) : Ratio :=
  if 0 ≤ q then ⟨k * 2 ^ q.toNat, 1⟩ else ⟨k, 2 ^ (-q).toNat⟩

/-- `k · 10^e` as a ratio. -/
def decimal (k : Nat) (e : Int) : Ratio :=
  if 0 ≤ e then ⟨k * 10 ^ e.toNat, 1⟩ else ⟨k, 10 ^ (-e).toNat⟩

def Ratio.le (a b : Ratio) : Bool := a.num * b.den ≤ b.num * a.den

def Ratio.lt (a b : Ratio) : Bool := a.num * b.den < b.num * a.den

/-- The whole part of `r / 10^e`. -/
def Ratio.floorAt (r : Ratio) (e : Int) : Nat :=
  if 0 ≤ e then r.num / (r.den * 10 ^ e.toNat) else r.num * 10 ^ (-e).toNat / r.den

/-- The least mantissa of full width. -/
def leastFull : Nat := 2 ^ 52

/-- The exponent of the shortest step. -/
def leastPower : Int := -1074

/-- Half a step below the number. -/
def Binary.lower (b : Binary) : Ratio :=
  if b.m = leastFull ∧ leastPower < b.q then scaled (4 * b.m - 1) (b.q - 2)
  else scaled (2 * b.m - 1) (b.q - 1)

/-- The decimal number rounds to the binary one. -/
def Binary.roundsFrom (b : Binary) (k : Nat) (e : Int) : Bool :=
  let v := decimal k e
  let lower := b.lower
  let upper := scaled (2 * b.m + 1) (b.q - 1)
  if b.m % 2 = 0 then lower.le v && v.le upper else lower.lt v && v.lt upper

/-- Of `k` and `k + 1` in units of `10^e`, the one nearer to the number. -/
def Binary.nearer (b : Binary) (k : Nat) (e : Int) : Nat :=
  let v := scaled (2 * b.m) b.q
  let middle := decimal (2 * k + 1) e
  if v.lt middle then k else if middle.lt v then k + 1 else if k % 2 = 0 then k else k + 1

/-- The power of ten of the first digit: the largest one up to a start that is not above the
number. -/
def Binary.magnitude (b : Binary) : Nat → Int → Int
  | 0, e => e
  | n + 1, e => if (decimal 1 e).le (scaled b.m b.q) then e else magnitude b n (e - 1)

/-- The shortest digits on the grids of `n` and more digits, at most seventeen. -/
def Binary.search (b : Binary) (e : Int) : Nat → Nat → Nat × Int
  | 0, n => ((scaled b.m b.q).floorAt (e - n + 1), e - n + 1)
  | left + 1, n =>
    let g := e - n + 1
    let k := (scaled b.m b.q).floorAt g
    match b.roundsFrom k g, b.roundsFrom (k + 1) g with
    | true, true => (b.nearer k g, g)
    | true, false => (k, g)
    | false, true => (k + 1, g)
    | false, false => search b e left (n + 1)

/-- The shortest digits, without zeros at the end, and the power of ten of the first one. -/
def Binary.digits (b : Binary) : List Char × Int :=
  let (k, g) := b.search (b.magnitude 700 310) 17 1
  let ds := Nat.toDigits 10 k
  ((ds.reverse.dropWhile (· = '0')).reverse, g + ds.length - 1)

/-- How digits become text: powers of ten of the first digit from `low` to `high` are written
positionally, all others with an exponent behind its sign. -/
structure Style where
  low : Int
  high : Int

/-- The text of digits whose first one has the given power of ten. -/
def Style.text (s : Style) (ds : List Char) (e : Int) : String :=
  let zeros (n : Int) : List Char := List.replicate n.toNat '0'
  if s.low ≤ e ∧ e ≤ s.high then
    if e < 0 then String.ofList (['0', '.'] ++ zeros (-e - 1) ++ ds)
    else
      let whole := e.toNat + 1
      if ds.length ≤ whole then
        String.ofList (ds ++ List.replicate (whole - ds.length) '0' ++ ['.', '0'])
      else String.ofList (ds.take whole ++ '.' :: ds.drop whole)
  else
    let power := Nat.toDigits 10 e.natAbs
    let tail := match ds.drop 1 with | [] => [] | r => '.' :: r
    String.ofList (ds.take 1 ++ tail ++ ['e', if e < 0 then '-' else '+'] ++ power)

/-- The parts of a finite number other than zero: whether it is negative, and its size. -/
def ofFloat (f : Float) : Bool × Binary :=
  let bits := f.toBits.toNat
  let fraction : Nat := bits % 2 ^ 52
  let power : Nat := bits / 2 ^ 52 % 2 ^ 11
  let negative : Bool := 2 ^ 63 ≤ bits
  if power = 0 then (negative, ⟨fraction, leastPower⟩)
  else (negative, ⟨fraction + leastFull, leastPower + power - 1⟩)

/-- The text of a finite number in a style. -/
def Style.float (s : Style) (f : Float) : String :=
  let (negative, b) := ofFloat f
  let sign := if negative then "-" else ""
  if b.m = 0 then sign ++ "0.0"
  else
    let (ds, e) := b.digits
    sign ++ s.text ds e

end Notary.Decimal
