/-
Numbers in JSON documents.

A whole number of up to 64 bits stays whole; all others, and minus zero, become floating-point
numbers. Digits of the mantissa beyond 64 bits do not count.

* `readNumber` — the number behind its sign.
* `skipNumber` — passes over a number without reading it.
-/

import Notary.Decimal.Shortest
import Notary.Json.Fault

namespace Notary.Json

def isDigit (c : Char) : Bool := '0' ≤ c && c ≤ '9'

def digitValue (c : Char) : Nat := c.toNat - 48

/-- The largest whole number that stays whole. -/
def maxWhole : Nat := 2 ^ 64 - 1

/-- The largest exponent that is told from larger ones. -/
def maxExponent : Nat := 2 ^ 31 - 1

/-- Floating-point numbers are shown positionally from 10⁻⁵ up to below 10¹⁶. -/
def floatStyle : Decimal.Style := ⟨-5, 15⟩

def float (positive : Bool) (f : Float) : Found :=
  .float (floatStyle.float (if positive then f else -f))

/-- A power of ten as a floating-point number. -/
def powerOfTen (n : Nat) : Float := Float.ofScientific 1 false n

/-- A mantissa times a power of ten. What underflows becomes zero after a few steps. -/
def scale : Nat → Float → Int → Except Fault Float
  | 0, f, _ => .ok f
  | k + 1, f, e =>
    if e.natAbs ≤ 308 then
      if 0 ≤ e then
        let r := f * powerOfTen e.natAbs
        if r.isInf then .error .numberOutOfRange else .ok r
      else .ok (f / powerOfTen e.natAbs)
    else if f == 0 then .ok f
    else if 0 ≤ e then .error .numberOutOfRange
    else scale k (f / powerOfTen 308) (e + 308)

def ofParts (positive : Bool) (mantissa : Nat) (e : Int) (rest : List Char) :
    Except Fault (Found × List Char) :=
  match scale 8 (Float.ofNat mantissa) e with
  | .error e => .error e
  | .ok f => .ok (float positive f, rest)

/-- The digits of an exponent after the first one. -/
def exponentDigits (positive : Bool) (mantissa : Nat) (start : Int) (up : Bool) :
    Nat → Reader Found
  | e, [] => ofParts positive mantissa (if up then start + e else start - e) []
  | e, c :: rest =>
    if isDigit c then
      if maxExponent < e * 10 + digitValue c then
        if mantissa ≠ 0 ∧ up then .error .numberOutOfRange
        else .ok (float positive 0, rest.dropWhile isDigit)
      else exponentDigits positive mantissa start up (e * 10 + digitValue c) rest
    else ofParts positive mantissa (if up then start + e else start - e) (c :: rest)

/-- An exponent behind its letter. -/
def exponent (positive : Bool) (mantissa : Nat) (start : Int) : Reader Found := fun cs =>
  let (up, cs) := match cs with
    | '+' :: rest => (true, rest)
    | '-' :: rest => (false, rest)
    | cs => (true, cs)
  match cs with
  | [] => .error (.unfinished .value)
  | c :: rest =>
    if isDigit c then exponentDigits positive mantissa start up (digitValue c) rest
    else .error .invalidNumber

/-- What may follow the digits of a floating-point number. -/
def afterDigits (positive : Bool) (mantissa : Nat) (e : Int) : Reader Found := fun cs =>
  match cs with
  | [] => ofParts positive mantissa e []
  | c :: rest =>
    if c = 'e' ∨ c = 'E' then exponent positive mantissa e rest
    else ofParts positive mantissa e (c :: rest)

/-- The digits behind the point, of which `seen` have been read. -/
def fraction (positive : Bool) (start : Int) : Nat → Nat → Reader Found
  | mantissa, seen, [] =>
    if seen = 0 then .error (.unfinished .value) else ofParts positive mantissa (start - seen) []
  | mantissa, seen, c :: rest =>
    if isDigit c then
      if maxWhole < mantissa * 10 + digitValue c then
        afterDigits positive mantissa (start - seen) (rest.dropWhile isDigit)
      else fraction positive start (mantissa * 10 + digitValue c) (seen + 1) rest
    else if seen = 0 then .error .invalidNumber
    else afterDigits positive mantissa (start - seen) (c :: rest)

/-- The digits before the point that do not count any more. -/
def longWhole (positive : Bool) (mantissa : Nat) : Nat → Reader Found
  | dropped, [] => ofParts positive mantissa dropped []
  | dropped, c :: rest =>
    if isDigit c then longWhole positive mantissa (dropped + 1) rest
    else if c = '.' then fraction positive dropped mantissa 0 rest
    else afterDigits positive mantissa dropped (c :: rest)

/-- A number that ends as a whole one. -/
def whole (positive : Bool) (n : Nat) : Found :=
  if positive then .integer n
  else if 0 < n ∧ n ≤ 2 ^ 63 then .integer (-n)
  else float false (Float.ofNat n)

/-- The digits before the point. -/
def wholeDigits (positive : Bool) : Nat → Reader Found
  | n, [] => .ok (whole positive n, [])
  | n, c :: rest =>
    if isDigit c then
      if maxWhole < n * 10 + digitValue c then longWhole positive n 1 rest
      else wholeDigits positive (n * 10 + digitValue c) rest
    else if c = '.' then fraction positive 0 n 0 rest
    else if c = 'e' ∨ c = 'E' then exponent positive n 0 rest
    else .ok (whole positive n, c :: rest)

/-- The number behind its sign. A zero in front is the only digit before the point. -/
def readNumber (positive : Bool) : Reader Found := fun cs =>
  match cs with
  | [] => .error (.unfinished .value)
  | '0' :: c :: rest =>
    if isDigit c then .error .invalidNumber else wholeDigits positive 0 (c :: rest)
  | c :: rest =>
    if isDigit c then wholeDigits positive (digitValue c) rest else .error .invalidNumber

/-- Passes over an exponent behind its letter. -/
def skipExponent : Reader Unit := fun cs =>
  let cs := match cs with
    | '+' :: rest => rest
    | '-' :: rest => rest
    | cs => cs
  match cs with
  | [] => .error .invalidNumber
  | c :: rest => if isDigit c then .ok ((), rest.dropWhile isDigit) else .error .invalidNumber

/-- Passes over what may follow the digits of a number. -/
def skipAfterDigits : Reader Unit := fun cs =>
  match cs with
  | 'e' :: rest => skipExponent rest
  | 'E' :: rest => skipExponent rest
  | cs => .ok ((), cs)

/-- Passes over the number behind its sign. -/
def skipNumber : Reader Unit := fun cs =>
  let point : Reader Unit := fun cs =>
    match cs with
    | '.' :: c :: rest =>
      if isDigit c then skipAfterDigits (rest.dropWhile isDigit) else .error .invalidNumber
    | ['.'] => .error .invalidNumber
    | cs => skipAfterDigits cs
  match cs with
  | [] => .error .invalidNumber
  | '0' :: c :: rest => if isDigit c then .error .invalidNumber else point (c :: rest)
  | c :: rest => if isDigit c then point (rest.dropWhile isDigit) else .error .invalidNumber

end Notary.Json
