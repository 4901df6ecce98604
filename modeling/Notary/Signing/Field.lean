/-
Arithmetic modulo the prime 2²⁵⁵ − 19.

Residues are natural numbers below the prime; every operation reduces its result, so operands may
be any numbers.

* `sqrtRatio?` — the even square root of a quotient, when the quotient is a square.
-/

import Notary.Bytes

namespace Notary.Signing.Field

/-- The prime. -/
def prime : Nat := 2 ^ 255 - 19

/-- The lowest `n` binary digits of a number, least significant first. -/
def bits : Nat → Nat → List Bool
  | 0, _ => []
  | n + 1, v => (v % 2 == 1) :: bits n (v / 2)

def add (a b : Nat) : Nat := (a + b) % prime

def sub (a b : Nat) : Nat := (a + (prime - b % prime)) % prime

def mul (a b : Nat) : Nat := a * b % prime

/-- The `n`-th power, for exponents of up to 255 binary digits. -/
def pow (a n : Nat) : Nat :=
  (bits 255 n).foldr (fun b r => let s := mul r r; if b then mul s a else s) 1

/-- The multiplicative inverse; the inverse of zero is zero. -/
def inv (a : Nat) : Nat := pow a (prime - 2)

/-- A square root of −1. -/
def rootOfMinusOne : Nat := pow 2 ((prime - 1) / 4)

/-- The even square root of `u / v`, when there is one. -/
def sqrtRatio? (u v : Nat) : Option Nat :=
  let v3 := mul (mul v v) v
  let v7 := mul (mul v3 v3) v
  let x := mul (mul u v3) (pow (mul u v7) ((prime - 5) / 8))
  let check := mul v (mul x x)
  let even (r : Nat) : Nat := if r % 2 = 1 then prime - r else r
  if check = u % prime then some (even x)
  else if check = sub 0 u then some (even (mul x rootOfMinusOne))
  else none

end Notary.Signing.Field
