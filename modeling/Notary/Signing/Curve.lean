/-
The twisted Edwards curve −x² + y² = 1 + d·x²·y² over the prime field.

Points are kept in extended coordinates `X : Y : Z : T` with x = X/Z, y = Y/Z and X·Y = Z·T, for
which one addition formula covers all cases.

* `Point.encode` — the 32-byte form: y with the lowest bit of x as top bit.
* `Point.decode?` — accepts every y on the curve, reduced or not, and any sign for x = 0.
-/

import Notary.Bytes
import Notary.Signing.Field

namespace Notary.Signing

/-- A point in extended coordinates. -/
structure Point where
  X : Nat
  Y : Nat
  Z : Nat
  T : Nat

namespace Point

open Notary.Signing.Field

/-- The curve's constant, −121665/121666. -/
def d : Nat := 0x52036cee2b6ffe738cc740797779e89800700a4d4141d8ab75eb4dca135978a3

/-- The neutral point. -/
def zero : Point := ⟨0, 1, 1, 0⟩

/-- The point that signatures are made with. -/
def base : Point :=
  let x := 0x216936d3cd6e53fec0a4e231fdd6dc5c692cc7609525a7b2c9562d608f25d51a
  let y := 0x6666666666666666666666666666666666666666666666666666666666666658
  ⟨x, y, 1, Field.mul x y⟩

def add (p q : Point) : Point :=
  let a := mul (sub p.Y p.X) (sub q.Y q.X)
  let b := mul (Field.add p.Y p.X) (Field.add q.Y q.X)
  let c := mul (mul p.T (Field.add d d)) q.T
  let z := mul (Field.add p.Z p.Z) q.Z
  let e := sub b a
  let f := sub z c
  let g := Field.add z c
  let h := Field.add b a
  ⟨mul e f, mul g h, mul f g, mul e h⟩

def neg (p : Point) : Point := ⟨sub 0 p.X, p.Y, p.Z, sub 0 p.T⟩

/-- The `n`-fold sum of a point, for `n` of up to 255 binary digits. -/
def smul (n : Nat) (p : Point) : Point :=
  (bits 255 n).foldr (fun b r => let s := add r r; if b then add s p else s) zero

/-- Eight times the point is neutral. -/
def isSmallOrder (p : Point) : Bool :=
  let q := smul 8 p
  q.X % prime == 0 && sub q.Y q.Z == 0

/-- The 32-byte form of a point. -/
def encode (p : Point) : FixedBytes 32 :=
  let i := inv p.Z
  let x := mul p.X i
  let y := mul p.Y i
  FixedBytes.ofNat 32 (y + x % 2 * 2 ^ 255)

/-- The point of a 32-byte form, when its y lies on the curve. -/
def decode? (bs : FixedBytes 32) : Option Point := do
  let v := Bytes.leValue bs.toList
  let y := v % 2 ^ 255 % prime
  let y2 := mul y y
  let x ← sqrtRatio? (sub y2 1) (Field.add (mul d y2) 1)
  let x := if v / 2 ^ 255 = 1 then sub 0 x else x
  return ⟨x, y, 1, mul x y⟩

end Point

end Notary.Signing
