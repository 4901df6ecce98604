/-
Numbers of variable length: seven bits a byte, lowest first, the top bit set on all but the last.

* `read_write` — reading a written number gives it back and leaves what follows.
-/

import Notary.Bytes
import Notary.Wire.Fault

namespace Notary.Wire.Varint

/-- The bytes of a number. -/
def write (n : Nat) : Bytes :=
  if n < 128 then [UInt8.ofNat n] else UInt8.ofNat (n % 128 + 128) :: write (n / 128)
termination_by n
decreasing_by omega

/-- A number of at most `k` bytes; the tenth byte of ten may only be 0 or 1. -/
def readUpTo : Nat → Bytes → Except Cause (Nat × Bytes)
  | 0, _ => .error .invalidVarint
  | _ + 1, [] => .error .invalidVarint
  | k + 1, b :: rest =>
    if b < 128 then
      if k = 0 ∧ 2 ≤ b then .error .invalidVarint else .ok (b.toNat, rest)
    else
      match readUpTo k rest with
      | .error c => .error c
      | .ok (n, rest) => .ok (b.toNat % 128 + 128 * n, rest)

/-- The number in front of a byte string, and what follows it. -/
def read (bs : Bytes) : Except Cause (Nat × Bytes) := readUpTo 10 bs

theorem readUpTo_write {k n : Nat} (hk : 0 < k) (hn : n < 2 ^ (7 * (k - 1) + 1)) (hk' : k ≤ 10)
    (rest : Bytes) :
    readUpTo k (write n ++ rest) = .ok (n, rest) := by
  induction k generalizing n with
  | zero => omega
  | succ k ih =>
    rw [write]
    split
    · rename_i hlt
      have hb : (UInt8.ofNat n).toNat = n := by simp; omega
      have hlt' : UInt8.ofNat n < 128 := by
        rw [UInt8.lt_iff_toNat_lt, hb]; exact hlt
      simp only [List.cons_append, List.nil_append, readUpTo, hlt', if_true, hb]
      rw [if_neg]
      rintro ⟨rfl, h2⟩
      rw [UInt8.le_iff_toNat_le, hb] at h2
      simp at hn
      have : (2 : UInt8).toNat = 2 := rfl
      omega
    · rename_i hge
      have hb : (UInt8.ofNat (n % 128 + 128)).toNat = n % 128 + 128 := by simp; omega
      have hlt' : ¬ UInt8.ofNat (n % 128 + 128) < 128 := by
        rw [UInt8.lt_iff_toNat_lt, hb]
        have : (128 : UInt8).toNat = 128 := rfl
        omega
      have hk0 : 0 < k := by
        rcases Nat.eq_zero_or_pos k with rfl | h
        · simp at hn; omega
        · exact h
      have hdiv : n / 128 < 2 ^ (7 * (k - 1) + 1) := by
        rw [Nat.div_lt_iff_lt_mul (by decide)]
        have : 7 * (k + 1 - 1) + 1 = 7 * (k - 1) + 1 + 7 := by omega
        rw [this, Nat.pow_add] at hn
        simpa using hn
      simp only [List.cons_append, readUpTo, hlt', if_false, ih hk0 hdiv (by omega), hb]
      congr 2
      omega

theorem read_write {n : Nat} (h : n < 2 ^ 64) (rest : Bytes) :
    read (write n ++ rest) = .ok (n, rest) :=
  readUpTo_write (by decide) h (by decide) rest

end Notary.Wire.Varint
