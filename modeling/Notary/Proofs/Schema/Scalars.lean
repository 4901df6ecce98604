/-
Values without inner structure that are read back.

A reader forgets what does not count: the bits of a number that its kind does not have, and every
truth value but one. What it has read is written so that the same is read again. So are the values
that fields have by default.

* `Restores` — a value of a kind is read back from its bytes.
* `restores_of_read` — so is every value that was read.
* `restores_zero`, `restores_of_ofText?` — and every default value.
-/

import Notary.Proofs.Wire.RoundTrip
import Notary.Schema.Default
import Notary.Schema.Type

namespace Notary

/-! ### Numbers and byte strings -/

namespace Wire

/-- The last byte of the longest number is 0 or 1. -/
theorem Varint.lt_of_readUpTo {k n : Nat} {bs rest : Bytes}
    (read : readUpTo (k + 1) bs = .ok (n, rest)) : n < 2 ^ (7 * k + 1) := by
  induction k generalizing bs n rest with
  | zero =>
    cases bs with
    | nil => cases read
    | cons b bs =>
      rw [readUpTo] at read
      split at read
      · split at read
        · cases read
        · rename_i small
          cases read
          have bound : ¬ 2 ≤ b := fun large => small ⟨rfl, large⟩
          rw [UInt8.le_iff_toNat_le] at bound
          have two : (2 : UInt8).toNat = 2 := rfl
          omega
      · cases read
  | succ k ih =>
    cases bs with
    | nil => cases read
    | cons b bs =>
      have more : 2 ^ (7 * (k + 1) + 1) = 128 * 2 ^ (7 * k + 1) := by
        rw [show 7 * (k + 1) + 1 = 7 * k + 1 + 7 from by omega, Nat.pow_add]
        omega
      have some : 0 < 2 ^ (7 * k + 1) := Nat.two_pow_pos _
      rw [readUpTo] at read
      split at read
      · rename_i last
        split at read
        · cases read
        · cases read
          rw [UInt8.lt_iff_toNat_lt] at last
          have top : (128 : UInt8).toNat = 128 := rfl
          omega
      · split at read
        · cases read
        · rename_i later
          cases read
          have bound := ih later
          omega

theorem Varint.lt_of_read {n : Nat} {bs rest : Bytes} (read : Varint.read bs = .ok (n, rest)) :
    n < 2 ^ 64 :=
  Varint.lt_of_readUpTo read

theorem length_of_takeBytes {n : Nat} {bs b rest : Bytes} (taken : takeBytes n bs = .ok (b, rest)) :
    b.length = n := by
  unfold takeBytes at taken
  split at taken
  · rename_i enough
    cases taken
    simp [enough]
  · cases taken

theorem takeBytes_append (b rest : Bytes) : takeBytes b.length (b ++ rest) = .ok (b, rest) := by
  simp [takeBytes]

end Wire

theorem Decimal.Format.nearest_le (f : Format) (k : Nat) (e : Int) :
    f.nearest k e ≤ f.infinity := by
  unfold nearest
  dsimp only
  split
  · exact Nat.zero_le _
  · split
    · exact Nat.le_refl _
    · exact Nat.min_le_left _ _

/-- A pattern has one bit more than the sign at most. -/
theorem Decimal.Format.lt_of_ofText? {f : Format} (infinity : f.infinity < f.sign)
    (undefined : f.undefined < f.sign) {s : String} {n : Nat} (found : f.ofText? s = some n) :
    n < 2 * f.sign := by
  unfold ofText? at found
  cases signed : signOf s.toList with
  | mk negative cs =>
    simp only [signed] at found
    obtain ⟨size, sized, rfl⟩ := Option.map_eq_some_iff.mp found
    have small : size < f.sign := by
      split at sized
      · cases sized
        exact infinity
      · split at sized
        · cases sized
          exact undefined
        · obtain ⟨digits, -, rfl⟩ := Option.map_eq_some_iff.mp sized
          exact Nat.lt_of_le_of_lt (f.nearest_le digits.1 digits.2) infinity
    split <;> omega

namespace Schema.ScalarKind

open Wire

/-- A value takes a byte at least, and it is read back from its bytes. -/
structure Restores (k : ScalarKind) (d : Datum) : Prop where
  something : k.write d ≠ []
  read_write : (k.write d).length < sizeLimit →
    ∀ rest, k.read (k.write d ++ rest) = .ok (d, rest)

/-! ### The four layouts -/

theorem narrow_lt {k : ScalarKind} {n : Nat} (small : n < 2 ^ 64) : k.narrow n < 2 ^ 64 := by
  cases k with
  | int32 | enumeration =>
    simp only [narrow]
    split <;> omega
  | _ =>
    simp only [narrow]
    omega

theorem narrow_narrow (k : ScalarKind) (n : Nat) : k.narrow (k.narrow n) = k.narrow n := by
  cases k with
  | int32 | enumeration =>
    -- The sign is copied to all bits above, so the lowest 32 are the same as before.
    by_cases positive : n % 2 ^ 32 < 2 ^ 31
    · have low : n % 2 ^ 32 % 2 ^ 32 = n % 2 ^ 32 := by omega
      simp only [narrow, if_pos positive, low]
    · have low : (n % 2 ^ 32 + (2 ^ 64 - 2 ^ 32)) % 2 ^ 32 = n % 2 ^ 32 := by omega
      simp only [narrow, if_neg positive, low]
  | _ => simp only [narrow] <;> omega

theorem restores_varint {k : ScalarKind} (wire : k.wire = .varint) {n : Nat} (small : n < 2 ^ 64)
    (narrow : k.narrow n = n) : k.Restores (.number n) := by
  have written : k.write (.number n) = Varint.write n := by simp only [write, wire]
  constructor
  · rw [written]
    exact Varint.write_ne_nil n
  · intro _ rest
    rw [written]
    simp only [read, wire, Varint.read_write small, Except.map, narrow]

theorem restores_fixed64 {k : ScalarKind} (wire : k.wire = .fixed64) {n : Nat}
    (small : n < 2 ^ 64) : k.Restores (.number n) := by
  have written : k.write (.number n) = Bytes.le 8 n := by simp only [write, wire]
  constructor
  · rw [written]
    exact List.ne_nil_of_length_eq_add_one (Bytes.length_le 8 n)
  · intro _ rest
    have taken := takeBytes_append (Bytes.le 8 n) rest
    rw [Bytes.length_le] at taken
    rw [written]
    simp only [read, wire, taken, Except.map, Bytes.leValue_le (n := 8) small]

theorem restores_fixed32 {k : ScalarKind} (wire : k.wire = .fixed32) {n : Nat}
    (small : n < 2 ^ 32) : k.Restores (.number n) := by
  have written : k.write (.number n) = Bytes.le 4 n := by simp only [write, wire]
  constructor
  · rw [written]
    exact List.ne_nil_of_length_eq_add_one (Bytes.length_le 4 n)
  · intro _ rest
    have taken := takeBytes_append (Bytes.le 4 n) rest
    rw [Bytes.length_le] at taken
    rw [written]
    simp only [read, wire, taken, Except.map, Bytes.leValue_le (n := 4) small]

theorem restores_blob {k : ScalarKind} (wire : k.wire = .delimited) {b : Bytes}
    (text : ¬ (k = .string ∧ Bytes.toText? b = none)) : k.Restores (.blob b) := by
  constructor
  · simp [write, Varint.write_ne_nil]
  · intro short rest
    have delimited := readDelimited_write (Scalar.length_lt_of_delimited short) rest
    simp only [read, wire, write, delimited, if_neg text]

/-! ### Values that were read -/

/-- A value that was read is read again from the bytes that are written of it. -/
theorem restores_of_read {k : ScalarKind} {bs rest : Bytes} {d : Datum}
    (read : k.read bs = .ok (d, rest)) : k.Restores d := by
  unfold ScalarKind.read at read
  cases wire : k.wire with
  | varint =>
    simp only [wire] at read
    cases number : Varint.read bs with
    | error c => simp [number, Except.map] at read
    | ok result =>
      simp only [number, Except.map, Except.ok.injEq, Prod.mk.injEq] at read
      rw [← read.1]
      exact restores_varint wire (narrow_lt (Varint.lt_of_read number)) (narrow_narrow k _)
  | fixed64 =>
    simp only [wire] at read
    cases taken : takeBytes 8 bs with
    | error c => simp [taken, Except.map] at read
    | ok result =>
      simp only [taken, Except.map, Except.ok.injEq, Prod.mk.injEq] at read
      rw [← read.1]
      refine restores_fixed64 wire ?_
      have small := Bytes.leValue_lt result.1
      rwa [length_of_takeBytes taken] at small
  | fixed32 =>
    simp only [wire] at read
    cases taken : takeBytes 4 bs with
    | error c => simp [taken, Except.map] at read
    | ok result =>
      simp only [taken, Except.map, Except.ok.injEq, Prod.mk.injEq] at read
      rw [← read.1]
      refine restores_fixed32 wire ?_
      have small := Bytes.leValue_lt result.1
      rwa [length_of_takeBytes taken] at small
  | delimited =>
    simp only [wire] at read
    split at read
    · cases read
    · split at read
      · cases read
      · rename_i text
        cases read
        exact restores_blob wire text
  | startGroup => cases k <;> cases wire
  | endGroup => cases k <;> cases wire

/-! ### Default values -/

theorem restores_zero (k : ScalarKind) : k.Restores k.zero := by
  cases k with
  | string => exact restores_blob rfl (by decide)
  | bytes => exact restores_blob rfl (by decide)
  | double | fixed64 | sfixed64 => exact restores_fixed64 rfl (by decide)
  | float | fixed32 | sfixed32 => exact restores_fixed32 rfl (by decide)
  | int64 | uint64 | int32 | bool | uint32 | enumeration | sint32 | sint64 =>
    exact restores_varint rfl (by decide) (by decide)

theorem has_iff {k : ScalarKind} {n : Int} :
    k.has n = true ↔
      (if k.width.2 then -2 ^ (k.width.1 - 1) else 0) ≤ n ∧
        n < if k.width.2 then 2 ^ (k.width.1 - 1) else 2 ^ k.width.1 := by
  unfold has
  cases signed : k.width.2 <;> simp [signed]

/-- A whole number that the kind has. -/
theorem restores_ofInt {k : ScalarKind} (whole : k ∉ [.double, .float, .bool, .string, .bytes])
    {n : Int} (has : k.has n = true) : k.Restores (k.ofInt n) := by
  cases k with
  | double | float | bool | string | bytes => simp at whole
  | int64 | uint64 => exact restores_varint rfl (by omega) rfl
  | int32 | enumeration =>
    have bounds : -2 ^ 31 ≤ n ∧ n < 2 ^ 31 := has_iff.mp has
    refine restores_varint rfl (by omega) ?_
    rcases Int.lt_or_le n 0 with negative | positive
    · have high : ¬ (n % 2 ^ 64).toNat % 2 ^ 32 < 2 ^ 31 := by omega
      simp only [narrow, if_neg high]
      omega
    · have low : (n % 2 ^ 64).toNat % 2 ^ 32 < 2 ^ 31 := by omega
      simp only [narrow, if_pos low]
      omega
  | uint32 =>
    have bounds : 0 ≤ n ∧ n < 2 ^ 32 := has_iff.mp has
    refine restores_varint rfl (by omega) ?_
    simp only [narrow]
    omega
  | sint32 =>
    have bounds : -2 ^ 31 ≤ n ∧ n < 2 ^ 31 := has_iff.mp has
    have small : (if 0 ≤ n then 2 * n else -2 * n - 1).toNat < 2 ^ 32 := by split <;> omega
    exact restores_varint rfl (by omega) (Nat.mod_eq_of_lt small)
  | sint64 =>
    have bounds : -2 ^ 63 ≤ n ∧ n < 2 ^ 63 := has_iff.mp has
    exact restores_varint rfl (by split <;> omega) rfl
  | fixed64 | sfixed64 => exact restores_fixed64 rfl (by omega)
  | fixed32 | sfixed32 => exact restores_fixed32 rfl (by omega)

theorem restores_ofWhole? {k : ScalarKind} (whole : k ∉ [.double, .float, .bool, .string, .bytes])
    {s : String} {d : Datum} (given : k.ofWhole? s = some d) : k.Restores d := by
  unfold ofWhole? at given
  split at given
  · cases given
  · obtain ⟨n, found, rfl⟩ := Option.map_eq_some_iff.mp given
    exact restores_ofInt whole (Option.filter_eq_some_iff.mp found).2

/-- The number of a name of an enumeration. -/
theorem restores_ofInt_enumeration (n : Int32) :
    ScalarKind.enumeration.Restores (ScalarKind.enumeration.ofInt n.toInt) := by
  refine restores_ofInt (by decide) ?_
  exact has_iff.mpr ⟨n.le_toInt, n.toInt_lt⟩

/-- The value that a text stands for. -/
theorem restores_of_ofText? {k : ScalarKind} {names : List (String × Int32)} {s : String}
    {d : Datum} (given : k.ofText? names s = some d) : k.Restores d := by
  cases k with
  | double =>
    obtain ⟨n, found, rfl⟩ := Option.map_eq_some_iff.mp given
    exact restores_fixed64 rfl (Decimal.Format.lt_of_ofText? (by decide) (by decide) found)
  | float =>
    obtain ⟨n, found, rfl⟩ := Option.map_eq_some_iff.mp given
    exact restores_fixed32 rfl (Decimal.Format.lt_of_ofText? (by decide) (by decide) found)
  | bool =>
    simp only [ofText?] at given
    split at given
    · cases given
      exact restores_varint rfl (by decide) (by decide)
    · split at given
      · cases given
        exact restores_varint rfl (by decide) (by decide)
      · cases given
  | string =>
    cases given
    exact restores_blob rfl (by simp)
  | bytes =>
    obtain ⟨b, -, rfl⟩ := Option.map_eq_some_iff.mp given
    exact restores_blob rfl (by simp)
  | enumeration =>
    obtain ⟨n, -, rfl⟩ := Option.map_eq_some_iff.mp given
    exact restores_ofInt_enumeration n
  | int64 | uint64 | int32 | fixed64 | fixed32 | uint32 | sfixed32 | sfixed64 | sint32 | sint64 =>
    exact restores_ofWhole? (by decide) given

end Schema.ScalarKind

end Notary
