/-
Stretches of bytes that a reader goes over.

A reader that takes one value after the other goes over a stretch when the stretch is made of values
that it takes in turn, whatever stands behind them.

* `Takes`, `Covers` — one value, and a whole stretch.
* `repeatUntil_of_covers`, `within_of_covers` — a loop over a stretch ends where the stretch ends,
  and so does one that is told the length of the stretch.
* `of_repeatUntil`, `of_within` — what every step keeps, a loop keeps.
-/

import Notary.Wire.Format

namespace Notary.Wire

variable {ε σ : Type} {step : σ → Bytes → Except ε (σ × Bytes)} {a b c : σ} {bs more : Bytes}

/-- The step takes these bytes, of which there is one at least, and leaves what stands behind. -/
structure Takes (step : σ → Bytes → Except ε (σ × Bytes)) (a : σ) (bs : Bytes) (b : σ) : Prop where
  something : bs ≠ []
  taken : ∀ rest, step a (bs ++ rest) = .ok (b, rest)

/-- Steps take these bytes one after the other. -/
inductive Covers (step : σ → Bytes → Except ε (σ × Bytes)) : σ → Bytes → σ → Prop where
  | nil (a : σ) : Covers step a [] a
  | cons {a b c : σ} {bs more : Bytes} (first : Takes step a bs b) (later : Covers step b more c) :
      Covers step a (bs ++ more) c

namespace Covers

theorem single (taken : Takes step a bs b) : Covers step a bs b := by
  have alone : Covers step a (bs ++ []) b := .cons taken (.nil b)
  rwa [List.append_nil] at alone

theorem append (first : Covers step a bs b) (later : Covers step b more c) :
    Covers step a (bs ++ more) c := by
  induction first with
  | nil a => exact later
  | cons taken _ ih =>
    rw [List.append_assoc]
    exact .cons taken (ih later)

end Covers

/-! ### Loops -/

/-- Every step takes a byte at least, so as many steps as there are bytes are enough. -/
theorem repeatUntil_of_covers (covers : Covers step a bs b) {k : Nat} (room : bs.length ≤ k)
    (rest : Bytes) : repeatUntil rest.length step k a (bs ++ rest) = .ok (b, rest) := by
  induction covers generalizing k with
  | nil a => cases k <;> simp [repeatUntil]
  | @cons a b c bs more first later ih =>
    have some : 0 < bs.length := List.length_pos_iff.mpr first.something
    rw [List.length_append] at room
    obtain ⟨k, rfl⟩ : ∃ j, k = j + 1 := ⟨k - 1, by omega⟩
    have unfinished : ¬ (bs ++ more ++ rest).length ≤ rest.length := by
      simp only [List.length_append]
      omega
    rw [repeatUntil, if_neg unfinished, List.append_assoc, first.taken]
    exact ih (by omega)

/-- A stretch behind its length. -/
theorem within_of_covers (fault : Cause → ε) (covers : Covers step a bs b)
    (short : bs.length < 2 ^ 64) (rest : Bytes) :
    within fault step a (Varint.write bs.length ++ bs ++ rest) = .ok (b, rest) := by
  have inside : ¬ (bs ++ rest).length < bs.length := by simp
  have stop : (bs ++ rest).length - bs.length = rest.length := by simp
  unfold within
  rw [List.append_assoc, Varint.read_write short]
  simp only [if_neg inside, stop, repeatUntil_of_covers covers (Nat.le_refl _) rest, if_true]

/-! ### What is kept -/

section Kept

variable {P : σ → Prop} {rest : Bytes}

theorem of_repeatUntil
    (keeps : ∀ {a b : σ} {bs rest : Bytes}, P a → step a bs = .ok (b, rest) → P b)
    {stop k : Nat} (start : P a) (read : repeatUntil stop step k a bs = .ok (b, rest)) : P b := by
  induction k generalizing a bs with
  | zero =>
    cases read
    exact start
  | succ k ih =>
    unfold repeatUntil at read
    split at read
    · cases read
      exact start
    · split at read
      · cases read
      · rename_i stepped
        exact ih (keeps start stepped) read

theorem of_within (keeps : ∀ {a b : σ} {bs rest : Bytes}, P a → step a bs = .ok (b, rest) → P b)
    {fault : Cause → ε} (start : P a) (read : within fault step a bs = .ok (b, rest)) : P b := by
  unfold within at read
  split at read
  · cases read
  · split at read
    · cases read
    · dsimp only at read
      split at read
      · cases read
      · rename_i looped
        split at read
        · cases read
          exact of_repeatUntil keeps start looped
        · cases read

end Kept

end Notary.Wire
