/-
Texts that are written are read again.

Every character is written in a way of its own: as an escape with a letter, as an escape with its
number, or as it is. The reader undoes each of them, so a text comes back whatever stands in it, and
whatever stands behind it.

* `readChars_writeChar` — one character.
* `readText_written` — a text up to its closing quote.
-/

import Notary.Json.Text

namespace Notary.Json

/-- The digits of numbers below sixteen have these numbers as values. -/
theorem value?_hexChar {n : Nat} (small : n < 16) : Text.Hex.value? (hexChar n) = some n := by
  have all : ∀ n < 16, Text.Hex.value? (hexChar n) = some n := by decide
  exact all n small

/-- The number of a control character is written with two digits behind two zeros. -/
theorem readEscape_control {c : Char} (control : c.toNat < 0x20) (rest : List Char) :
    readEscape ('u' :: '0' :: '0' :: hexChar (c.toNat / 16) :: hexChar (c.toNat % 16) :: rest) =
      .ok (c, rest) := by
  have zero : Text.Hex.value? '0' = some 0 := by decide
  have high := value?_hexChar (show c.toNat / 16 < 16 by omega)
  have low := value?_hexChar (show c.toNat % 16 < 16 by omega)
  have number : ((0 * 16 + 0) * 16 + c.toNat / 16) * 16 + c.toNat % 16 = c.toNat := by omega
  have digits : readHex
      ('0' :: '0' :: hexChar (c.toNat / 16) :: hexChar (c.toNat % 16) :: rest) =
        .ok (c.toNat, rest) := by
    simp only [readHex, zero, high, low, number]
  simp only [readEscape, if_true, digits]
  rw [if_neg (by omega), if_neg (by omega), Char.ofNat_toNat]

/-- A character is written behind a backslash with its letter, with its number, or as it is. -/
theorem writeChar_cases (c : Char) :
    (∃ letter, writeChar c = ['\\', letter] ∧ letter ≠ 'u' ∧ escapeLetter? letter = some c) ∨
      (c.toNat < 0x20 ∧ writeChar c =
        ['\\', 'u', '0', '0', hexChar (c.toNat / 16), hexChar (c.toNat % 16)]) ∨
      (writeChar c = [c] ∧ c ≠ '"' ∧ c ≠ '\\' ∧ ¬ c.toNat < 0x20) := by
  by_cases lettered : c ∈ ['"', '\\', '\x08', '\x0c', '\n', '\r', '\t']
  · simp only [List.mem_cons, List.not_mem_nil, or_false] at lettered
    rcases lettered with rfl | rfl | rfl | rfl | rfl | rfl | rfl <;>
      exact .inl ⟨_, rfl, by decide, by decide⟩
  · simp only [List.mem_cons, List.not_mem_nil, or_false, not_or] at lettered
    obtain ⟨quote, backslash, h1, h2, h3, h4, h5⟩ := lettered
    by_cases control : c.toNat < 0x20
    · exact .inr (.inl ⟨control, by simp only [writeChar, *, if_true, if_false]⟩)
    · exact .inr (.inr ⟨by simp only [writeChar, *, if_false], quote, backslash, control⟩)

/-- A character that was written is the next one that is read. -/
theorem readChars_writeChar (k : Nat) (c : Char) (rest : List Char) :
    readChars (k + 1) (writeChar c ++ rest) =
      (readChars k rest).map fun (cs, rest) => (c :: cs, rest) := by
  have opens : ¬ '\\' = '"' := by decide
  rcases writeChar_cases c with ⟨letter, written, other, means⟩ | ⟨control, written⟩ |
    ⟨written, quote, backslash, printed⟩
  · have escape : readEscape (letter :: rest) = .ok (c, rest) := by
      simp only [readEscape, if_neg other, means]
    simp only [written, List.cons_append, List.nil_append, readChars, if_neg opens, if_true, escape]
  · simp only [written, List.cons_append, List.nil_append, readChars, if_neg opens, if_true,
      readEscape_control control]
  · simp only [written, List.cons_append, List.nil_append, readChars, if_neg quote,
      if_neg backslash, if_neg printed]

theorem length_le_written (cs : List Char) : cs.length ≤ (cs.flatMap writeChar).length := by
  induction cs with
  | nil => exact Nat.le_refl _
  | cons c rest ih =>
    have some : 0 < (writeChar c).length := by
      unfold writeChar
      repeat' split
      all_goals simp
    simp only [List.flatMap_cons, List.length_append, List.length_cons]
    omega

/-- Characters that were written are read up to the closing quote. -/
theorem readChars_written (cs : List Char) {k : Nat} (enough : cs.length < k) (rest : List Char) :
    readChars k (cs.flatMap writeChar ++ '"' :: rest) = .ok (cs, rest) := by
  induction cs generalizing k with
  | nil =>
    obtain ⟨k, rfl⟩ := Nat.exists_eq_add_one_of_ne_zero (Nat.ne_of_gt enough)
    rfl
  | cons c cs ih =>
    obtain ⟨k, rfl⟩ := Nat.exists_eq_add_one_of_ne_zero (Nat.ne_of_gt (Nat.zero_lt_of_lt enough))
    rw [List.flatMap_cons, List.append_assoc, readChars_writeChar, ih (Nat.lt_of_succ_lt_succ enough)]
    rfl

/-- A text is read up to its closing quote. -/
theorem readText_written (s : String) (rest : List Char) :
    readText (s.toList.flatMap writeChar ++ '"' :: rest) = .ok (s, rest) := by
  have enough : s.toList.length < (s.toList.flatMap writeChar ++ '"' :: rest).length + 1 := by
    have := length_le_written s.toList
    rw [List.length_append]
    omega
  simp only [readText, readChars_written s.toList enough, Except.map, String.ofList_toList]

end Notary.Json
