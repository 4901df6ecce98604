/-
What a text in hexadecimal digits stands for, and why another one is refused.

A digit is one byte of text, so a text of digits has as many bytes as characters, and a text with
another character has a byte that is no digit. Bytes are read in pairs. A pair of digits is the byte
whose two digits it is in lower case, and the first byte that is no digit ends the reading.

* `allDigits`, `value?_cases` — the digits of both cases, and their numbers.
* `ofText_ofList`, `toList_of_ofText` — texts of plain characters, and their bytes.
* `decodePairs_of_digits`, `decodePairs_of_bad` — what is read, and the first fault.
* `Spells`, `Refused` — what a text stands for, and how one is refused that stands for nothing.
* `ofHex_exactly` — reading gives the first of them, or else the second.
-/

import Notary.Text.Hex

namespace Notary.Text.Hex

/-! ### Digits -/

/-- The digits, of either case. -/
def allDigits : List Char := "0123456789abcdefABCDEF".toList

/-- The byte is that of a digit. -/
def IsDigit (b : UInt8) : Prop := Char.ofNat b.toNat ∈ allDigits

/-- The character of a byte, in lower case. -/
def lower (b : UInt8) : Char := (Char.ofNat b.toNat).toLower

/-- A character beyond the plain ones has no number. -/
theorem value?_of_large {c : Char} (large : 128 ≤ c.toNat) : value? c = none := by
  have beyond : ∀ d : Char, d.toNat < 128 → ¬ c ≤ d := by
    intro d small below
    have : c.toNat ≤ d.toNat := below
    omega
  simp only [value?, beyond '9' (by decide), beyond 'f' (by decide), beyond 'F' (by decide),
    and_false, if_false]

theorem lt_of_mem_allDigits {c : Char} (member : c ∈ allDigits) : c.toNat < 128 := by
  have all : allDigits.all (·.toNat < 128) = true := by decide +kernel
  exact of_decide_eq_true (List.all_eq_true.mp all c member)

/-- A digit has a number below sixteen, whose digit it is in lower case. -/
theorem value?_cases (c : Char) :
    (value? c = none ∧ c ∉ allDigits) ∨
      ∃ x < 16, value? c = some x ∧ c ∈ allDigits ∧ c.toLower = digit x := by
  have plain : ∀ n < 128, (value? (Char.ofNat n) = none ∧ Char.ofNat n ∉ allDigits) ∨
      ∃ x < 16, value? (Char.ofNat n) = some x ∧ Char.ofNat n ∈ allDigits ∧
        (Char.ofNat n).toLower = digit x := by
    decide +kernel
  by_cases small : c.toNat < 128
  · simpa using plain c.toNat small
  · exact .inl ⟨value?_of_large (Nat.le_of_not_lt small), mt lt_of_mem_allDigits small⟩

theorem value?_of_isDigit {b : UInt8} (good : IsDigit b) :
    ∃ x < 16, value? (Char.ofNat b.toNat) = some x ∧ lower b = digit x := by
  rcases value?_cases (Char.ofNat b.toNat) with ⟨-, other⟩ | ⟨x, small, value, -, low⟩
  · exact absurd good other
  · exact ⟨x, small, value, low⟩

theorem value?_of_not_isDigit {b : UInt8} (bad : ¬ IsDigit b) :
    value? (Char.ofNat b.toNat) = none := by
  rcases value?_cases (Char.ofNat b.toNat) with ⟨none, -⟩ | ⟨x, -, -, member, -⟩
  · exact none
  · exact absurd member bad

/-- The digits of a byte are digits in lower case. -/
theorem digits_spec {b : UInt8} {c : Char} (member : c ∈ digits b) :
    c ∈ allDigits ∧ c.toLower = c := by
  have all : ∀ x < 16, digit x ∈ allDigits ∧ (digit x).toLower = digit x := by decide +kernel
  have byte := b.toNat_lt
  simp only [digits, List.mem_cons, List.not_mem_nil, or_false] at member
  rcases member with rfl | rfl
  · exact all _ (by omega)
  · exact all _ (by omega)

/-- The byte of two digits has these digits. -/
theorem digits_ofNat {x y : Nat} (high : x < 16) (low : y < 16) :
    digits (UInt8.ofNat (16 * x + y)) = [digit x, digit y] := by
  have number : (UInt8.ofNat (16 * x + y)).toNat = 16 * x + y := by
    rw [UInt8.toNat_ofNat']
    omega
  have first : (16 * x + y) / 16 = x := by omega
  have second : (16 * x + y) % 16 = y := by omega
  rw [digits, number, first, second]

theorem digits_injective {a b : UInt8} (same : digits a = digits b) : a = b := by
  have apart : ∀ x < 16, ∀ y < 16, digit x = digit y → x = y := by decide
  have left := a.toNat_lt
  have right := b.toNat_lt
  rw [digits, digits, List.cons.injEq, List.cons.injEq] at same
  have high := apart _ (by omega) _ (by omega) same.1
  have low := apart _ (by omega) _ (by omega) same.2.1
  rw [← UInt8.toNat_inj]
  omega

theorem flatMap_digits_injective {as bs : Bytes} (same : as.flatMap digits = bs.flatMap digits) :
    as = bs := by
  induction as generalizing bs with
  | nil =>
    cases bs with
    | nil => rfl
    | cons b rest => simp [digits] at same
  | cons a as ih =>
    cases bs with
    | nil => simp [digits] at same
    | cons b bs =>
      obtain ⟨first, behind⟩ := List.append_inj same rfl
      rw [digits_injective first, ih behind]

theorem length_flatMap_digits (bs : Bytes) : (bs.flatMap digits).length = 2 * bs.length := by
  have width (b : UInt8) : (digits b).length = 2 := rfl
  rw [Bytes.length_flatMap_of_width width, Nat.mul_comm]

/-! ### Texts of plain characters -/

theorem length_ofText (s : String) : (Bytes.ofText s).length = s.utf8ByteSize := rfl

theorem toList_toLower (s : String) : s.toLower.toList = s.toList.map Char.toLower :=
  String.toList_map

/-- A plain character is one byte of text. -/
theorem ofText_ofList {cs : List Char} (plain : ∀ c ∈ cs, c.toNat < 128) :
    Bytes.ofText (String.ofList cs) = cs.map fun c => UInt8.ofNat c.toNat := by
  rw [Bytes.ofText, String.toByteArray_ofList, List.utf8Encode, List.toList_data_toByteArray]
  induction cs with
  | nil => rfl
  | cons c rest ih =>
    rw [List.forall_mem_cons] at plain
    have single : c.utf8Size = 1 := by
      rw [Char.utf8Size_eq_one_iff, UInt32.le_iff_toNat_le]
      exact Nat.le_of_lt_succ plain.1
    rw [List.flatMap_cons, String.utf8EncodeChar_eq_singleton single, ih plain.2]
    rfl

theorem toNat_char (b : UInt8) : (Char.ofNat b.toNat).toNat = b.toNat := by
  have number : ∀ n < 256, (Char.ofNat n).toNat = n := by decide +kernel
  exact number _ b.toNat_lt

/-- A text whose bytes are plain has one character for each of them. -/
theorem toList_of_ofText {s : String} (plain : ∀ b ∈ Bytes.ofText s, b.toNat < 128) :
    s.toList = (Bytes.ofText s).map fun b => Char.ofNat b.toNat := by
  have chars : ∀ c ∈ (Bytes.ofText s).map (fun b => Char.ofNat b.toNat), c.toNat < 128 := by
    intro c member
    obtain ⟨b, inside, rfl⟩ := List.mem_map.mp member
    rw [toNat_char]
    exact plain b inside
  have encoded : Bytes.ofText (String.ofList ((Bytes.ofText s).map fun b => Char.ofNat b.toNat)) =
      Bytes.ofText s := by
    simp [ofText_ofList chars, Function.comp_def, toNat_char]
  rw [← Bytes.ofText_injective encoded, String.toList_ofList, encoded]

/-- The characters of a text are digits exactly when its bytes are. -/
theorem digits_iff_bytes {s : String} :
    (∀ c ∈ s.toList, c ∈ allDigits) ↔ ∀ b ∈ Bytes.ofText s, IsDigit b := by
  have chars (plain : ∀ b ∈ Bytes.ofText s, b.toNat < 128) :
      (∀ c ∈ s.toList, c ∈ allDigits) ↔ ∀ b ∈ Bytes.ofText s, IsDigit b := by
    rw [toList_of_ofText plain, List.forall_mem_map]
    rfl
  constructor
  · intro good
    refine (chars ?_).mp good
    rw [← s.ofList_toList, ofText_ofList fun c member => lt_of_mem_allDigits (good c member)]
    intro b member
    obtain ⟨c, inside, rfl⟩ := List.mem_map.mp member
    have := lt_of_mem_allDigits (good c inside)
    rw [UInt8.toNat_ofNat']
    omega
  · intro good
    refine (chars fun b member => ?_).mpr good
    rw [← toNat_char]
    exact lt_of_mem_allDigits (good b member)

/-- A text of digits has one for each of its bytes. -/
theorem toList_of_digits {s : String} (good : ∀ b ∈ Bytes.ofText s, IsDigit b) :
    s.toList = (Bytes.ofText s).map fun b => Char.ofNat b.toNat := by
  refine toList_of_ofText fun b member => ?_
  rw [← toNat_char]
  exact lt_of_mem_allDigits (good b member)

/-! ### Pairs of digits -/

/-- Two digits are read as the byte that has them. -/
theorem decodePairs_pair {a b : UInt8} (first : IsDigit a) (second : IsDigit b) (i : Nat)
    (rest : Bytes) : ∃ x, digits x = [lower a, lower b] ∧
      decodePairs i (a :: b :: rest) = (decodePairs (i + 2) rest).map (x :: ·) := by
  obtain ⟨x, high, valueX, lowX⟩ := value?_of_isDigit first
  obtain ⟨y, low, valueY, lowY⟩ := value?_of_isDigit second
  refine ⟨UInt8.ofNat (16 * x + y), by rw [digits_ofNat high low, lowX, lowY], ?_⟩
  simp only [decodePairs, valueX, valueY]
  cases decodePairs (i + 2) rest <;> rfl

/-- Digits of an even number are read as the bytes that have them. -/
theorem decodePairs_of_digits : ∀ (i : Nat) (bs : Bytes), (∀ b ∈ bs, IsDigit b) →
    bs.length % 2 = 0 → ∃ xs, decodePairs i bs = .ok xs ∧ xs.flatMap digits = bs.map lower
  | _, [], _, _ => ⟨[], rfl, rfl⟩
  | _, [_], _, even => by simp at even
  | i, a :: b :: rest, good, even => by
    rw [List.forall_mem_cons, List.forall_mem_cons] at good
    obtain ⟨x, spelled, read⟩ := decodePairs_pair good.1 good.2.1 i rest
    have left : rest.length % 2 = 0 := by
      simp only [List.length_cons] at even
      omega
    obtain ⟨xs, behind, spelledBehind⟩ := decodePairs_of_digits (i + 2) rest good.2.2 left
    refine ⟨x :: xs, by rw [read, behind]; rfl, ?_⟩
    rw [List.flatMap_cons, spelled, spelledBehind]
    rfl

/-- The first byte that is no digit is reported, with its position. -/
theorem decodePairs_of_bad {b : UInt8} (bad : ¬ IsDigit b) {back : Bytes} : ∀ (i : Nat)
    (front : Bytes), (∀ a ∈ front, IsDigit a) → (front ++ b :: back).length % 2 = 0 →
    decodePairs i (front ++ b :: back) = .error (.badDigit b (i + front.length))
  | i, [], _, even => by
    cases back with
    | nil => simp at even
    | cons c rest => simp [decodePairs, value?_of_not_isDigit bad]
  | i, [a], good, _ => by
    obtain ⟨x, -, value, -⟩ := value?_of_isDigit (good a (by simp))
    simp [decodePairs, value, value?_of_not_isDigit bad]
  | i, a :: a' :: front, good, even => by
    rw [List.forall_mem_cons, List.forall_mem_cons] at good
    obtain ⟨x, -, read⟩ := decodePairs_pair good.1 good.2.1 i (front ++ b :: back)
    have left : (front ++ b :: back).length % 2 = 0 := by
      simp only [List.cons_append, List.length_cons] at even
      omega
    have behind := decodePairs_of_bad bad (i + 2) front good.2.2 left
    have position : i + 2 + front.length = i + (a :: a' :: front).length := by
      simp only [List.length_cons]
      omega
    rw [List.cons_append, List.cons_append, read, behind, position]
    rfl

/-- All bytes are digits, or one of them is the first that is none. -/
theorem digits_or_bad (bs : Bytes) : (∀ b ∈ bs, IsDigit b) ∨
    ∃ front b back, bs = front ++ b :: back ∧ (∀ a ∈ front, IsDigit a) ∧ ¬ IsDigit b := by
  induction bs with
  | nil => exact .inl (by simp)
  | cons a rest ih =>
    by_cases good : IsDigit a
    · rcases ih with all | ⟨front, b, back, rfl, before, bad⟩
      · exact .inl (List.forall_mem_cons.mpr ⟨good, all⟩)
      · exact .inr ⟨a :: front, b, back, rfl, List.forall_mem_cons.mpr ⟨good, before⟩, bad⟩
    · exact .inr ⟨[], a, rest, rfl, by simp, good⟩

/-! ### Messages -/

theorem message_digits (f : Fault) : (WidthFault.digits f).message = "invalid hex: " ++ f.message :=
  rfl

theorem message_oddLength :
    (WidthFault.digits .oddLength).message = "invalid hex: Odd number of digits" := by
  rw [message_digits, show Fault.oddLength.message = "Odd number of digits" from rfl,
    ← String.toList_inj, String.toList_append]
  rfl

theorem message_badDigit (b : UInt8) (i : Nat) :
    (WidthFault.digits (.badDigit b i)).message = "invalid hex: Invalid character " ++
      Quoted.char (Char.ofNat b.toNat) ++ " at position " ++ toString i := by
  have fault : (Fault.badDigit b i).message = "Invalid character " ++
      Quoted.char (Char.ofNat b.toNat) ++ " at position " ++ toString i := rfl
  have front : "invalid hex: Invalid character " = "invalid hex: " ++ "Invalid character " := by
    rw [← String.toList_inj, String.toList_append]
    rfl
  simp only [message_digits, fault, front, String.append_assoc]

end Notary.Text.Hex

namespace Notary.FixedBytes

open Text Text.Hex

variable {n : Nat}

theorem toList_toHex (x : FixedBytes n) : x.toHex.toList = x.toList.flatMap digits := by
  rw [toHex, encode, String.toList_ofList]

/-- No two byte strings are shown alike. -/
theorem toHex_injective {x y : FixedBytes n} (same : x.toHex = y.toHex) : x = y := by
  rw [ext_iff']
  exact flatMap_digits_injective (by rw [← toList_toHex, ← toList_toHex, same])

/-- The text consists of two digits for each byte, and in lower case it is how the byte string is
shown. -/
structure Spells (s : String) (x : FixedBytes n) : Prop where
  length_eq : s.length = 2 * n
  digits : ∀ c ∈ s.toList, c ∈ allDigits
  lower_eq : s.toLower = x.toHex

/-- What is said of a text that spells no byte string of a length. An odd number of bytes counts
first, then the first byte that is no digit, and then how many bytes there are. -/
inductive Refused (n : Nat) (s : String) : String → Prop where
  | odd : s.utf8ByteSize % 2 = 1 → Refused n s "invalid hex: Odd number of digits"
  | digit {front back : Bytes} {b : UInt8} : s.utf8ByteSize % 2 = 0 →
      Bytes.ofText s = front ++ b :: back → (∀ a ∈ front, IsDigit a) → ¬ IsDigit b →
      Refused n s ("invalid hex: Invalid character " ++ Quoted.char (Char.ofNat b.toNat) ++
        " at position " ++ toString front.length)
  | width : s.utf8ByteSize % 2 = 0 → (∀ b ∈ Bytes.ofText s, IsDigit b) →
      s.utf8ByteSize ≠ 2 * n → Refused n s
        ("expected " ++ toString (2 * n) ++ " hex characters, got " ++ toString s.utf8ByteSize)

/-- A text spells a byte string when its bytes are the digits, up to their case. -/
theorem spells_iff {s : String} {x : FixedBytes n} :
    Spells s x ↔ (∀ b ∈ Bytes.ofText s, IsDigit b) ∧
      (Bytes.ofText s).map lower = x.toList.flatMap Hex.digits := by
  have lowered (good : ∀ b ∈ Bytes.ofText s, IsDigit b) :
      s.toLower.toList = (Bytes.ofText s).map lower := by
    rw [toList_toLower, toList_of_digits good, List.map_map]
    rfl
  constructor
  · rintro ⟨-, digits, low⟩
    have good := digits_iff_bytes.mp digits
    exact ⟨good, by rw [← lowered good, low, toList_toHex]⟩
  · rintro ⟨good, low⟩
    refine ⟨?_, digits_iff_bytes.mpr good, ?_⟩
    · have lengths := congrArg List.length low
      rw [List.length_map, length_flatMap_digits, x.length_toList] at lengths
      rw [← String.length_toList, toList_of_digits good, List.length_map, lengths]
    · rw [← String.toList_inj, lowered good, low, toList_toHex]

/-- What a text spells is read. -/
theorem ofHex_of_spells {s : String} {x : FixedBytes n} (spells : Spells s x) :
    ofHex n s = .ok x := by
  obtain ⟨good, low⟩ := spells_iff.mp spells
  have length : (Bytes.ofText s).length = 2 * n := by
    have lengths := congrArg List.length low
    rwa [List.length_map, length_flatMap_digits, x.length_toList] at lengths
  obtain ⟨xs, read, spelled⟩ := decodePairs_of_digits 0 _ good (by omega)
  have same : xs = x.toList := flatMap_digits_injective (spelled.trans low)
  have even : ¬ (Bytes.ofText s).length % 2 = 1 := by omega
  simp only [ofHex, decode, if_neg even, read, same, ofBytes?_toList]

theorem mapError_error (f : WidthFault) :
    (.error f : Except WidthFault (FixedBytes n)).mapError WidthFault.message =
      .error f.message :=
  rfl

/-- A text that is refused is refused as it is said. -/
theorem mapError_of_refused {s message : String} (refused : Refused n s message) :
    (ofHex n s).mapError WidthFault.message = .error message := by
  cases refused with
  | odd odd =>
    rw [← length_ofText] at odd
    simp only [ofHex, decode, if_pos odd, mapError_error, message_oddLength]
  | @digit front back b even bytes good bad =>
    rw [← length_ofText] at even
    have fault := decodePairs_of_bad bad 0 front good (by rwa [← bytes])
    rw [← bytes, Nat.zero_add] at fault
    have paired : ¬ (Bytes.ofText s).length % 2 = 1 := by omega
    simp only [ofHex, decode, if_neg paired, fault, mapError_error, message_badDigit]
  | width even good other =>
    rw [← length_ofText] at even other
    have paired : ¬ (Bytes.ofText s).length % 2 = 1 := by omega
    obtain ⟨xs, read, spelled⟩ := decodePairs_of_digits 0 _ good even
    have lengths := congrArg List.length spelled
    rw [List.length_map, length_flatMap_digits] at lengths
    have none : ofBytes? n xs = none := dif_neg (by omega)
    simp only [ofHex, decode, if_neg paired, read, none, mapError_error]
    rfl

/-- Every text spells a byte string or is refused. -/
theorem spells_or_refused (n : Nat) (s : String) :
    (∃ x : FixedBytes n, Spells s x) ∨ ∃ message, Refused n s message := by
  by_cases odd : s.utf8ByteSize % 2 = 1
  · exact .inr ⟨_, .odd odd⟩
  · have even : s.utf8ByteSize % 2 = 0 := by omega
    rcases digits_or_bad (Bytes.ofText s) with good | ⟨front, b, back, bytes, good, bad⟩
    · by_cases length : s.utf8ByteSize = 2 * n
      · obtain ⟨xs, -, spelled⟩ := decodePairs_of_digits 0 _ good even
        have lengths := congrArg List.length spelled
        rw [List.length_map, length_flatMap_digits, length_ofText] at lengths
        exact .inl ⟨⟨xs, by omega⟩, spells_iff.mpr ⟨good, spelled.symm⟩⟩
      · exact .inr ⟨_, .width even good length⟩
    · exact .inr ⟨_, .digit even bytes good bad⟩

/-- Every byte string is read from the text in which it is shown. -/
theorem spells_toHex (x : FixedBytes n) : Spells x.toHex x := by
  have each : ∀ c ∈ x.toHex.toList, c ∈ allDigits ∧ c.toLower = c := by
    intro c member
    rw [toList_toHex, List.mem_flatMap] at member
    obtain ⟨b, -, digit⟩ := member
    exact digits_spec digit
  refine ⟨?_, fun c member => (each c member).1, ?_⟩
  · rw [← String.length_toList, toList_toHex, length_flatMap_digits, x.length_toList]
  · rw [← String.toList_inj, toList_toLower]
    exact (List.map_congr_left fun c member => (each c member).2).trans (List.map_id _)

/-- A text is read as the byte string that it spells, two digits of either case for each byte, and
every byte string is read from the text in which it is shown, which is the text of no other. Any
other text is refused for an odd number of bytes, else for the first byte that is no digit, and
else for the number of its bytes. -/
theorem ofHex_exactly (n : Nat) (s : String) :
    (∀ x : FixedBytes n, ofHex n s = .ok x ↔ s.length = 2 * n ∧
        (∀ c ∈ s.toList, c ∈ "0123456789abcdefABCDEF".toList) ∧ s.toLower = x.toHex) ∧
      (∀ message, (ofHex n s).mapError WidthFault.message = .error message ↔
        Refused n s message) ∧
      (∀ x : FixedBytes n, ofHex n x.toHex = .ok x) ∧
      ∀ x y : FixedBytes n, x.toHex = y.toHex → x = y := by
  refine ⟨fun x => ⟨?_, ?_⟩, fun message => ⟨?_, mapError_of_refused⟩,
    fun x => ofHex_of_spells (spells_toHex x), fun x y => toHex_injective⟩
  · intro read
    rcases spells_or_refused n s with ⟨y, spells⟩ | ⟨message, refused⟩
    · rw [ofHex_of_spells spells] at read
      cases read
      exact ⟨spells.length_eq, spells.digits, spells.lower_eq⟩
    · have failed := mapError_of_refused refused
      rw [read] at failed
      cases failed
  · rintro ⟨length, digits, low⟩
    exact ofHex_of_spells ⟨length, digits, low⟩
  · intro failed
    rcases spells_or_refused n s with ⟨y, spells⟩ | ⟨message', refused⟩
    · rw [ofHex_of_spells spells] at failed
      cases failed
    · rw [mapError_of_refused refused] at failed
      cases failed
      exact refused

example : ofHex 1 "é" = .error (.digits (.badDigit 0xC3 0)) := by cbv

end Notary.FixedBytes
