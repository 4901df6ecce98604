/-
Worker pools of the size that a text of the environment asks for.

A text asks for a number when it spells it between blanks; zeros and a plus sign may stand in front.
A size is never zero, and a pool that there is lets every task come to its end. But the text may ask
for more permits than a pool can have, and then no engine starts.

* `decimal?_eq_some_iff` — what is read as a number.
* `requestedPoolSize_of_asks`, `requestedPoolSize_cases` — the size that is asked for, or the
  default.
* `Session.Past.served` — no task waits for ever for a permit of a pool.
* `start_eq_crash_iff`, `start_eq_build` — when an engine breaks down at its start, and when not.
* `start_of_environment` — the engines that start with the settings of an environment.
-/

import Mathlib.Logic.Basic
import Notary.Engine.Basic
import Notary.Guest.Instance
import Notary.Proofs.Pool.Moves

namespace Notary.Engine

open Notary.Text

/-! ### Spelled numbers -/

/-- The characters are the digits of the number, behind zeros and a plus sign if there are any. -/
def IsNumeral (cs : List Char) (n : Nat) : Prop :=
  ∃ sign zeros, (sign = [] ∨ sign = ['+']) ∧
    cs = sign ++ (List.replicate zeros '0' ++ Nat.toDigits 10 n)

/-- What is left without a plus sign in front. -/
def unsigned : List Char → List Char
  | '+' :: rest => rest
  | cs => cs

theorem exists_sign (cs : List Char) :
    ∃ sign, (sign = [] ∨ sign = ['+']) ∧ cs = sign ++ unsigned cs := by
  unfold unsigned
  split
  · exact ⟨['+'], .inr rfl, rfl⟩
  · exact ⟨[], .inl rfl, rfl⟩

theorem unsigned_of_digits {cs : List Char} (digits : ∀ c ∈ cs, c.isDigit = true) :
    unsigned cs = cs := by
  unfold unsigned
  split
  · exact absurd (digits '+' (by simp)) (by decide)
  · rfl

/-- The characters behind the sign are digits, one at least, and their number has 64 bits. -/
theorem decimal?_iff_digits {cs : List Char} {n : Nat} :
    decimal? cs = some n ↔ (unsigned cs ≠ [] ∧ ∀ c ∈ unsigned cs, c.isDigit = true) ∧
      Nat.ofDigitChars 10 (unsigned cs) 0 < 2 ^ 64 ∧ Nat.ofDigitChars 10 (unsigned cs) 0 = n := by
  have value (ds : List Char) :
      ds.foldl (fun n c => n * 10 + (c.toNat - 48)) 0 = Nat.ofDigitChars 10 ds 0 := by
    simp only [Nat.ofDigitChars, Nat.mul_comm, Char.reduceToNat]
  have read : decimal? cs = if (unsigned cs).isEmpty || !(unsigned cs).all Char.isDigit then none
      else if Nat.ofDigitChars 10 (unsigned cs) 0 < 2 ^ 64 then
        some (Nat.ofDigitChars 10 (unsigned cs) 0) else none := by
    simp only [← value]
    rfl
  have refused : ((unsigned cs).isEmpty || !(unsigned cs).all Char.isDigit) = true ↔
      ¬(unsigned cs ≠ [] ∧ ∀ c ∈ unsigned cs, c.isDigit = true) := by
    simp only [Bool.or_eq_true, List.isEmpty_iff, Bool.not_eq_true', ← Bool.not_eq_true,
      List.all_eq_true, not_and_or, ne_eq, not_not]
  rw [read, Option.ite_none_left_eq_some, Option.ite_none_right_eq_some, Option.some.injEq, refused,
    not_not]

theorem toNat_of_isDigit {c : Char} (digit : c.isDigit = true) : 48 ≤ c.toNat ∧ c.toNat ≤ 57 := by
  simpa [Char.isDigit, UInt32.le_iff_toNat_le] using digit

theorem toDigits_digit {c : Char} (digit : c.isDigit = true) :
    c.toNat - 48 < 10 ∧ Nat.toDigits 10 (c.toNat - 48) = [c] := by
  obtain ⟨low, high⟩ := toNat_of_isDigit digit
  have small : c.toNat - 48 < 10 := by omega
  refine ⟨small, ?_⟩
  rw [Nat.toDigits_of_lt_base small, List.singleton_inj, ← Char.toNat_inj,
    Nat.toNat_digitChar_of_lt_ten small]
  omega

/-- Digits behind those of a positive number are the next digits of a greater one. -/
theorem toDigits_append {cs : List Char} (digits : ∀ c ∈ cs, c.isDigit = true) {n : Nat}
    (pos : 0 < n) : Nat.toDigits 10 n ++ cs = Nat.toDigits 10 (Nat.ofDigitChars 10 cs n) := by
  induction cs generalizing n with
  | nil => simp
  | cons c cs ih =>
    rw [List.forall_mem_cons] at digits
    obtain ⟨small, spelled⟩ := toDigits_digit digits.1
    calc Nat.toDigits 10 n ++ c :: cs
      _ = (Nat.toDigits 10 n ++ Nat.toDigits 10 (c.toNat - 48)) ++ cs := by simp [spelled]
      _ = Nat.toDigits 10 (10 * n + (c.toNat - 48)) ++ cs := by
        rw [Nat.toDigits_append_toDigits (by decide) pos small]
      _ = Nat.toDigits 10 (Nat.ofDigitChars 10 (c :: cs) n) := by
        rw [ih digits.2 (by omega), Nat.ofDigitChars_cons]
        rfl

/-- Digits are those of their number behind zeros. -/
theorem exists_zeros {cs : List Char} (some : cs ≠ []) (digits : ∀ c ∈ cs, c.isDigit = true) :
    ∃ zeros, cs = List.replicate zeros '0' ++ Nat.toDigits 10 (Nat.ofDigitChars 10 cs 0) := by
  induction cs with
  | nil => exact absurd rfl some
  | cons c cs ih =>
    rw [List.forall_mem_cons] at digits
    obtain ⟨small, spelled⟩ := toDigits_digit digits.1
    have first : Nat.ofDigitChars 10 (c :: cs) 0 = Nat.ofDigitChars 10 cs (c.toNat - 48) := by
      rw [Nat.ofDigitChars_cons, Nat.mul_zero, Nat.zero_add]
      rfl
    rw [first]
    rcases Nat.eq_zero_or_pos (c.toNat - 48) with zero | pos
    · obtain rfl : '0' = c := by simpa [zero] using spelled
      cases cs with
      | nil => exact ⟨0, rfl⟩
      | cons d cs =>
        obtain ⟨zeros, parts⟩ := ih (by simp) digits.2
        refine ⟨zeros + 1, ?_⟩
        rw [List.replicate_succ, List.cons_append, zero, ← parts]
    · refine ⟨0, ?_⟩
      rw [← toDigits_append digits.2 pos, spelled]
      rfl

theorem isDigit_of_padded {zeros n : Nat} {c : Char}
    (member : c ∈ List.replicate zeros '0' ++ Nat.toDigits 10 n) : c.isDigit = true := by
  rcases List.mem_append.mp member with zero | digit
  · rw [List.eq_of_mem_replicate zero]
    rfl
  · exact Nat.isDigit_of_mem_toDigits (by decide) (by decide) digit

theorem ofDigitChars_padded (zeros n : Nat) :
    Nat.ofDigitChars 10 (List.replicate zeros '0' ++ Nat.toDigits 10 n) 0 = n := by
  rw [Nat.ofDigitChars_append, Nat.ofDigitChars_replicate_zero, Nat.mul_zero,
    Nat.ofDigitChars_ten_toDigits]

theorem isNumeral_iff {cs : List Char} {n : Nat} :
    IsNumeral cs n ↔ ∃ zeros, unsigned cs = List.replicate zeros '0' ++ Nat.toDigits 10 n := by
  constructor
  · rintro ⟨sign, zeros, rfl | rfl, rfl⟩
    · exact ⟨zeros, unsigned_of_digits fun c => isDigit_of_padded⟩
    · exact ⟨zeros, rfl⟩
  · rintro ⟨zeros, parts⟩
    obtain ⟨sign, plus, whole⟩ := exists_sign cs
    exact ⟨sign, zeros, plus, parts ▸ whole⟩

theorem decimal?_eq_some_iff {cs : List Char} {n : Nat} :
    decimal? cs = some n ↔ n < 2 ^ 64 ∧ IsNumeral cs n := by
  rw [decimal?_iff_digits, isNumeral_iff]
  constructor
  · rintro ⟨⟨some, digits⟩, small, rfl⟩
    exact ⟨small, exists_zeros some digits⟩
  · rintro ⟨small, zeros, parts⟩
    rw [parts, ofDigitChars_padded]
    refine ⟨⟨?_, fun c => isDigit_of_padded⟩, small, rfl⟩
    exact List.append_ne_nil_of_right_ne_nil _ Nat.toDigits_ne_nil

/-! ### Texts -/

/-- Between blanks, the text stands for this number. -/
def Asks (text : String) (n : Nat) : Prop :=
  ∃ front numeral back, text.toList = front ++ numeral ++ back ∧ IsNumeral numeral n ∧
    (∀ c ∈ front, Blank.isBlank c = true) ∧ ∀ c ∈ back, Blank.isBlank c = true

theorem isBlank_of_isDigit {c : Char} (digit : c.isDigit = true) : Blank.isBlank c = false := by
  have range := toNat_of_isDigit digit
  rw [Blank.isBlank, Blank.ranges]
  simp only [List.any_cons, List.any_nil, Bool.or_false, Bool.or_eq_false_iff,
    Bool.and_eq_false_imp, decide_eq_true_eq, decide_eq_false_iff_not]
  omega

theorem IsNumeral.solid {cs : List Char} {n : Nat} (numeral : IsNumeral cs n) :
    ∀ c ∈ cs, Blank.isBlank c = false := by
  obtain ⟨sign, zeros, plus, rfl⟩ := numeral
  intro c member
  rcases List.mem_append.mp member with sign | digit
  · rcases plus with rfl | rfl
    · cases sign
    · rw [List.mem_singleton.mp sign]
      decide
  · exact isBlank_of_isDigit (isDigit_of_padded digit)

theorem asks_iff {text : String} {n : Nat} :
    Asks text n ↔ IsNumeral (Blank.trim text.toList) n := by
  constructor
  · rintro ⟨front, numeral, back, parts, spelled, before, after⟩
    rwa [parts, Blank.trim_of_solid before spelled.solid after]
  · intro spelled
    obtain ⟨front, back, parts, before, after⟩ := Blank.exists_ends text.toList
    exact ⟨front, _, back, parts, spelled, before, after⟩

theorem requestedPoolSize_of_asks {text : String} {n : Nat} (asks : Asks text n) (pos : 0 < n)
    (small : n < 2 ^ 64) : requestedPoolSize (some text) = n := by
  have read : decimal? (Blank.trim text.toList) = some n :=
    decimal?_eq_some_iff.mpr ⟨small, asks_iff.mp asks⟩
  obtain ⟨k, rfl⟩ := Nat.exists_eq_succ_of_ne_zero (Nat.ne_of_gt pos)
  simp [requestedPoolSize, read]

example : requestedPoolSize (some "\t+0040 ") = 40 := by decide +kernel

/-- The size is the default, or the text asks for it. -/
theorem requestedPoolSize_cases (raw : Option String) :
    requestedPoolSize raw = defaultPoolSize ∨
      ∃ text, raw = some text ∧ Asks text (requestedPoolSize raw) ∧
        requestedPoolSize raw < 2 ^ 64 := by
  unfold requestedPoolSize
  split
  · rename_i n read
    obtain ⟨text, rfl, read⟩ := Option.bind_eq_some_iff.mp read
    obtain ⟨small, spelled⟩ := decimal?_eq_some_iff.mp read
    exact .inr ⟨text, rfl, asks_iff.mpr spelled, small⟩
  · exact .inl rfl

/-- The text asks for more permits than a pool can have, with a number of 64 bits. -/
def Excessive (raw : Option String) : Prop :=
  ∃ text n, raw = some text ∧ Asks text n ∧ Pool.maxPermits < n ∧ n < 2 ^ 64

theorem maxPermits_lt_requestedPoolSize_iff {raw : Option String} :
    Pool.maxPermits < requestedPoolSize raw ↔ Excessive raw := by
  constructor
  · intro many
    rcases requestedPoolSize_cases raw with default | ⟨text, rfl, asks, small⟩
    · rw [default] at many
      exact absurd many (by decide)
    · exact ⟨text, _, rfl, asks, many, small⟩
  · rintro ⟨text, n, rfl, asks, many, small⟩
    rwa [requestedPoolSize_of_asks asks (Nat.zero_lt_of_lt many) small]

end Notary.Engine

/-! ### Pools that serve their tasks -/

namespace Notary.Pool.Session

variable {ε α : Type} {size : Nat} {pauses : List Nat} {events : List (Event ε α)}
  {s : Session ε α}

/-- No task waits for ever for a permit of a pool of this size. -/
structure Served (size : Nat) (pauses : List Nat) (events : List (Event ε α)) (s : Session ε α) :
    Prop where
  permits : s.floor.available + s.floor.holding = size
  /-- Who waits does so because others hold all permits. -/
  held : ∀ (i k : Nat), s.floor.phases[i]? = some (.waiting k) → s.floor.holding = size
  /-- Until all tasks are finished one of them can move, and a task that is done may end with any
  result. -/
  moves : ∀ (i : Nat) (p : Phase), s.floor.phases[i]? = some p → p ≠ .finished → ∀ result,
    ∃ e s', s.Step e s' ∧ ∀ i r, e = .ends i r → r = result
  /-- The tasks come to an end, whatever the order of their turns. -/
  length_le : events.length ≤ (pauses.map (· + 3)).sum

theorem Past.served (pos : 0 < size) (past : Past size pauses events s) :
    Served size pauses events s where
  permits := past.permits.trans (Nat.max_eq_left pos)
  held i k waits := by
    have inLine : i ∈ s.floor.line := (past.ordered.mem_line_iff i).mpr ⟨k, waits⟩
    have taken : s.floor.available = 0 := past.ordered.idle.resolve_left (List.ne_nil_of_mem inLine)
    have permits := past.permits
    omega
  moves _ _ here unfinished result := past.progress here unfinished result
  length_le := Nat.le_of_add_right_le past.length_le

end Notary.Pool.Session

/-! ### Engines -/

namespace Notary.Engine

variable {σ γ : Type} {config : EngineConfig} {sandbox : Guest.Executor γ}
  {surroundings : Context.Surroundings} {cache : Option Context.ContextCache}

theorem start_eq_crash_iff {store : Option σ} {pool : Option Nat} :
    start store config sandbox surroundings cache pool = .crash ↔
      store.isSome ∧ pool = none ∧ Pool.maxPermits < config.workerPoolSize := by
  have answers (r : Except Fault (Engine σ γ)) : Pool.Ending.ofExcept r ≠ .crash := by
    cases r <;> simp [Pool.Ending.ofExcept]
  have one : 1 ≤ Pool.maxPermits := by decide
  unfold start
  split
  · by_cases fits : max config.workerPoolSize 1 ≤ Pool.maxPermits
    · have : ¬Pool.maxPermits < config.workerPoolSize := by omega
      simp [Pool.permits?, fits, answers, this]
    · have : Pool.maxPermits < config.workerPoolSize := by omega
      simp [Pool.permits?, fits, this]
  · rename_i other
    simp only [answers, false_iff, not_and]
    intro given
    obtain ⟨store, rfl⟩ := Option.isSome_iff_exists.mp given
    rintro rfl
    exact (other store rfl rfl).elim

/-- When there can be a pool of its size, an engine starts as it is built. -/
theorem start_eq_build {store : Option σ} (fits : config.workerPoolSize ≤ Pool.maxPermits)
    (pool : Option Nat) :
    start store config sandbox surroundings cache pool =
      .ofExcept (build store config sandbox surroundings cache pool) := by
  have fits : max config.workerPoolSize 1 ≤ Pool.maxPermits := Nat.max_le.mpr ⟨fits, by decide⟩
  unfold start
  split
  · simp only [Pool.permits?, fits, if_true]
    rfl
  · rfl

/-- The settings of an environment have a permit at least, and more than there can be only when the
text asks for them. Then no engine starts. Else one starts, and no task waits for ever for a permit
of its pool. -/
theorem start_of_environment (store : σ) (raw : Option String) (sandbox : Guest.Executor γ)
    (surroundings : Context.Surroundings) (cache : Option Context.ContextCache) :
    let config := EngineConfig.ofEnvironment raw
    let started := start (some store) config sandbox surroundings cache none
    1 ≤ config.workerPoolSize ∧
      (Excessive raw ∧ Pool.maxPermits < config.workerPoolSize ∧ started = .crash ∨
        ¬Excessive raw ∧ config.workerPoolSize ≤ Pool.maxPermits ∧
          ∃ e, started = .value e ∧ e.poolSize = config.workerPoolSize ∧
            ∀ (ε α : Type) pauses events (s : Pool.Session ε α),
              Pool.Session.Past e.poolSize pauses events s →
                Pool.Session.Served e.poolSize pauses events s) := by
  intro config started
  have pos : 0 < config.workerPoolSize := requestedPoolSize_pos raw
  refine ⟨pos, ?_⟩
  by_cases excessive : Excessive raw
  · have many : Pool.maxPermits < config.workerPoolSize :=
      maxPermits_lt_requestedPoolSize_iff.mpr excessive
    exact .inl ⟨excessive, many, start_eq_crash_iff.mpr ⟨rfl, rfl, many⟩⟩
  · have fits : config.workerPoolSize ≤ Pool.maxPermits :=
      Nat.le_of_not_lt fun many => excessive (maxPermits_lt_requestedPoolSize_iff.mp many)
    have size : max config.workerPoolSize 1 = config.workerPoolSize := Nat.max_eq_left pos
    refine .inr ⟨excessive, fits, _, start_eq_build fits none, size, ?_⟩
    intro ε α pauses events s past
    exact past.served (size.symm ▸ pos)

/-- A size that is read as it stands, although no pool can have it. -/
theorem crash_of_large_size :
    requestedPoolSize (some "2305843009213693952") = Pool.maxPermits + 1 ∧
      start (some ()) (.ofEnvironment (some "2305843009213693952")) Guest.interpreter {} none none =
        .crash := by
  have size : requestedPoolSize (some "2305843009213693952") = Pool.maxPermits + 1 := by
    decide +kernel
  refine ⟨size, start_eq_crash_iff.mpr ⟨rfl, rfl, ?_⟩⟩
  exact Nat.lt_of_lt_of_eq (Nat.lt_succ_self _) size.symm

end Notary.Engine
