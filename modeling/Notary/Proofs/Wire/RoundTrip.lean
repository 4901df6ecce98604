/-
Messages that are read back from their bytes.

A message is written field by field. Reading goes over the bytes of each field in turn and carries
the value of that field into a message that is blank at first, so in the end the message holds all
values that were written.

* `Scalar.Faithful`, `Key.read_write` — values and keys are read back.
* `Carries` — reading what a field wrote puts its value into the message; one lemma for each kind of
  field.
* `Format.Faithful` — the fields of a format carry every message over.
* `read_write` — such a format reads back what it writes.
-/

import Notary.Proofs.Wire.Stretch

namespace Notary.Wire

/-- Messages may have fewer bytes than this. -/
def sizeLimit : Nat := 2 ^ 63

/-! ### Values -/

theorem readDelimited_write {b : Bytes} (short : b.length < 2 ^ 64) (rest : Bytes) :
    readDelimited (Varint.write b.length ++ b ++ rest) = .ok (b, rest) := by
  unfold readDelimited
  rw [List.append_assoc, Varint.read_write short]
  simp [takeBytes]

theorem Varint.write_ne_nil (n : Nat) : Varint.write n ≠ [] := by
  rw [Varint.write]
  split <;> simp

namespace Scalar

/-- A value takes a byte at least, and it is read back from its bytes. -/
structure Faithful {α : Type} (s : Scalar α) : Prop where
  something : ∀ a, s.write a ≠ []
  read_write : ∀ a rest, (s.write a).length < sizeLimit → s.read (s.write a ++ rest) = .ok (a, rest)

/-- The bytes behind a length are fewer than the length and they together. -/
theorem length_lt_of_delimited {b : Bytes}
    (short : (Varint.write b.length ++ b).length < sizeLimit) : b.length < 2 ^ 64 := by
  rw [List.length_append, sizeLimit] at short
  omega

theorem faithful_blob : blob.Faithful := by
  constructor
  · intro b
    simp [blob, Varint.write_ne_nil]
  · intro b rest short
    exact readDelimited_write (length_lt_of_delimited short) rest

theorem faithful_text : text.Faithful := by
  constructor
  · intro s
    simp [text, Varint.write_ne_nil]
  · intro s rest short
    have delimited := readDelimited_write (length_lt_of_delimited short) rest
    simp only [text, delimited, Bytes.toText?_ofText]

theorem faithful_flag : flag.Faithful := by
  constructor
  · intro b
    exact Varint.write_ne_nil _
  · intro b rest _
    have small : b.toNat < 2 ^ 64 := by cases b <;> decide
    simp only [flag, Varint.read_write small, Except.map]
    cases b <;> rfl

/-- A signed number is the only one of 32 bits with its value modulo 2⁶⁴. -/
theorem ofNat_signedToNat (i : Int32) : Int32.ofNat (signedToNat i) = i := by
  apply Int32.toInt_inj.mp
  have low := i.le_toInt
  have high := i.toInt_lt
  have size : Int32.size = 2 ^ 32 := rfl
  rw [Int32.toInt_ofNat', signedToNat, Int.bmod_def, size]
  omega

theorem faithful_enumeration : enumeration.Faithful := by
  constructor
  · intro i
    exact Varint.write_ne_nil _
  · intro i rest _
    have small : signedToNat i < 2 ^ 64 := by
      rw [signedToNat]
      omega
    simp only [enumeration, Varint.read_write small, Except.map, ofNat_signedToNat]

end Scalar

/-- Field numbers have 29 bits at most. -/
theorem Key.read_write {number : Nat} (pos : 0 < number) (small : number < 2 ^ 29) (w : WireType)
    (rest : Bytes) : Key.read (Key.write number w ++ rest) = .ok (number, w, rest) := by
  have low := w.number_lt
  have layout : (number * 8 + w.number) % 8 = w.number := by omega
  have quotient : (number * 8 + w.number) / 8 = number := by omega
  have fits : ¬ 2 ^ 32 ≤ number * 8 + w.number := by omega
  have named : number ≠ 0 := by omega
  unfold Key.read Key.write
  rw [Varint.read_write (by omega)]
  simp only [if_neg fits, layout, WireType.ofNumber?_number, quotient, if_neg named]

/-! ### Fields -/

variable {M α : Type} {f : Format M} {d : Nat} {m a b : M}

/-- The field of a format by its number, with ways to get and to set its value that fit together. All
three parts hold by evaluation for the fields of a concrete format. -/
structure Slot (f : Format M) (fd : Field M) (get : M → α) (set : α → M → M) : Prop where
  number : decide (0 < fd.number ∧ fd.number < 2 ^ 29) = true
  found : f.fields.find? (·.number == fd.number) = some fd
  laws : (fun (v w : α) (m : M) => (get (set v m), set (get m) m, set v (set w m))) =
    fun v _ m => (v, m, set v m)

namespace Slot

variable {fd : Field M} {get : M → α} {set : α → M → M}

theorem number_pos (slot : Slot f fd get set) : 0 < fd.number := (of_decide_eq_true slot.number).1

theorem number_lt (slot : Slot f fd get set) : fd.number < 2 ^ 29 :=
  (of_decide_eq_true slot.number).2

theorem get_set (slot : Slot f fd get set) (v : α) (m : M) : get (set v m) = v :=
  congrArg (·.1) (congrFun (congrFun (congrFun slot.laws v) v) m)

theorem set_get (slot : Slot f fd get set) (m : M) : set (get m) m = m :=
  congrArg (·.2.1) (congrFun (congrFun (congrFun slot.laws (get m)) (get m)) m)

theorem set_set (slot : Slot f fd get set) (v w : α) (m : M) : set v (set w m) = set v m :=
  congrArg (·.2.2) (congrFun (congrFun (congrFun slot.laws v) w) m)

end Slot

/-- Reading what the field wrote of the message `m` makes `b` of the message `a`. -/
def Carries (f : Format M) (d : Nat) (fd : Field M) (m a b : M) : Prop :=
  (fd.encode m).length < sizeLimit → Covers (f.mergeField d) a (fd.encode m) b

/-- A key is taken together with the value behind it. -/
theorem Slot.takes {fd : Field M} {get : M → α} {set : α → M → M} (slot : Slot f fd get set)
    {w : WireType} {value : Bytes}
    (merged : ∀ rest, fd.merge d w a (value ++ rest) = .ok (b, rest)) :
    Takes (f.mergeField d) a (Key.write fd.number w ++ value) b := by
  constructor
  · simp [Key.write, Varint.write_ne_nil]
  · intro rest
    unfold Format.mergeField
    rw [List.append_assoc, Key.read_write slot.number_pos slot.number_lt]
    simp only [slot.found, merged]

/-- A field that is left out stands for the value that the message has anyway. -/
theorem Slot.set_of_eq {fd : Field M} {get : M → α} {set : α → M → M} (slot : Slot f fd get set)
    (same : get m = get a) : set (get m) a = a := by
  rw [same, slot.set_get]

theorem carries_scalar [DecidableEq α] {s : Scalar α} (faithful : s.Faithful) {number : Nat}
    {name : String} {get : M → α} {set : α → M → M}
    (slot : Slot f (.scalar s number name get set) get set) (blank : get a = s.blank) :
    Carries f d (.scalar s number name get set) m a (set (get m) a) := by
  intro short
  simp only [Field.scalar] at short ⊢
  by_cases default : get m = s.blank
  · rw [if_pos default, slot.set_of_eq (default.trans blank.symm)]
    exact .nil a
  · rw [if_neg default] at short ⊢
    have small : (s.write (get m)).length < sizeLimit := by
      rw [List.length_append] at short
      omega
    refine .single (slot.takes ?_)
    intro rest
    simp only [Field.scalar, expect, if_true, faithful.read_write _ rest small]

/-! ### Embedded messages -/

/-- The fields write a message one after the other, and carry it over together. -/
inductive CarryAll (f : Format M) (d : Nat) (m : M) : List (Field M) → M → M → Prop where
  | nil (a : M) : CarryAll f d m [] a a
  | cons {fd : Field M} {fds : List (Field M)} {a b c : M} (first : Carries f d fd m a b)
      (later : CarryAll f d m fds b c) : CarryAll f d m (fd :: fds) a c

theorem CarryAll.covers {fds : List (Field M)} (carry : CarryAll f d m fds a b)
    (short : (fds.flatMap (·.encode m)).length < sizeLimit) :
    Covers (f.mergeField d) a (fds.flatMap (·.encode m)) b := by
  induction carry with
  | nil a => exact .nil a
  | cons first later ih =>
    rw [List.flatMap_cons, List.length_append] at short
    rw [List.flatMap_cons]
    exact (first (by omega)).append (ih (by omega))

/-- Reading what the format writes of a message, `d` levels deep at most, makes it of the blank
one. -/
def Format.Faithful (f : Format M) (d : Nat) : Prop := ∀ m, CarryAll f d m f.fields f.blank m

theorem Format.Faithful.covers (faithful : f.Faithful d) (short : (f.write m).length < sizeLimit) :
    Covers (f.mergeField d) f.blank (f.write m) m :=
  (faithful m).covers short

theorem mergeNested_writeNested (faithful : f.Faithful d)
    (short : (f.writeNested m).length < sizeLimit) (rest : Bytes) :
    f.mergeNested (d + 1) .delimited f.blank (f.writeNested m ++ rest) = .ok (m, rest) := by
  have small : (f.write m).length < sizeLimit := by
    rw [Format.writeNested, List.length_append] at short
    omega
  have length : (f.write m).length < 2 ^ 64 := by
    rw [sizeLimit] at small
    omega
  exact within_of_covers Fault.ofCause (faithful.covers small) length rest

theorem carries_optional {g : Format α} (faithful : g.Faithful d) {number : Nat} {name : String}
    {get : M → Option α} {set : Option α → M → M}
    (slot : Slot f (.optional g number name get set) get set) (blank : get a = none) :
    Carries f (d + 1) (.optional g number name get set) m a (set (get m) a) := by
  intro short
  cases present : get m with
  | none =>
    simp only [Field.optional, present]
    rw [← present, slot.set_of_eq (present.trans blank.symm)]
    exact .nil a
  | some v =>
    simp only [Field.optional, present] at short ⊢
    have small : (g.writeNested v).length < sizeLimit := by
      rw [List.length_append] at short
      omega
    refine .single (slot.takes ?_)
    intro rest
    simp only [Field.optional, blank, Option.getD_none, mergeNested_writeNested faithful small]

/-- The induction is on the values that are left; those that were read already are at hand. -/
theorem carries_repeated {g : Format α} (faithful : g.Faithful d) {number : Nat} {name : String}
    {get : M → List α} {set : List α → M → M}
    (slot : Slot f (.repeated g number name get set) get set) (blank : get a = []) :
    Carries f (d + 1) (.repeated g number name get set) m a (set (get m) a) := by
  have every (vs : List α) (a : M)
      (short : (vs.flatMap fun v => Key.write number .delimited ++ g.writeNested v).length <
        sizeLimit) :
      Covers (f.mergeField (d + 1)) a
        (vs.flatMap fun v => Key.write number .delimited ++ g.writeNested v)
        (set (get a ++ vs) a) := by
    induction vs generalizing a with
    | nil =>
      rw [List.append_nil, slot.set_get]
      exact .nil a
    | cons v vs ih =>
      rw [List.flatMap_cons, List.length_append, List.length_append] at short
      have small : (g.writeNested v).length < sizeLimit := by omega
      have here : Takes (f.mergeField (d + 1)) a (Key.write number .delimited ++ g.writeNested v)
          (set (get a ++ [v]) a) := by
        refine slot.takes ?_
        intro rest
        simp only [Field.repeated, mergeNested_writeNested faithful small]
      have later := ih (set (get a ++ [v]) a) (by omega)
      rw [slot.get_set, slot.set_set, List.append_assoc, List.singleton_append] at later
      rw [List.flatMap_cons]
      exact .cons here later
  intro short
  have all := every (get m) a short
  rwa [blank, List.nil_append] at all

/-! ### Lists of numbers -/

/-- Values that stand in one stretch are read one after the other. -/
theorem covers_values {s : Scalar α} (faithful : s.Faithful) {get : M → List α}
    {set : List α → M → M} (get_set : ∀ v m, get (set v m) = v) (set_get : ∀ m, set (get m) m = m)
    (set_set : ∀ v w m, set v (set w m) = set v m) (vs : List α) (a : M)
    (short : (vs.flatMap s.write).length < sizeLimit) :
    Covers (fun (m : M) bs =>
        match s.read bs with
        | .error c => .error (Fault.ofCause c)
        | .ok (v, rest) => .ok (set (get m ++ [v]) m, rest))
      a (vs.flatMap s.write) (set (get a ++ vs) a) := by
  induction vs generalizing a with
  | nil =>
    rw [List.append_nil, set_get]
    exact .nil a
  | cons v vs ih =>
    rw [List.flatMap_cons, List.length_append] at short
    have later := ih (set (get a ++ [v]) a) (by omega)
    rw [get_set, set_set, List.append_assoc, List.singleton_append] at later
    rw [List.flatMap_cons]
    refine .cons ⟨faithful.something v, ?_⟩ later
    intro rest
    simp only [faithful.read_write v rest (by omega)]

theorem carries_packed {s : Scalar α} (faithful : s.Faithful) (bare : s.wire ≠ .delimited)
    {number : Nat} {name : String} {get : M → List α} {set : List α → M → M}
    (slot : Slot f (.packed s number name get set) get set) (blank : get a = []) :
    Carries f d (.packed s number name get set) m a (set (get m) a) := by
  intro short
  cases present : get m with
  | nil =>
    simp only [Field.packed, present]
    rw [← present, slot.set_of_eq (present.trans blank.symm)]
    exact .nil a
  | cons v vs =>
    simp only [Field.packed, present] at short ⊢
    have small : ((v :: vs).flatMap s.write).length < sizeLimit := by
      rw [List.length_append, List.length_append] at short
      omega
    have length : ((v :: vs).flatMap s.write).length < 2 ^ 64 := by
      rw [sizeLimit] at small
      omega
    have values := covers_values faithful slot.get_set slot.set_get slot.set_set (v :: vs) a small
    rw [blank, List.nil_append] at values
    refine .single (slot.takes ?_)
    intro rest
    simp only [Field.packed, Field.mergeScalars, if_pos (And.intro trivial bare)]
    exact within_of_covers Fault.ofCause values length rest

/-! ### Whole messages -/

theorem read_write (faithful : f.Faithful depthLimit) (short : (f.write m).length < sizeLimit) :
    f.read (f.write m) = .ok m := by
  have whole := repeatUntil_of_covers (faithful.covers short) (Nat.le_refl _) []
  rw [List.append_nil] at whole
  rw [Format.read, show (0 : Nat) = ([] : Bytes).length from rfl, whole]
  rfl

end Notary.Wire
