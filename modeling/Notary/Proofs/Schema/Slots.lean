/-
The slots of a message, seen by number.

In a message whose slots stand in number order, each number once, a slot is what the message has
under its number. Giving a field its values changes that number, and takes away the other members of
the field's choice.

* `Ordered`, `slot?` — number order, and the slot of a number.
* `Ordered.slot?_put` — what a message has after a field was given its values.
* `Ordered.ext` — two messages with the same slots by number are the same.
* `slot?_blankEntry` — what an entry has before anything is read of it.
-/

import Notary.Proofs.Schema.Decoded

namespace Notary.Schema

namespace Slot

/-- The slot of a number. -/
def at? (ss : List Slot) (n : Nat) : Option Slot := ss.find? (·.field.number == n)

/-- Slots stand in number order, each number once. -/
def Rises (ss : List Slot) : Prop := ss.Pairwise fun a b => a.field.number < b.field.number

theorem at?_cons (s : Slot) (ss : List Slot) (n : Nat) :
    at? (s :: ss) n = if s.field.number = n then some s else at? ss n := by
  by_cases same : s.field.number = n <;> simp [at?, same]

theorem at?_eq_none {ss : List Slot} {n : Nat} (missing : ∀ s ∈ ss, s.field.number ≠ n) :
    at? ss n = none := by
  rw [at?, List.find?_eq_none]
  intro s member
  simpa using missing s member

theorem at?_insert (s : Slot) (ss : List Slot) (n : Nat) :
    at? (s.insert ss) n = if s.field.number = n then some s else at? ss n := by
  induction ss with
  | nil => exact at?_cons s [] n
  | cons t rest ih =>
    unfold insert
    split
    · exact at?_cons s _ n
    · split
      · rename_i equal
        rw [at?_cons, at?_cons t rest, ← equal]
        split <;> rfl
      · rename_i less equal
        rw [at?_cons, ih, at?_cons]
        split
        · rename_i here
          rw [if_neg fun same => equal (same.trans here.symm)]
        · rfl

theorem eq_or_mem_of_mem_insert {s t : Slot} {ss : List Slot} (member : t ∈ s.insert ss) :
    t = s ∨ t ∈ ss := by
  induction ss with
  | nil => exact .inl (List.mem_singleton.mp member)
  | cons u rest ih =>
    unfold insert at member
    split at member
    · exact List.mem_cons.mp member
    · split at member
      · rcases List.mem_cons.mp member with new | old
        · exact .inl new
        · exact .inr (List.mem_cons_of_mem _ old)
      · rcases List.mem_cons.mp member with here | later
        · exact .inr (here ▸ List.mem_cons_self)
        · rcases ih later with new | old
          · exact .inl new
          · exact .inr (List.mem_cons_of_mem _ old)

theorem Rises.insert {ss : List Slot} (rises : Rises ss) (s : Slot) : Rises (s.insert ss) := by
  unfold Rises at rises
  induction rises with
  | nil => exact List.pairwise_singleton _ s
  | @cons t rest least rises ih =>
    unfold Slot.insert
    split
    · rename_i less
      refine .cons ?_ (.cons least rises)
      intro u member
      rcases List.mem_cons.mp member with rfl | later
      · exact less
      · exact Nat.lt_trans less (least u later)
    · split
      · rename_i equal
        exact .cons (fun u later => equal ▸ least u later) rises
      · rename_i less equal
        refine .cons ?_ ih
        intro u member
        rcases eq_or_mem_of_mem_insert member with rfl | old
        · omega
        · exact least u old

theorem Rises.filter {ss : List Slot} (rises : Rises ss) (passes : Slot → Bool) :
    Rises (ss.filter passes) :=
  List.Pairwise.filter passes rises

/-- Under a number there is one slot at most, so it is there after a filter if it passes. -/
theorem Rises.at?_filter {ss : List Slot} (rises : Rises ss) (passes : Slot → Bool) (n : Nat) :
    at? (ss.filter passes) n = (at? ss n).filter passes := by
  unfold Rises at rises
  induction rises with
  | nil => rfl
  | @cons s rest least rises ih =>
    rw [at?_cons, List.filter_cons]
    by_cases here : s.field.number = n
    · have later : at? rest n = none :=
        at?_eq_none fun t member same => by have more := least t member; omega
      rw [later] at ih
      cases pass : passes s with
      | true => simp [at?_cons, here, Option.filter, pass]
      | false => simpa [here, Option.filter, pass] using ih
    · cases pass : passes s with
      | true => simp [at?_cons, here, ih]
      | false => simp [here, ih]

theorem Rises.at?_of_mem {ss : List Slot} (rises : Rises ss) {s : Slot} (member : s ∈ ss) :
    at? ss s.field.number = some s := by
  unfold Rises at rises
  induction rises with
  | nil => cases member
  | @cons t rest least rises ih =>
    rw [at?_cons]
    rcases List.mem_cons.mp member with rfl | later
    · exact if_pos rfl
    · rw [if_neg (Nat.ne_of_lt (least s later))]
      exact ih later

theorem mem_of_at? {ss : List Slot} {n : Nat} {s : Slot} (found : at? ss n = some s) : s ∈ ss :=
  List.mem_of_find?_eq_some found

theorem number_of_at? {ss : List Slot} {n : Nat} {s : Slot} (found : at? ss n = some s) :
    s.field.number = n := by
  simpa using List.find?_some found

theorem Rises.nodup {ss : List Slot} (rises : Rises ss) : ss.Nodup := by
  refine List.Pairwise.imp ?_ rises
  intro s t less equal
  exact Nat.ne_of_lt less (congrArg (·.field.number) equal)

/-- Slots in number order are determined by what there is under each number. -/
theorem Rises.ext {ss ts : List Slot} (left : Rises ss) (right : Rises ts)
    (same : ∀ n, at? ss n = at? ts n) : ss = ts := by
  have sub {as bs : List Slot} (rises : Rises as) (same : ∀ n, at? as n = at? bs n) {s : Slot}
      (member : s ∈ as) : s ∈ bs :=
    mem_of_at? ((same _).symm.trans (rises.at?_of_mem member))
  have perm : ss.Perm ts := by
    rw [List.perm_ext_iff_of_nodup left.nodup right.nodup]
    intro s
    exact ⟨sub left same, sub right fun n => (same n).symm⟩
  exact perm.eq_of_pairwise (fun s t _ _ less more => absurd less (Nat.lt_asymm more)) left right

end Slot

namespace Message

/-- The slot of a number. -/
def slot? (m : Message) (n : Nat) : Option Slot := Slot.at? m.slots n

/-- The slots stand in number order, each number once. -/
def Ordered (m : Message) : Prop := Slot.Rises m.slots

theorem values_eq (m : Message) (n : Nat) :
    m.values n = ((m.slot? n).map Slot.values).getD [] := rfl

theorem ordered_blank (type : String) : (blank type).Ordered := .nil

theorem Ordered.ext {a b : Message} (left : a.Ordered) (right : b.Ordered) (type : a.type = b.type)
    (unknown : a.unknown = b.unknown) (slots : ∀ n, a.slot? n = b.slot? n) : a = b := by
  have same : a.slots = b.slots := Slot.Rises.ext left right slots
  cases a
  cases b
  cases type
  cases unknown
  cases same
  rfl

/-! ### Giving values -/

@[simp] theorem unknown_put (m : Message) (f : Field) (vs : List Value) :
    (m.put f vs).unknown = m.unknown := by
  cases m
  simp only [put]
  split <;> rfl

@[simp] theorem slots_keep (m : Message) (u : Unknown) : (m.keep u).slots = m.slots := by
  cases m
  rfl

@[simp] theorem unknown_keep (m : Message) (u : Unknown) :
    (m.keep u).unknown = u.insert m.unknown := by
  cases m
  rfl

theorem Ordered.put {m : Message} (ordered : m.Ordered) (f : Field) (vs : List Value) :
    (m.put f vs).Ordered := by
  obtain ⟨type, slots, unknown⟩ := m
  simp only [Message.put]
  split
  · exact (Slot.Rises.filter ordered _).filter _
  · exact Slot.Rises.insert (Slot.Rises.filter ordered _) _

/-- A field has the values that it was given, if they say anything; the other members of its choice
have none. -/
theorem Ordered.slot?_put {m : Message} (ordered : m.Ordered) (f : Field) (vs : List Value)
    (n : Nat) :
    (m.put f vs).slot? n =
      if f.number = n then (if f.isSilent vs then none else some (.mk f vs))
      else (m.slot? n).filter fun s => !f.excludes s.field := by
  obtain ⟨type, slots, unknown⟩ := m
  have rises : Slot.Rises slots := ordered
  have others := rises.filter fun s => !f.excludes s.field
  simp only [Message.put]
  cases silent : f.isSilent vs with
  | true =>
    simp only [if_true, slot?, Message.slots]
    rw [others.at?_filter, rises.at?_filter]
    split
    · rename_i here
      cases found : Slot.at? slots n with
      | none => rfl
      | some s =>
        have same : s.field.number = f.number := (Slot.number_of_at? found).trans here.symm
        cases free : !f.excludes s.field <;> simp [Option.filter, free, same]
    · rename_i other
      cases found : Slot.at? slots n with
      | none => rfl
      | some s =>
        have same : ¬ s.field.number = f.number := fun equal =>
          other (equal.symm.trans (Slot.number_of_at? found))
        cases free : !f.excludes s.field <;> simp [Option.filter, free, same]
  | false =>
    simp only [Bool.false_eq_true, if_false, slot?, Message.slots]
    rw [Slot.at?_insert, rises.at?_filter]
    rfl

/-- Only the last values count. -/
theorem Ordered.put_put {m : Message} (ordered : m.Ordered) (f : Field) (vs ws : List Value) :
    (m.put f vs).put f ws = m.put f ws := by
  have first := ordered.put f vs
  refine (first.put f ws).ext (ordered.put f ws) (by simp) (by simp) ?_
  intro n
  rw [first.slot?_put, ordered.slot?_put f vs, ordered.slot?_put f ws]
  split
  · rfl
  · cases m.slot? n with
    | none => rfl
    | some s => cases free : !f.excludes s.field <;> simp [Option.filter, free]

theorem Ordered.values_put {m : Message} (ordered : m.Ordered) {f : Field} {vs : List Value}
    (loud : f.isSilent vs = false) : (m.put f vs).values f.number = vs := by
  rw [values_eq, ordered.slot?_put, if_pos rfl, loud]
  rfl

end Message

/-! ### Fields that say nothing -/

namespace Field

theorem excludes_of_no_choice {f : Field} (free : f.oneof = none) (g : Field) :
    f.excludes g = false ∧ g.excludes f = false := by
  cases choice : g.oneof <;> simp [excludes, free, choice]

theorem excludes_comm (f g : Field) : f.excludes g = g.excludes f := by
  unfold excludes
  by_cases same : f.oneof = g.oneof
  · rw [same, bne_comm]
  · have left : (f.oneof == g.oneof) = false := beq_eq_false_iff_ne.mpr same
    have right : (g.oneof == f.oneof) = false := beq_eq_false_iff_ne.mpr (Ne.symm same)
    rw [left, right, Bool.and_false, Bool.and_false, Bool.false_and]
    simp

theorem not_isSilent_of_cons {f : Field} (many : f.arity ≠ .single) (v : Value) (vs : List Value) :
    f.isSilent (v :: vs) = false := by
  unfold isSilent
  cases f.hasPresence with
  | true => rfl
  | false =>
    cases vs with
    | cons w ws => cases v <;> rfl
    | nil =>
      cases v with
      | message m => rfl
      | datum d =>
        cases arity : f.arity with
        | single => exact absurd arity many
        | list | map => simp

end Field

/-- What is the same as some value is a number, and so the same as itself. -/
theorem ScalarKind.same_self {k : ScalarKind} {d e : Datum} (same : k.same d e = true) :
    k.same e e = true := by
  have number {f : Decimal.Format} {a b : Nat} (same : f.same a b = true) :
      f.same b b = true := by
    simp only [Decimal.Format.same, Decimal.Format.isUndefined, Bool.and_eq_true, Bool.or_eq_true,
      Bool.not_eq_true', decide_eq_false_iff_not, beq_iff_eq] at same ⊢
    rcases same with ⟨defined, rfl | ⟨-, zero⟩⟩
    · exact ⟨defined, .inl trivial⟩
    · exact ⟨by omega, .inl trivial⟩
  cases d with
  | blob a =>
    cases e with
    | blob b => simp [ScalarKind.same]
    | number b => cases same
  | number a =>
    cases e with
    | blob b => cases same
    | number b =>
      cases k with
      | float | double => exact number same
      | _ => simp [ScalarKind.same]

/-- A field that can say nothing says nothing by its default. -/
theorem Field.isSilent_default {f : Field} {vs : List Value} (silent : f.isSilent vs = true)
    (one : f.arity = .single → ∃ v, vs = [v]) : f.isSilent f.defaultValues = true := by
  obtain ⟨absent, spoken⟩ := Bool.and_eq_true_iff.mp silent
  cases arity : f.arity with
  | single =>
    obtain ⟨v, rfl⟩ := one arity
    cases v with
    | message m => cases spoken
    | datum d =>
      cases kind : f.kind with
      | message name | group name => simp [arity, kind] at spoken
      | scalar k =>
        simp only [arity, kind] at spoken
        simp [isSilent, defaultValues, arity, kind, absent, ScalarKind.same_self spoken]
  | list | map => simp [isSilent, defaultValues, arity, absent]

/-! ### Entries -/

namespace MessageType

theorem number_of_field? {t : MessageType} {n : Nat} {f : Field} (found : t.field? n = some f) :
    f.number = n := by
  simpa using List.find?_some found

/-- The fields of an entry are those of its type, and there is no choice between them. -/
theorem of_entryField? {t : MessageType} {n : Nat} {f : Field} (found : t.entryField? n = some f) :
    f.number = n ∧ f.oneof = none ∧ (n = 1 ∨ n = 2) := by
  unfold entryField? at found
  split at found
  · obtain ⟨g, key, rfl⟩ := Option.map_eq_some_iff.mp found
    exact ⟨(number_of_field? key).trans (Eq.symm ‹_›), rfl, .inl ‹_›⟩
  · split at found
    · obtain ⟨g, value, rfl⟩ := Option.map_eq_some_iff.mp found
      exact ⟨(number_of_field? value).trans (Eq.symm ‹_›), rfl, .inr ‹_›⟩
    · cases found

theorem entryField?_eq_none {t : MessageType} {n : Nat} (key : n ≠ 1) (value : n ≠ 2) :
    t.entryField? n = none := by
  rw [entryField?, if_neg key, if_neg value]

/-- The entry with the default of a field, if there is such a field. -/
theorem slot?_put_default {t : MessageType} {m : Message} (ordered : m.Ordered) (number : Nat) :
    let filled := match t.entryField? number with
      | some f => m.put f f.defaultValues
      | none => m
    filled.Ordered ∧ filled.unknown = m.unknown ∧ ∀ n, filled.slot? n =
      if number = n then
        match t.entryField? number with
        | some f => if f.isSilent f.defaultValues then none else some (.mk f f.defaultValues)
        | none => m.slot? n
      else m.slot? n := by
  cases found : t.entryField? number with
  | none => exact ⟨ordered, rfl, fun n => by simp⟩
  | some f =>
    obtain ⟨same, free, -⟩ := of_entryField? found
    refine ⟨ordered.put f _, m.unknown_put f _, ?_⟩
    intro n
    simp only [ordered.slot?_put, same]
    split
    · rfl
    · cases m.slot? n with
      | none => rfl
      | some s => simp [Option.filter, (Field.excludes_of_no_choice free s.field).1]

/-- Before anything is read, an entry has its defaults where they say something. -/
theorem slot?_blankEntry (t : MessageType) (n : Nat) :
    t.blankEntry.slot? n =
      (t.entryField? n).bind fun f =>
        if f.isSilent f.defaultValues then none else some (.mk f f.defaultValues) := by
  obtain ⟨first, -, key⟩ := slot?_put_default (t := t) (Message.ordered_blank t.name) 1
  obtain ⟨-, -, value⟩ := slot?_put_default (t := t) first 2
  refine (value n).trans ?_
  rw [key n]
  have nothing : (Message.blank t.name).slot? n = none := rfl
  by_cases isKey : 1 = n
  · subst isKey
    rw [if_neg (by decide), if_pos rfl, nothing]
    cases t.entryField? 1 <;> rfl
  · by_cases isValue : 2 = n
    · subst isValue
      rw [if_pos rfl, if_neg isKey, nothing]
      cases t.entryField? 2 <;> rfl
    · rw [if_neg isValue, if_neg isKey, nothing,
        entryField?_eq_none (Ne.symm isKey) (Ne.symm isValue)]
      rfl

theorem ordered_blankEntry (t : MessageType) : t.blankEntry.Ordered := by
  obtain ⟨first, -⟩ := slot?_put_default (t := t) (Message.ordered_blank t.name) 1
  exact (slot?_put_default (t := t) first 2).1

theorem type_blankEntry (t : MessageType) : t.blankEntry.type = t.name := by
  have put (m : Message) (n : Nat) :
      (match t.entryField? n with
        | some f => m.put f f.defaultValues
        | none => m).type = m.type := by
    split
    · exact m.type_put _ _
    · rfl
  exact (put _ 2).trans (put _ 1)

theorem unknown_blankEntry (t : MessageType) : t.blankEntry.unknown = [] := by
  obtain ⟨first, key, -⟩ := slot?_put_default (t := t) (Message.ordered_blank t.name) 1
  exact (slot?_put_default (t := t) first 2).2.1.trans key

end MessageType

end Notary.Schema
