/-
The parts that a message is written in.

A message is written slot by slot; the slots of fields from outside stand among the unknown fields,
by number. What stands under one number keeps its order, so the unknown fields come in the order in
which they are kept, and a part without bytes makes no difference.

* `filter_byNumber` — sorting by number keeps the order of what is picked out.
* `Message.parts`, `Message.bytes_eq_parts` — the parts in the order in which they are written.
* `Message.slots_of_parts`, `Message.unknown_of_parts` — what the parts are.
* `arrange_eq_of_filter` — parts without bytes make no difference.
-/

import Notary.Proofs.Schema.Kept
import Notary.Proofs.Schema.Slots

namespace Notary.Schema

/-! ### Sorting by number -/

section Sorting

variable {α β : Type} {number : α → Nat}

/-- Sorted by a number. -/
def byNumber (number : α → Nat) (as : List α) : List α :=
  as.mergeSort fun a b => number a ≤ number b

theorem pairwise_byNumber (as : List α) :
    (byNumber number as).Pairwise fun a b => number a ≤ number b := by
  have sorted : (byNumber number as).Pairwise fun a b => decide (number a ≤ number b) = true :=
    List.pairwise_mergeSort (by simp only [decide_eq_true_eq]; omega)
      (by simp only [Bool.or_eq_true, decide_eq_true_eq]; omega) as
  exact sorted.imp of_decide_eq_true

theorem perm_byNumber (number : α → Nat) (as : List α) : (byNumber number as).Perm as :=
  List.mergeSort_perm as _

theorem byNumber_of_pairwise {as : List α} (sorted : as.Pairwise fun a b => number a ≤ number b) :
    byNumber number as = as :=
  List.mergeSort_of_pairwise (sorted.imp decide_eq_true)

/-- What has one number keeps its order. -/
theorem filter_number_byNumber (as : List α) (n : Nat) :
    (byNumber number as).filter (number · == n) = as.filter (number · == n) := by
  have level : (as.filter (number · == n)).Pairwise
      fun a b => decide (number a ≤ number b) = true := by
    refine List.pairwise_of_forall_mem_list ?_
    intro a left b right
    have here := beq_iff_eq.mp (List.mem_filter.mp left).2
    have there := beq_iff_eq.mp (List.mem_filter.mp right).2
    exact decide_eq_true (by omega)
  have sub : (as.filter (number · == n)).Sublist (byNumber number as) :=
    List.sublist_mergeSort (by simp only [decide_eq_true_eq]; omega)
      (by simp only [Bool.or_eq_true, decide_eq_true_eq]; omega) level List.filter_sublist
  have again := sub.filter (number · == n)
  simp only [List.filter_filter, Bool.and_self] at again
  exact (again.eq_of_length ((perm_byNumber number as).filter _).length_eq.symm).symm

/-- A sorted list is determined by what it has under each number, and in which order. -/
theorem eq_of_filter_number_eq {as bs : List α} (left : as.Pairwise fun a b => number a ≤ number b)
    (right : bs.Pairwise fun a b => number a ≤ number b)
    (same : ∀ n, as.filter (number · == n) = bs.filter (number · == n)) : as = bs := by
  induction left generalizing bs with
  | nil =>
    cases bs with
    | nil => rfl
    | cons b bs => simpa using same (number b)
  | @cons a as least _ ih =>
    cases right with
    | nil => simpa using same (number a)
    | @cons b bs least' later =>
      have shared (c : α) : c ∈ a :: as ↔ c ∈ b :: bs := by
        have picked := congrArg (c ∈ ·) (same (number c))
        simpa only [List.mem_filter, beq_self_eq_true, and_true, eq_iff_iff] using picked
      have level : number a = number b := by
        have below : number a ≤ number b := by
          rcases List.mem_cons.mp ((shared b).mpr List.mem_cons_self) with rfl | after
          · exact Nat.le_refl _
          · exact least b after
        have above : number b ≤ number a := by
          rcases List.mem_cons.mp ((shared a).mp List.mem_cons_self) with rfl | after
          · exact Nat.le_refl _
          · exact least' a after
        exact Nat.le_antisymm below above
      have heads := same (number a)
      simp only [List.filter_cons, beq_self_eq_true, if_true, level, List.cons.injEq] at heads
      obtain ⟨rfl, -⟩ := heads
      rw [ih later]
      intro n
      have tails := same n
      rw [List.filter_cons, List.filter_cons] at tails
      split at tails
      · exact (List.cons.inj tails).2
      · exact tails

/-- What is picked out of a sorted list is the sorted list of what is picked out. -/
theorem filter_byNumber (as : List α) (picks : α → Bool) :
    (byNumber number as).filter picks = byNumber number (as.filter picks) := by
  refine eq_of_filter_number_eq ((pairwise_byNumber as).filter picks) (pairwise_byNumber _) ?_
  intro n
  have swap (cs : List α) :
      (cs.filter picks).filter (number · == n) = (cs.filter (number · == n)).filter picks := by
    simp only [List.filter_filter, Bool.and_comm]
  rw [filter_number_byNumber, swap, swap, filter_number_byNumber]

theorem map_byNumber (as : List α) {f : α → β} {number' : β → Nat}
    (keeps : ∀ a, number' (f a) = number a) :
    (byNumber number as).map f = byNumber number' (as.map f) := by
  refine List.map_mergeSort ?_
  intro a _ b _
  rw [keeps, keeps]

theorem flatMap_filter {as : List α} (picks : α → Bool) {f : α → List β}
    (rest : ∀ a, picks a = false → f a = []) : (as.filter picks).flatMap f = as.flatMap f := by
  induction as with
  | nil => rfl
  | cons a as ih =>
    rw [List.filter_cons, List.flatMap_cons, ← ih]
    split
    · rw [List.flatMap_cons]
    · rename_i other
      rw [rest a (Bool.eq_false_iff.mpr other), List.nil_append]

end Sorting

/-! ### Parts -/

/-- A part of a message: the slot of a field, or an unknown field. -/
inductive Part where
  | slot (s : Slot)
  | unknown (u : Unknown)

namespace Part

def number : Part → Nat
  | .slot s => s.field.number
  | .unknown u => u.number

def bytes : Part → Bytes
  | .slot s => s.bytes
  | .unknown u => u.bytes

def slot? : Part → Option Slot
  | .slot s => some s
  | .unknown _ => none

def unknown? : Part → Option Unknown
  | .slot _ => none
  | .unknown u => some u

end Part

namespace Message

/-- The parts behind the fields of the type. -/
def others (m : Message) : List Part :=
  (m.slots.filter (·.field.isExtension)).map .slot ++ m.unknown.map .unknown

/-- The parts in the order in which they are written. -/
def parts (m : Message) : List Part :=
  (m.slots.filter fun s => !s.field.isExtension).map .slot ++ byNumber Part.number m.others

end Message

/-! ### Bytes -/

theorem slotsBytes_eq (ss : List Slot) : slotsBytes ss = ss.map fun s => (s.field, s.bytes) := by
  induction ss with
  | nil => rfl
  | cons s rest ih => rw [slotsBytes, ih, List.map_cons]

theorem arrange_eq (ss : List (Field × Bytes)) (us : List (Nat × Bytes)) :
    arrange ss us = (ss.filter fun s => !s.1.isExtension).flatMap (·.2) ++
      (byNumber (·.1)
        ((ss.filter (·.1.isExtension)).map (fun s => (s.1.number, s.2)) ++ us)).flatMap (·.2) := by
  rw [arrange, List.partition_eq_filter_filter]
  rfl

/-- Sorting keeps the bytes in the order of those that are not empty. -/
theorem flatMap_byNumber_eq {as bs : List (Nat × Bytes)}
    (same : as.filter (fun a => !a.2.isEmpty) = bs.filter fun a => !a.2.isEmpty) :
    (byNumber (·.1) as).flatMap (·.2) = (byNumber (·.1) bs).flatMap (·.2) := by
  have drop (as : List (Nat × Bytes)) : (byNumber (·.1) as).flatMap (·.2) =
      (byNumber (·.1) (as.filter fun a => !a.2.isEmpty)).flatMap (·.2) := by
    rw [← filter_byNumber, flatMap_filter _ (by simp)]
  rw [drop as, same, ← drop bs]

/-- Parts without bytes make no difference. -/
theorem arrange_eq_of_filter {ss ts : List (Field × Bytes)} (us : List (Nat × Bytes))
    (same : ss.filter (fun s => !s.2.isEmpty) = ts.filter fun s => !s.2.isEmpty) :
    arrange ss us = arrange ts us := by
  have picked (isPicked : Field × Bytes → Bool) :
      (ss.filter isPicked).filter (fun s => !s.2.isEmpty) =
        (ts.filter isPicked).filter fun s => !s.2.isEmpty := by
    have swap (rs : List (Field × Bytes)) :
        (rs.filter isPicked).filter (fun s => !s.2.isEmpty) =
          (rs.filter fun s => !s.2.isEmpty).filter isPicked := by
      simp only [List.filter_filter, Bool.and_comm]
    rw [swap, swap, same]
  rw [arrange_eq, arrange_eq]
  congr 1
  · rw [← flatMap_filter (fun s => !s.2.isEmpty) (by simp), picked, flatMap_filter _ (by simp)]
  · refine flatMap_byNumber_eq ?_
    rw [List.filter_append, List.filter_append, List.filter_map, List.filter_map]
    refine congrArg (· ++ _) (congrArg (List.map _) ?_)
    exact picked (·.1.isExtension)

namespace Message

/-- A message is written part by part. -/
theorem bytes_eq_parts (m : Message) : m.bytes = m.parts.flatMap Part.bytes := by
  obtain ⟨type, slots, unknown⟩ := m
  have others : byNumber (·.1) ((slots.filter (·.field.isExtension)).map
        (fun s => (s.field.number, s.bytes)) ++ unknown.map fun u => (u.number, u.bytes)) =
      (byNumber Part.number (Message.mk type slots unknown).others).map
        fun a => (a.number, a.bytes) := by
    have sorted : (byNumber Part.number (Message.mk type slots unknown).others).map
        (fun a => (a.number, a.bytes)) = byNumber (·.1) _ := map_byNumber _ fun _ => rfl
    rw [Message.others, List.map_append, List.map_map, List.map_map] at sorted
    exact sorted.symm
  rw [Message.bytes, slotsBytes_eq, arrange_eq, parts, List.filter_map, List.filter_map,
    List.map_map, List.flatMap_append, List.flatMap_map, List.flatMap_map]
  refine congrArg (_ ++ ·) ?_
  refine (congrArg (List.flatMap (·.2)) others).trans ?_
  rw [List.flatMap_map]

/-- Fields of the type are written in their order. -/
theorem bytes_of_own {type : String} {slots : List Slot}
    (own : ∀ s ∈ slots, s.field.isExtension = false) :
    (Message.mk type slots []).bytes = slots.flatMap Slot.bytes := by
  have inner : slots.filter (fun s => !s.field.isExtension) = slots :=
    List.filter_eq_self.mpr fun s member => by simp [own s member]
  have outer : slots.filter (·.field.isExtension) = [] :=
    List.filter_eq_nil_iff.mpr fun s member => by simp [own s member]
  rw [bytes_eq_parts, parts, others, Message.slots, Message.unknown, inner, outer]
  simp [byNumber, List.flatMap_map, Part.bytes]

/-- The slots among the parts are those of the message, in some order. -/
theorem slots_of_parts (m : Message) : (m.parts.filterMap Part.slot?).Perm m.slots := by
  have own (ss : List Slot) : (ss.map Part.slot).filterMap Part.slot? = ss := by
    rw [List.filterMap_map]
    exact List.filterMap_some
  have none (us : List Unknown) : (us.map Part.unknown).filterMap Part.slot? = [] := by
    rw [List.filterMap_map]
    exact List.filterMap_eq_nil_iff.mpr fun _ _ => rfl
  have sorted := (perm_byNumber Part.number m.others).filterMap Part.slot?
  rw [others, List.filterMap_append, own, none, List.append_nil] at sorted
  rw [parts, List.filterMap_append, own]
  refine (List.Perm.append_left _ sorted).trans ?_
  exact List.perm_append_comm.trans (List.filter_append_perm (·.field.isExtension) m.slots)

theorem slot_mem_parts {m : Message} {s : Slot} : Part.slot s ∈ m.parts ↔ s ∈ m.slots := by
  rw [← m.slots_of_parts.mem_iff, List.mem_filterMap]
  constructor
  · exact fun member => ⟨_, member, rfl⟩
  · rintro ⟨a, member, same⟩
    cases a with
    | slot r => exact Option.some.inj same ▸ member
    | unknown u => cases same

/-- The slots have different numbers. -/
theorem Ordered.pairwise_parts {m : Message} (ordered : m.Ordered) :
    (m.parts.filterMap Part.slot?).Pairwise fun a b => a.field.number ≠ b.field.number := by
  rw [m.slots_of_parts.pairwise_iff fun other => Ne.symm other]
  exact List.Pairwise.imp Nat.ne_of_lt ordered

/-- The unknown fields among the parts are those of the message, in their order. -/
theorem unknown_of_parts {m : Message} (sorted : Unknown.Sorted m.unknown) :
    m.parts.filterMap Part.unknown? = m.unknown := by
  have none (ss : List Slot) : (ss.map Part.slot).filterMap Part.unknown? = [] := by
    rw [List.filterMap_map]
    exact List.filterMap_eq_nil_iff.mpr fun _ _ => rfl
  have own (us : List Unknown) : (us.map Part.unknown).filterMap Part.unknown? = us := by
    rw [List.filterMap_map]
    exact List.filterMap_some
  have picked : m.others.filter (·.unknown?.isSome) = m.unknown.map Part.unknown := by
    rw [others, List.filter_append, List.filter_map, List.filter_map,
      List.filter_eq_nil_iff.mpr (by simp [Part.unknown?]),
      List.filter_eq_self.mpr (by simp [Part.unknown?])]
    rfl
  have kept : (m.unknown.map Part.unknown).Pairwise fun a b => a.number ≤ b.number := by
    rw [List.pairwise_map]
    exact sorted
  have drop (as : List Part) :
      (as.filter (·.unknown?.isSome)).filterMap Part.unknown? = as.filterMap Part.unknown? := by
    rw [List.filterMap_filter]
    refine congrArg (as.filterMap ·) (funext fun a => ?_)
    cases a <;> rfl
  rw [parts, List.filterMap_append, none, List.nil_append, ← drop, filter_byNumber, picked,
    byNumber_of_pairwise kept, own]

end Message

end Notary.Schema
