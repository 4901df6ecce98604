/-
The order in which the entries of maps are written.

A map has no order of its own. When a message is written, the entries of each of its maps come in
some order, which is neither that in which they were read nor the same the next time. So a message
with two entries in a map has more than one form on the wire, and all others have one only.

* `MapOrder` — an order for every map in a message.
* `Message.ordered` — the message with the entries of its maps in this order.
* `Lone`, `ordered_of_lone` — where no map has two entries, all orders are the same.
-/

import Notary.Schema.Message

namespace Notary.Schema

/-- An order for the entries of each map in a message. The place of a map is the way to it from the
message, of field numbers and of positions among the values of a field, the last one first. -/
structure MapOrder where
  entries : List Nat → List Value → List Value
  perm : ∀ place vs, (entries place vs).Perm vs

namespace MapOrder

/-- Entries are written as they were read. -/
def asRead : MapOrder := ⟨fun _ vs => vs, fun _ vs => .refl vs⟩

/-- Entries that were read last are written first. -/
def backwards : MapOrder := ⟨fun _ vs => vs.reverse, fun _ vs => vs.reverse_perm⟩

theorem entries_of_length_le (o : MapOrder) (place : List Nat) {vs : List Value}
    (few : vs.length ≤ 1) : o.entries place vs = vs := by
  have perm := o.perm place vs
  match vs, few with
  | [], _ => exact perm.eq_nil
  | [v], _ => exact List.perm_singleton.mp perm

end MapOrder

mutual

/-- A value at a place with the entries of all maps in it in order. -/
def Value.ordered (o : MapOrder) (place : List Nat) : Value → Value
  | .datum d => .datum d
  | .message m => .message (m.ordered o place)

/-- The values of a field from a position on. -/
def orderedValues (o : MapOrder) (place : List Nat) : Nat → List Value → List Value
  | _, [] => []
  | i, v :: rest => v.ordered o (i :: place) :: orderedValues o place (i + 1) rest

def Slot.ordered (o : MapOrder) (place : List Nat) : Slot → Slot
  | .mk f vs =>
    let vs := orderedValues o (f.number :: place) 0 vs
    .mk f (if f.holdsEntries then o.entries (f.number :: place) vs else vs)

def orderedSlots (o : MapOrder) (place : List Nat) : List Slot → List Slot
  | [] => []
  | s :: rest => s.ordered o place :: orderedSlots o place rest

/-- A message at a place, with the entries of all maps in it in order. -/
def Message.ordered (o : MapOrder) (place : List Nat) : Message → Message
  | .mk type slots unknown => .mk type (orderedSlots o place slots) unknown

end

@[simp] theorem Message.type_ordered (o : MapOrder) (place : List Nat) (m : Message) :
    (m.ordered o place).type = m.type := by
  obtain ⟨type, slots, unknown⟩ := m
  rfl

/-- No map in a message has two entries. -/
inductive Lone : Message → Prop where
  | of {m : Message}
      (alone : ∀ s ∈ m.slots, s.field.holdsEntries = true → s.values.length ≤ 1)
      (inside : ∀ s ∈ m.slots, ∀ inner, Value.message inner ∈ s.values → Lone inner) : Lone m

theorem orderedValues_eq (o : MapOrder) {vs : List Value}
    (fixed : ∀ m, Value.message m ∈ vs → ∀ place, m.ordered o place = m) (place : List Nat)
    (i : Nat) : orderedValues o place i vs = vs := by
  induction vs generalizing i with
  | nil => rfl
  | cons v rest ih =>
    have here : v.ordered o (i :: place) = v := by
      cases v with
      | datum d => rfl
      | message m => exact congrArg Value.message (fixed m List.mem_cons_self _)
    rw [orderedValues, here, ih fun m member => fixed m (List.mem_cons_of_mem v member)]

theorem orderedSlots_eq (o : MapOrder) {ss : List Slot} {place : List Nat}
    (fixed : ∀ s ∈ ss, s.ordered o place = s) : orderedSlots o place ss = ss := by
  induction ss with
  | nil => rfl
  | cons s rest ih =>
    rw [orderedSlots, fixed s List.mem_cons_self,
      ih fun t member => fixed t (List.mem_cons_of_mem s member)]

/-- Where no map has two entries, there is nothing to be put in order. -/
theorem Message.ordered_of_lone {m : Message} (lone : Lone m) (o : MapOrder) (place : List Nat) :
    m.ordered o place = m := by
  induction lone generalizing place with
  | @of m alone _ inside =>
    obtain ⟨type, slots, unknown⟩ := m
    have slot : ∀ s ∈ slots, s.ordered o place = s := by
      rintro ⟨f, vs⟩ member
      have values : orderedValues o (f.number :: place) 0 vs = vs :=
        orderedValues_eq o (inside ⟨f, vs⟩ member) (f.number :: place) 0
      rw [Slot.ordered, values]
      by_cases entries : f.holdsEntries = true
      · have few : vs.length ≤ 1 := alone ⟨f, vs⟩ member entries
        rw [if_pos entries, o.entries_of_length_le _ few]
      · rw [if_neg entries]
    rw [Message.ordered, orderedSlots_eq o slot]

/-- Two entries in the one order and in the other. -/
example :
    let field : Field := ⟨2, "e", .message "T.E", .map, false, false, none, none, [], false⟩
    let entry (key : Nat) : Value := .message (.mk "T.E" [] [.varint 1 key])
    let m : Message := .mk "T" [.mk field [entry 1, entry 2]] []
    (m.ordered .asRead []).bytes ≠ (m.ordered .backwards []).bytes := by
  decide +kernel

end Notary.Schema
