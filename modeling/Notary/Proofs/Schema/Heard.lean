/-
What is left of a message when it is written and read again.

All of a message is written but lists without values: of these nothing is written, unless they stand
in one stretch, so a list that tells no values from no list is gone afterwards. In an entry it comes
back as a default. Nothing of the bytes changes by that.

* `Message.nesting` — how deep messages stand in one another.
* `Message.heard` — a message without the lists that leave no trace, in all messages in it.
* `slot?_heard`, `entryKey_heard` — what such a message has.
* `bytes_heard` — it has the same bytes.
-/

import Notary.Proofs.Schema.Parts
import Notary.Proofs.Schema.Tidy

namespace Notary.Schema

/-! ### Nesting -/

mutual

/-- The levels of depth that a value needs. An entry of a map needs none for itself. -/
def Value.nesting (isEntry : Bool) : Value → Nat
  | .datum _ => 0
  | .message m => if isEntry then m.nesting else m.nesting + 1

def nestingOfValues (isEntry : Bool) : List Value → Nat
  | [] => 0
  | v :: rest => max (v.nesting isEntry) (nestingOfValues isEntry rest)

def Slot.nesting : Slot → Nat
  | .mk f vs => nestingOfValues f.holdsEntries vs

def nestingOfSlots : List Slot → Nat
  | [] => 0
  | s :: rest => max s.nesting (nestingOfSlots rest)

/-- How deep messages stand in one another in the message. -/
def Message.nesting : Message → Nat
  | .mk _ slots _ => nestingOfSlots slots

end

theorem nesting_le_of_mem_values {isEntry : Bool} {vs : List Value} {v : Value} (member : v ∈ vs) :
    v.nesting isEntry ≤ nestingOfValues isEntry vs := by
  induction vs with
  | nil => cases member
  | cons w rest ih =>
    rw [nestingOfValues]
    rcases List.mem_cons.mp member with rfl | later
    · exact Nat.le_max_left _ _
    · exact Nat.le_trans (ih later) (Nat.le_max_right _ _)

theorem nesting_le_of_mem_slots {ss : List Slot} {s : Slot} (member : s ∈ ss) :
    s.nesting ≤ nestingOfSlots ss := by
  induction ss with
  | nil => cases member
  | cons t rest ih =>
    rw [nestingOfSlots]
    rcases List.mem_cons.mp member with rfl | later
    · exact Nat.le_max_left _ _
    · exact Nat.le_trans (ih later) (Nat.le_max_right _ _)

/-- A message stands as deep in another one as its field puts it. -/
theorem Message.nesting_le {m : Message} {s : Slot} (member : s ∈ m.slots) {v : Value}
    (inside : v ∈ s.values) : v.nesting s.field.holdsEntries ≤ m.nesting := by
  obtain ⟨type, slots, unknown⟩ := m
  obtain ⟨f, vs⟩ := s
  exact Nat.le_trans (nesting_le_of_mem_values inside) (nesting_le_of_mem_slots member)

/-! ### What leaves a trace -/

/-- Nothing is written of the slot: it has no values, and they would not stand in one stretch. -/
def Slot.isMute (s : Slot) : Bool := s.values.isEmpty && !s.field.packed

mutual

/-- What is left of a value. -/
def Value.heard (isEntry : Bool) : Value → Value
  | .datum d => .datum d
  | .message m => .message (m.heard isEntry)

def heardValues (isEntry : Bool) : List Value → List Value
  | [] => []
  | v :: rest => v.heard isEntry :: heardValues isEntry rest

def Slot.heard : Slot → Slot
  | .mk f vs => .mk f (heardValues f.holdsEntries vs)

def heardSlots : List Slot → List Slot
  | [] => []
  | s :: rest => s.heard :: heardSlots rest

/-- What is left of a message. -/
def Message.heard (isEntry : Bool) : Message → Message
  | .mk type slots unknown =>
    .mk type ((heardSlots slots).filter fun s => isEntry || !s.isMute) unknown

end

theorem heardValues_eq (isEntry : Bool) (vs : List Value) :
    heardValues isEntry vs = vs.map (Value.heard isEntry) := by
  induction vs with
  | nil => rfl
  | cons v rest ih => rw [heardValues, ih, List.map_cons]

theorem heardSlots_eq (ss : List Slot) : heardSlots ss = ss.map Slot.heard := by
  induction ss with
  | nil => rfl
  | cons s rest ih => rw [heardSlots, ih, List.map_cons]

namespace Slot

@[simp] theorem field_heard (s : Slot) : s.heard.field = s.field := by
  cases s
  rfl

theorem values_heard (s : Slot) :
    s.heard.values = s.values.map (Value.heard s.field.holdsEntries) := by
  obtain ⟨f, vs⟩ := s
  exact heardValues_eq _ vs

@[simp] theorem isMute_heard (s : Slot) : s.heard.isMute = s.isMute := by
  rw [isMute, isMute, values_heard, field_heard, List.isEmpty_map]

theorem Rises.map_heard {ss : List Slot} (rises : Rises ss) : Rises (ss.map Slot.heard) := by
  refine List.pairwise_map.mpr (List.Pairwise.imp ?_ rises)
  intro s t less
  rwa [field_heard, field_heard]

theorem at?_map_heard (ss : List Slot) (n : Nat) :
    at? (ss.map Slot.heard) n = (at? ss n).map Slot.heard := by
  induction ss with
  | nil => rfl
  | cons s rest ih =>
    rw [List.map_cons, at?_cons, at?_cons, field_heard, ih]
    split <;> rfl

end Slot

namespace Message

@[simp] theorem type_heard (m : Message) (isEntry : Bool) : (m.heard isEntry).type = m.type := by
  cases m
  rfl

@[simp] theorem unknown_heard (m : Message) (isEntry : Bool) :
    (m.heard isEntry).unknown = m.unknown := by
  cases m
  rfl

theorem slots_heard (m : Message) (isEntry : Bool) :
    (m.heard isEntry).slots = (m.slots.map Slot.heard).filter fun s => isEntry || !s.isMute := by
  obtain ⟨type, slots, unknown⟩ := m
  rw [← heardSlots_eq]
  rfl

theorem Ordered.heard {m : Message} (ordered : m.Ordered) (isEntry : Bool) :
    (m.heard isEntry).Ordered := by
  unfold Ordered
  rw [slots_heard]
  exact (Slot.Rises.map_heard ordered).filter _

/-- A number has what is left of its slot. -/
theorem Ordered.slot?_heard {m : Message} (ordered : m.Ordered) (isEntry : Bool) (n : Nat) :
    (m.heard isEntry).slot? n =
      ((m.slot? n).map Slot.heard).filter fun s => isEntry || !s.isMute := by
  rw [slot?, slots_heard, (Slot.Rises.map_heard ordered).at?_filter, Slot.at?_map_heard]
  rfl

/-- An entry keeps its key. -/
theorem entryKey_heard {m : Message} (ordered : m.Ordered) :
    (m.heard true).entryKey = m.entryKey := by
  have kept (vs : List Value) (isEntry : Bool) :
      (vs.map (Value.heard isEntry)).filterMap (fun
        | .datum d => some d
        | .message _ => none) = vs.filterMap fun
        | .datum d => some d
        | .message _ => none := by
    rw [List.filterMap_map]
    refine congrArg (vs.filterMap ·) (funext fun v => ?_)
    cases v <;> rfl
  rw [entryKey, entryKey, values_eq, values_eq, ordered.slot?_heard]
  cases m.slot? 1 with
  | none => rfl
  | some s => exact (congrArg _ s.values_heard).trans (kept s.values _)

end Message

theorem Value.key_heard {m : Message} (ordered : m.Ordered) :
    (Value.message m |>.heard true).key = (Value.message m).key :=
  Message.entryKey_heard ordered

/-! ### Bytes -/

theorem Field.frame_nil {f : Field} (bare : f.packed = false) : f.frame [] = [] := by
  unfold frame
  cases f.kind <;> simp [bare]

theorem Slot.bytes_of_isMute {s : Slot} (mute : s.isMute = true) : s.bytes = [] := by
  obtain ⟨f, vs⟩ := s
  simp only [isMute, Slot.values, Slot.field, Bool.and_eq_true, List.isEmpty_iff,
    Bool.not_eq_true'] at mute
  obtain ⟨rfl, bare⟩ := mute
  exact Field.frame_nil bare

mutual

theorem Value.body_heard (k : Kind) (isEntry : Bool) :
    ∀ v : Value, (v.heard isEntry).body k = v.body k
  | .datum d => rfl
  | .message m => by rw [Value.heard, Value.body, Value.body, Message.bytes_heard isEntry m]

theorem bodies_heardValues (k : Kind) (isEntry : Bool) :
    ∀ vs : List Value, bodies k (heardValues isEntry vs) = bodies k vs
  | [] => rfl
  | v :: rest => by
    rw [heardValues, bodies, bodies, Value.body_heard k isEntry v,
      bodies_heardValues k isEntry rest]

theorem Slot.bytes_heard : ∀ s : Slot, s.heard.bytes = s.bytes
  | .mk f vs => by
    rw [Slot.heard, Slot.bytes, Slot.bytes, bodies_heardValues f.kind f.holdsEntries vs]

theorem slotsBytes_heardSlots : ∀ ss : List Slot, slotsBytes (heardSlots ss) = slotsBytes ss
  | [] => rfl
  | s :: rest => by
    rw [heardSlots, slotsBytes, slotsBytes, Slot.field_heard, Slot.bytes_heard s,
      slotsBytes_heardSlots rest]

/-- What is left of a message has the same bytes. -/
theorem Message.bytes_heard (isEntry : Bool) : ∀ m : Message, (m.heard isEntry).bytes = m.bytes
  | .mk type slots unknown => by
    rw [Message.heard, Message.bytes, Message.bytes, ← slotsBytes_heardSlots slots]
    refine arrange_eq_of_filter _ ?_
    rw [slotsBytes_eq, slotsBytes_eq, List.filter_map, List.filter_map, List.filter_filter]
    refine congrArg (List.map _) (List.filter_congr ?_)
    intro s _
    cases mute : s.isMute with
    | false => simp
    | true => simp [s.bytes_of_isMute mute]

end

end Notary.Schema
