/-
Messages in order.

Reading puts a message in order, whatever the order and the form in which its fields came: each
field has its slot, in number order and with values of its kind; no two members of a choice stand
side by side; the entries of a map have different keys; and what is unknown stands in number order,
too. The same holds of every message inside.

* `Field.Fills` — values that a field may have.
* `Fits`, `Tidy` — a message in order, and one that is so with all messages in it.
* `Tidy.put`, `Tidy.keep` — what reading does to a message keeps it so.
* `tidy_blank`, `tidy_blankEntry` — where reading starts.
-/

import Notary.Proofs.Schema.Kept
import Notary.Proofs.Schema.Pools
import Notary.Proofs.Schema.Slots

namespace Notary.Schema

open Wire

variable {p : Pool} {d : Nat} {t : MessageType} {isEntry : Bool} {m : Message} {f : Field}
  {vs : List Value}

/-! ### Values of a field -/

/-- The key of an entry that is a value. -/
def Value.key : Value → List Datum
  | .message m => m.entryKey
  | .datum _ => []

namespace Field

/-- The values are of the kind of the field. Entries have different keys. -/
structure Holds (f : Field) (vs : List Value) : Prop where
  data : ∀ k, f.kind = .scalar k → ∀ v ∈ vs, ∃ d, v = .datum d ∧ k.Restores d
  messages : ∀ name, f.kind.type? = some name → ∀ v ∈ vs, ∃ m, v = .message m
  keys : f.holdsEntries = true → vs.Pairwise fun v w => v.key ≠ w.key

/-- A field that is not a list holds a value, and one only. -/
structure Fills (f : Field) (vs : List Value) : Prop extends f.Holds vs where
  one : f.arity = .single → ∃ v, vs = [v]

theorem holdsEntries_of_single (single : f.arity = .single) : f.holdsEntries = false := by
  simp [holdsEntries, single]

theorem holdsEntries_of_scalar {k : ScalarKind} (kind : f.kind = .scalar k) :
    f.holdsEntries = false := by
  cases arity : f.arity <;> simp [holdsEntries, arity, kind]

theorem holds_nil (f : Field) : f.Holds [] := by
  refine ⟨?_, ?_, fun _ => .nil⟩
  · intro k kind v member
    cases member
  · intro name typed v member
    cases member

theorem Holds.add_datum (holds : f.Holds vs) {k : ScalarKind} (kind : f.kind = .scalar k)
    {d : Datum} (restores : k.Restores d) : f.Holds (vs ++ [.datum d]) := by
  refine ⟨?_, ?_, ?_⟩
  · intro k' same v member
    rw [kind] at same
    cases same
    rcases List.mem_append.mp member with old | new
    · exact holds.data k kind v old
    · exact ⟨d, List.mem_singleton.mp new, restores⟩
  · intro name typed
    rw [kind] at typed
    cases typed
  · intro entries
    rw [holdsEntries_of_scalar kind] at entries
    cases entries

theorem Holds.add_message (holds : f.Holds vs) {name : String} (typed : f.kind.type? = some name)
    (plain : f.holdsEntries = false) (c : Message) : f.Holds (vs ++ [.message c]) := by
  refine ⟨?_, ?_, ?_⟩
  · intro k kind
    rw [kind] at typed
    cases typed
  · intro name' typed' v member
    rcases List.mem_append.mp member with old | new
    · exact holds.messages name' typed' v old
    · exact ⟨c, List.mem_singleton.mp new⟩
  · intro entries
    rw [plain] at entries
    cases entries

/-- What a field has by default is of its kind, declared or not. -/
theorem Sound.restores_default (sound : f.Sound p) {k : ScalarKind} (kind : f.kind = .scalar k) :
    k.Restores (f.defaultDatum k) := by
  unfold defaultDatum
  cases given : f.default? with
  | none => exact k.restores_zero
  | some d => exact sound.default d k given kind

theorem Sound.fills_default (sound : f.Sound p) : f.Fills f.defaultValues := by
  unfold defaultValues
  cases arity : f.arity with
  | list | map => exact ⟨f.holds_nil, by simp [arity]⟩
  | single =>
    cases kind : f.kind with
    | scalar k =>
      exact ⟨f.holds_nil.add_datum kind (sound.restores_default kind), fun _ => ⟨_, rfl⟩⟩
    | message name | group name =>
      have typed : f.kind.type? = some name := by rw [kind]; rfl
      have plain := holdsEntries_of_single arity
      exact ⟨f.holds_nil.add_message typed plain (.blank name), fun _ => ⟨_, rfl⟩⟩

end Field

/-- A slot of a message whose field was given values is new, or it was there and is no other member
of the field's choice. -/
theorem Message.Ordered.mem_put {m : Message} (ordered : m.Ordered) {s : Slot}
    (member : s ∈ (m.put f vs).slots) :
    s = .mk f vs ∧ f.isSilent vs = false ∨ s ∈ m.slots ∧ f.excludes s.field = false := by
  have here := Slot.Rises.at?_of_mem (ordered.put f vs) member
  rw [← Message.slot?, ordered.slot?_put] at here
  split at here
  · split at here
    · cases here
    · rename_i loud
      cases here
      exact .inl ⟨rfl, by simpa using loud⟩
  · obtain ⟨old, free⟩ := Option.filter_eq_some_iff.mp here
    exact .inr ⟨Slot.mem_of_at? old, by simpa using free⟩

namespace Pool

/-- The field of a number, in a message of its own or in an entry of a map. -/
def fieldIn? (p : Pool) (t : MessageType) (isEntry : Bool) (n : Nat) : Option Field :=
  if isEntry then t.entryField? n else p.field? t n

theorem Sound.of_fieldIn? (sound : p.Sound) (member : t ∈ p.types) {n : Nat}
    (found : p.fieldIn? t isEntry n = some f) : f.Sound p ∧ f.number = n := by
  cases isEntry with
  | true => exact ⟨sound.of_entryField? member found, (MessageType.of_entryField? found).1⟩
  | false => exact sound.of_field? member found

/-! ### Messages in order -/

/-- A message in order: its slots are those of fields of its type, and filled; what its type does
not know is kept behind them. An entry keeps nothing of the kind. -/
structure Fits (p : Pool) (d : Nat) (t : MessageType) (isEntry : Bool) (m : Message) : Prop where
  type : m.type = t.name
  ordered : m.Ordered
  found : ∀ s ∈ m.slots, p.fieldIn? t isEntry s.field.number = some s.field
  range : ∀ s ∈ m.slots, 0 < s.field.number ∧ s.field.number < 2 ^ 29
  loud : ∀ s ∈ m.slots, s.field.isSilent s.values = false
  fills : ∀ s ∈ m.slots, s.field.Fills s.values
  apart : ∀ s ∈ m.slots, ∀ r ∈ m.slots, s.field.excludes r.field = false
  unknown : ∀ u ∈ m.unknown, u.Restores d ∧ p.fieldIn? t isEntry u.number = none
  sorted : Unknown.Sorted m.unknown
  bare : isEntry = true → m.unknown = []

/-- The message was read with so much depth left, as one of the type or as an entry of it: it is in
order with all messages in it. An entry has all its defaults that say something. -/
inductive Tidy (p : Pool) : Nat → MessageType → Bool → Message → Prop where
  | mk {d : Nat} {t : MessageType} {isEntry : Bool} {m : Message} (fits : p.Fits d t isEntry m)
      (filled : isEntry = true → ∀ n, (t.blankEntry.slot? n).isSome → (m.slot? n).isSome)
      (children : ∀ s ∈ m.slots, ∀ c, .message c ∈ s.values →
        ∀ name, s.field.kind.type? = some name → ∀ t', p.type? name = some t' →
          Tidy p (if s.field.holdsEntries then d else d - 1) t' s.field.holdsEntries c) :
      Tidy p d t isEntry m

/-- Messages among values are tidy where the field puts them. -/
def TidyIn (p : Pool) (d : Nat) (f : Field) (vs : List Value) : Prop :=
  ∀ c, .message c ∈ vs → ∀ name, f.kind.type? = some name → ∀ t', p.type? name = some t' →
    p.Tidy (if f.holdsEntries then d else d - 1) t' f.holdsEntries c

theorem Tidy.fits (tidy : p.Tidy d t isEntry m) : p.Fits d t isEntry m := by
  cases tidy with
  | mk fits _ _ => exact fits

/-- The values that a field has are of its kind. -/
theorem Tidy.values (tidy : p.Tidy d t isEntry m) (found : p.fieldIn? t isEntry f.number = some f) :
    f.Holds (m.values f.number) ∧ p.TidyIn d f (m.values f.number) := by
  cases tidy with
  | mk fits filled children =>
    rw [Message.values_eq]
    cases slot : m.slot? f.number with
    | none => exact ⟨f.holds_nil, fun c member => nomatch member⟩
    | some s =>
      have member := Slot.mem_of_at? slot
      have same := fits.found s member
      rw [Slot.number_of_at? slot, found] at same
      obtain rfl := Option.some.inj same
      exact ⟨(fits.fills s member).toHolds, children s member⟩

/-! ### Giving values -/

theorem Fits.put (fits : p.Fits d t isEntry m) (found : p.fieldIn? t isEntry f.number = some f)
    (range : 0 < f.number ∧ f.number < 2 ^ 29) (fills : f.Fills vs) :
    p.Fits d t isEntry (m.put f vs) := by
  have slot {P : Slot → Prop} (new : f.isSilent vs = false → P (.mk f vs))
      (old : ∀ s ∈ m.slots, P s) : ∀ s ∈ (m.put f vs).slots, P s := by
    intro s member
    rcases fits.ordered.mem_put member with ⟨rfl, loud⟩ | ⟨before, -⟩
    · exact new loud
    · exact old s before
  refine ⟨(m.type_put f vs).trans fits.type, fits.ordered.put f vs,
    slot (fun _ => found) fits.found, slot (fun _ => range) fits.range, slot id fits.loud,
    slot (fun _ => fills) fits.fills, ?_, ?_, ?_, ?_⟩
  · intro s member r other
    rcases fits.ordered.mem_put member with ⟨rfl, -⟩ | ⟨left, free⟩
    · rcases fits.ordered.mem_put other with ⟨rfl, -⟩ | ⟨-, free'⟩
      · simp [Field.excludes, Slot.field]
      · exact free'
    · rcases fits.ordered.mem_put other with ⟨rfl, -⟩ | ⟨right, -⟩
      · rw [Field.excludes_comm]
        exact free
      · exact fits.apart s left r right
  · rw [Message.unknown_put]
    exact fits.unknown
  · rw [Message.unknown_put]
    exact fits.sorted
  · rw [Message.unknown_put]
    exact fits.bare

theorem Tidy.put (tidy : p.Tidy d t isEntry m) (found : p.fieldIn? t isEntry f.number = some f)
    (range : 0 < f.number ∧ f.number < 2 ^ 29) (fills : f.Fills vs) (inside : p.TidyIn d f vs) :
    p.Tidy d t isEntry (m.put f vs) := by
  cases tidy with
  | mk fits filled children =>
    refine .mk (fits.put found range fills) ?_ ?_
    · intro entry n blank
      subst entry
      rw [MessageType.slot?_blankEntry] at blank
      rw [fits.ordered.slot?_put]
      split
      · rename_i here
        subst here
        rw [show t.entryField? f.number = some f from found] at blank
        cases silent : f.isSilent vs with
        | false => rfl
        | true => simp [Field.isSilent_default silent fills.one] at blank
      · have there := filled rfl n (by rwa [MessageType.slot?_blankEntry])
        obtain ⟨s, slot⟩ := Option.isSome_iff_exists.mp there
        have free := (Field.excludes_of_no_choice (MessageType.of_entryField? found).2.1 s.field).1
        simp [slot, Option.filter, free]
    · intro s member
      rcases fits.ordered.mem_put member with ⟨rfl, -⟩ | ⟨before, -⟩
      · exact inside
      · exact children s before

theorem Tidy.keep (tidy : p.Tidy d t false m) {u : Unknown} (restores : u.Restores d)
    (foreign : p.fieldIn? t false u.number = none) : p.Tidy d t false (m.keep u) := by
  cases tidy with
  | mk fits _ children =>
    obtain ⟨type, slots, unknown⟩ := m
    refine .mk ⟨fits.type, fits.ordered, fits.found, fits.range, fits.loud, fits.fills, fits.apart,
      ?_, Unknown.Sorted.insert fits.sorted u, nofun⟩ nofun children
    intro v member
    rcases Unknown.mem_insert_iff.mp member with rfl | old
    · exact ⟨restores, foreign⟩
    · exact fits.unknown v old

/-! ### Blank messages -/

theorem tidy_blank (p : Pool) (d : Nat) (t : MessageType) : p.Tidy d t false (.blank t.name) := by
  refine .mk ⟨rfl, .nil, ?_, ?_, ?_, ?_, ?_, ?_, .nil, fun _ => rfl⟩ nofun ?_ <;>
    intro s member <;> cases member

/-- Messages among default values are blank. -/
theorem tidyIn_default (p : Pool) (d : Nat) (f : Field) : p.TidyIn d f f.defaultValues := by
  intro c member name typed t' found
  unfold Field.defaultValues at member
  cases arity : f.arity with
  | list | map => simp [arity] at member
  | single =>
    have blank : c = .blank name := by
      cases kind : f.kind with
      | scalar k =>
        rw [kind] at typed
        cases typed
      | message other | group other =>
        rw [kind] at typed
        cases typed
        simpa [arity, kind] using member
    rw [Field.holdsEntries_of_single arity, blank, ← name_of_type? found]
    exact tidy_blank p _ t'

/-- The slots of an entry of which nothing is read are those of its fields. -/
theorem mem_blankEntry {s : Slot} (member : s ∈ t.blankEntry.slots) :
    t.entryField? s.field.number = some s.field ∧ s.values = s.field.defaultValues ∧
      s.field.isSilent s.values = false := by
  have here := Slot.Rises.at?_of_mem t.ordered_blankEntry member
  rw [← Message.slot?, MessageType.slot?_blankEntry] at here
  obtain ⟨f, found, same⟩ := Option.bind_eq_some_iff.mp here
  split at same
  · cases same
  · rename_i loud
    cases same
    have number := (MessageType.of_entryField? found).1
    rw [← number] at found
    exact ⟨found, rfl, Bool.eq_false_iff.mpr loud⟩

theorem tidy_blankEntry (sound : p.Sound) (member : t ∈ p.types) (d : Nat) :
    p.Tidy d t true t.blankEntry := by
  refine .mk ⟨t.type_blankEntry, t.ordered_blankEntry, ?_, ?_, ?_, ?_, ?_, ?_, ?_, ?_⟩
    (fun _ _ => id) ?_
  · intro s inside
    exact (mem_blankEntry inside).1
  · intro s inside
    obtain ⟨-, -, number⟩ := MessageType.of_entryField? (mem_blankEntry inside).1
    omega
  · intro s inside
    exact (mem_blankEntry inside).2.2
  · intro s inside
    obtain ⟨found, default, -⟩ := mem_blankEntry inside
    rw [default]
    exact (sound.of_entryField? member found).fills_default
  · intro s inside r _
    obtain ⟨-, free, -⟩ := MessageType.of_entryField? (mem_blankEntry inside).1
    exact (Field.excludes_of_no_choice free r.field).1
  · rw [t.unknown_blankEntry]
    intro u inside
    cases inside
  · rw [t.unknown_blankEntry]
    exact .nil
  · exact fun _ => t.unknown_blankEntry
  · intro s inside c within
    rw [(mem_blankEntry inside).2.1] at within
    exact tidyIn_default p d s.field c within

end Pool

end Notary.Schema
