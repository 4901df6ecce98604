/-
Values that are read back.

A value is written with the key of its field in front, alone or in a stretch with the other values
of its field. Reading that gives the value to the field of the message that is being read, after the
values that it has. Messages among the values are read back when that is known of each of them.

* `readInside`, `readGroup_of_covers` — fields over a stretch in which no group ends.
* `Gives` — a field takes bytes as its value.
* `Rereads` — a message is read back, up to lists that leave no trace.
* `gives_datum`, `gives_stretch` — one number of a field, and a stretch of them.
* `gives_message`, `gives_entry` — a message that is read back, and an entry of a map.
-/

import Notary.Proofs.Schema.Heard
import Notary.Proofs.Schema.Received

namespace Notary.Schema

open Wire

variable {a b : Message} {bs body rest : Bytes} {n k d : Nat} {w : WireType} {f : Field}

/-! ### Fields over a stretch -/

section Stretch

variable {read : Nat → WireType → Message → Bytes → Except Cause (Message × Bytes)}

/-- Reads one field, key and value, where no group ends. -/
def readInside (read : Nat → WireType → Message → Bytes → Except Cause (Message × Bytes))
    (m : Message) (bs : Bytes) : Except Cause (Message × Bytes) :=
  match Key.read bs with
  | .error c => .error c
  | .ok (_, .endGroup, _) => .error .unexpectedEndGroup
  | .ok (n, w, rest) => read n w m rest

theorem takes_inside (range : 0 < n ∧ n < 2 ^ 29) (inner : w ≠ .endGroup)
    (reads : ∀ rest, read n w a (body ++ rest) = .ok (b, rest)) :
    Takes (readInside read) a (Key.write n w ++ body) b := by
  constructor
  · simp [Key.write, Varint.write_ne_nil]
  · intro rest
    unfold readInside
    rw [List.append_assoc, Key.read_write range.1 range.2]
    cases w with
    | endGroup => exact absurd rfl inner
    | varint | fixed64 | delimited | startGroup | fixed32 => exact reads rest

/-- What it reads is behind a key that ends no group. -/
theorem key_of_inside (inside : readInside read a bs = .ok (b, rest)) :
    ∃ n w behind, Key.read bs = .ok (n, w, behind) ∧ w ≠ .endGroup ∧
      read n w a behind = .ok (b, rest) := by
  unfold readInside at inside
  split at inside
  · cases inside
  · cases inside
  · rename_i n w behind other key
    exact ⟨n, w, behind, key, other, inside⟩

/-- Such a field is one of a message behind its length. -/
theorem readKeyed_of_inside (inside : readInside read a bs = .ok (b, rest)) :
    readKeyed read a bs = .ok (b, rest) := by
  obtain ⟨n, w, behind, key, -, inside⟩ := key_of_inside inside
  rw [readKeyed, key]
  exact inside

/-- Such a field is one of a group. -/
theorem readGroup_of_inside (inside : readInside read a bs = .ok (b, rest)) (number k : Nat) :
    readGroup read number (k + 1) a bs = readGroup read number k b rest := by
  obtain ⟨n, w, behind, key, other, inside⟩ := key_of_inside inside
  rw [readGroup, key]
  cases w with
  | endGroup => exact absurd rfl other
  | varint | fixed64 | delimited | startGroup | fixed32 => simp only [inside]

theorem covers_keyed (covers : Covers (readInside read) a bs b) :
    Covers (readKeyed read) a bs b := by
  induction covers with
  | nil a => exact .nil a
  | cons first _ ih =>
    exact .cons ⟨first.something, fun rest => readKeyed_of_inside (first.taken rest)⟩ ih

/-- A group ends where its key comes again. -/
theorem readGroup_of_covers (covers : Covers (readInside read) a bs b) {number : Nat}
    (range : 0 < number ∧ number < 2 ^ 29) (room : bs.length < k) (rest : Bytes) :
    readGroup read number k a (bs ++ (Key.write number .endGroup ++ rest)) = .ok (b, rest) := by
  induction covers generalizing k with
  | nil a =>
    obtain ⟨k, rfl⟩ : ∃ j, k = j + 1 := ⟨k - 1, by simp at room; omega⟩
    rw [List.nil_append, readGroup, Key.read_write range.1 range.2]
    simp only [if_true]
  | @cons a b c bs more first _ ih =>
    have some : 0 < bs.length := List.length_pos_iff.mpr first.something
    rw [List.length_append] at room
    obtain ⟨k, rfl⟩ : ∃ j, k = j + 1 := ⟨k - 1, by omega⟩
    rw [List.append_assoc, readGroup_of_inside (first.taken _)]
    exact ih (by omega)

end Stretch

/-! ### Layouts -/

namespace Field

/-- How the value behind the key of the field is laid out. -/
def layout (f : Field) : WireType :=
  match f.kind with
  | .scalar k => k.wire
  | .message _ => .delimited
  | .group _ => .startGroup

/-- A value behind the key of the field. -/
def wrap (f : Field) (body : Bytes) : Bytes :=
  match f.kind with
  | .scalar _ => body
  | .message _ => Varint.write body.length ++ body
  | .group _ => body ++ Key.write f.number .endGroup

theorem layout_ne_endGroup (f : Field) : f.layout ≠ .endGroup := by
  unfold layout
  split
  · rename_i k _
    cases k <;> decide
  · decide
  · decide

/-- Values that do not stand in one stretch are written one by one. -/
theorem frame_eq (bare : f.packed = false) (bodies : List Bytes) :
    f.frame bodies = bodies.flatMap fun body => Key.write f.number f.layout ++ f.wrap body := by
  cases kind : f.kind <;> simp [frame, layout, wrap, kind, bare]

/-- The values with one more. A single field has the last one only. -/
def joined (f : Field) (v : Value) (vs : List Value) : List Value :=
  if f.arity = .single then [v] else vs ++ [v]

end Field

theorem bodies_eq (k : Kind) (vs : List Value) : bodies k vs = vs.map (Value.body k) := by
  induction vs with
  | nil => rfl
  | cons v rest ih => rw [bodies, ih, List.map_cons]

/-- The values of a slot are written one by one, unless they stand in one stretch. -/
theorem Slot.bytes_eq (s : Slot) (bare : s.field.packed = false) :
    s.bytes = s.values.flatMap fun v =>
      Key.write s.field.number s.field.layout ++ s.field.wrap (v.body s.field.kind) := by
  obtain ⟨f, vs⟩ := s
  rw [Slot.bytes, Field.frame_eq (f := f) bare, bodies_eq, List.flatMap_map]
  rfl

/-- A new key comes last. -/
theorem insertEntry_of_fresh {e : Message} {vs : List Value}
    (fresh : ∀ v ∈ vs, v.key ≠ e.entryKey) : insertEntry e vs = vs ++ [.message e] := by
  unfold insertEntry
  dsimp only
  rw [if_neg]
  intro found
  obtain ⟨v, member, same⟩ := List.any_eq_true.mp found
  cases v with
  | datum d => cases same
  | message m => exact fresh _ member (beq_iff_eq.mp same)

/-- What reading a message or an entry of the type starts with. -/
def MessageType.start (t : MessageType) (isEntry : Bool) : Message :=
  if isEntry then t.blankEntry else .blank t.name

namespace Pool

variable {p : Pool} {t : MessageType} {isEntry : Bool}

/-- The reader for messages one level deeper, if there is one. -/
def deeper (p : Pool) : Nat → Option Reader
  | 0 => none
  | d + 1 => some (p.reader d)

theorem reader_eq (p : Pool) (d : Nat) : p.reader d = p.readKnown d (p.deeper d) := by
  cases d <;> rfl

/-- The reader of the fields of a message, or of those of an entry. -/
def fieldReader (p : Pool) (d : Nat) (t : MessageType) (isEntry : Bool) (k : Nat) (n : Nat)
    (w : WireType) (m : Message) (bs : Bytes) : Except Cause (Message × Bytes) :=
  match isEntry with
  | true =>
    match t.entryField? n with
    | some g => p.readField d (p.deeper d) k g w m bs
    | none => (skip d n w bs).map fun rest => (m, rest)
  | false => p.reader d t n w m bs

/-! ### One value -/

/-- The field takes the bytes as its value, whatever stands behind them, and makes `b` of `a`. -/
def Gives (p : Pool) (d : Nat) (f : Field) (w : WireType) (a : Message) (body : Bytes)
    (b : Message) : Prop :=
  ∀ k, body.length < k → ∀ rest, p.readField d (p.deeper d) k f w a (body ++ rest) = .ok (b, rest)

/-- A value is taken together with its key. -/
theorem Gives.takes (gives : p.Gives d f w a body b) (known : p.Known t isEntry f)
    (inner : w ≠ .endGroup) (room : body.length < k) :
    Takes (readInside (p.fieldReader d t isEntry k)) a (Key.write f.number w ++ body) b := by
  refine takes_inside known.range inner ?_
  intro rest
  have found := known.found
  cases isEntry with
  | true =>
    rw [show p.fieldIn? t true f.number = t.entryField? f.number from rfl] at found
    simp only [fieldReader, found]
    exact gives k room rest
  | false =>
    rw [show p.fieldIn? t false f.number = p.field? t f.number from rfl] at found
    simp only [fieldReader, reader_eq, readKnown, found]
    exact gives _ (by rw [List.length_append]; omega) rest

/-- The message is read back, up to lists that leave no trace. -/
def Rereads (p : Pool) (d : Nat) (t : MessageType) (isEntry : Bool) (m : Message) : Prop :=
  ∀ k, m.bytes.length < k →
    Covers (readInside (p.fieldReader d t isEntry k)) (t.start isEntry) m.bytes (m.heard isEntry)

/-- The message is read back as a value of the field. -/
def RereadsIn (p : Pool) (d : Nat) (f : Field) (c : Message) : Prop :=
  ∀ name, f.kind.type? = some name → ∀ t', p.type? name = some t' →
    if f.holdsEntries then p.Rereads d t' true c else ∃ e, d = e + 1 ∧ p.Rereads e t' false c

theorem gives_datum {s : ScalarKind} (kind : f.kind = .scalar s) {v : Datum}
    (restores : s.Restores v) (short : (s.write v).length < sizeLimit) :
    p.Gives d f s.wire a (s.write v) (a.put f (f.joined (.datum v) (a.values f.number))) := by
  intro k room rest
  obtain ⟨k, rfl⟩ : ∃ j, k = j + 1 := ⟨k - 1, by omega⟩
  have value := restores.read_write short rest
  have alone : ¬ (s.wire = .delimited ∧ s.isPackable = true) := by simp [ScalarKind.isPackable]
  cases arity : f.arity with
  | single =>
    simp only [readField, arity, kind, readScalar, expect, if_true, value, Field.joined]
  | list | map =>
    simp only [readField, arity, kind, readScalars, if_neg alone, expect, if_true, value,
      Field.joined, reduceCtorEq, if_false]

/-- Values that stand in one stretch are read one after the other. -/
theorem covers_data {s : ScalarKind} {vs : List Value}
    (data : ∀ v ∈ vs, ∃ d, v = .datum d ∧ s.Restores d) (before : List Value)
    (short : (bodies (.scalar s) vs).flatten.length < sizeLimit) :
    Covers (readNext s) before (bodies (.scalar s) vs).flatten (before ++ vs) := by
  induction vs generalizing before with
  | nil =>
    rw [List.append_nil]
    exact .nil before
  | cons v vs ih =>
    obtain ⟨d, rfl, restores⟩ := data v List.mem_cons_self
    simp only [bodies, Value.body, List.flatten_cons, List.length_append] at short ⊢
    have later := ih (fun v member => data v (List.mem_cons_of_mem _ member)) (before ++ [.datum d])
      (by omega)
    rw [List.append_assoc, List.singleton_append] at later
    refine .cons ⟨restores.something, ?_⟩ later
    intro rest
    simp only [readNext, restores.read_write (by omega) rest]

theorem readScalars_of_within {s : ScalarKind} (packable : s.isPackable = true) {vs : List Value}
    (stretch : within id (readNext s) (a.values f.number) bs = .ok (vs, rest)) :
    readScalars f s .delimited a bs = .ok (a.put f vs, rest) := by
  unfold readScalars
  dsimp only
  rw [if_pos ⟨rfl, packable⟩]
  split
  · rename_i failed
    cases stretch.symm.trans failed
  · rename_i read
    cases stretch.symm.trans read
    rfl

/-- A stretch of values is read at the end of those that are there. -/
theorem gives_stretch {s : ScalarKind} (kind : f.kind = .scalar s) (many : f.arity ≠ .single)
    (packable : s.isPackable = true) {vs : List Value}
    (data : ∀ v ∈ vs, ∃ d, v = .datum d ∧ s.Restores d)
    (short : (bodies f.kind vs).flatten.length < sizeLimit) :
    p.Gives d f .delimited a
      (Varint.write (bodies f.kind vs).flatten.length ++ (bodies f.kind vs).flatten)
      (a.put f (a.values f.number ++ vs)) := by
  rw [kind] at short ⊢
  intro k room rest
  obtain ⟨k, rfl⟩ : ∃ j, k = j + 1 := ⟨k - 1, by omega⟩
  have small : (bodies (.scalar s) vs).flatten.length < 2 ^ 64 := by
    rw [sizeLimit] at short
    omega
  have values := within_of_covers id (covers_data data (a.values f.number) short) small rest
  cases arity : f.arity with
  | single => exact absurd arity many
  | list | map =>
    simp only [readField, arity, kind]
    exact readScalars_of_within packable values

/-! ### Messages among values -/

variable {t' : MessageType} {name : String} {c : Message}

theorem readChild_of_rereads (rereads : p.Rereads d t' false c)
    (range : 0 < f.number ∧ f.number < 2 ^ 29) (short : c.bytes.length < 2 ^ 64) (rest : Bytes) :
    readChild (p.reader d) f t' false (.blank t'.name)
        (Varint.write c.bytes.length ++ c.bytes ++ rest) = .ok (c.heard false, rest) ∧
      readChild (p.reader d) f t' true (.blank t'.name)
        (c.bytes ++ Key.write f.number .endGroup ++ rest) = .ok (c.heard false, rest) := by
  have covers : Covers (readInside (p.reader d t')) (.blank t'.name) c.bytes (c.heard false) :=
    rereads _ (Nat.lt_succ_self _)
  constructor
  · exact within_of_covers id (covers_keyed covers) short rest
  · rw [List.append_assoc]
    exact readGroup_of_covers covers range (by rw [List.length_append]; omega) rest

theorem readMessage_of_child {read : Reader} {isGroup : Bool} (found : p.type? name = some t')
    (blank : f.arity = .single → a.child f name = .blank name)
    (child : readChild read f t' isGroup (.blank name) bs = .ok (c, rest)) :
    p.readMessage (some read) f name isGroup (if isGroup then .startGroup else .delimited) a bs =
      .ok (a.put f (f.joined (.message c) (a.values f.number)), rest) := by
  have start : (if f.arity = .single then a.child f name else .blank name) = .blank name := by
    split
    · exact blank ‹_›
    · rfl
  have joined : (if f.arity = .single then [] else a.values f.number) ++ [.message c] =
      f.joined (.message c) (a.values f.number) := by
    unfold Field.joined
    split <;> rfl
  unfold readMessage
  simp only [expect, if_true, found, start, child, joined]

/-- A message behind its length or between two keys. -/
theorem gives_message (typed : f.kind.type? = some name) (plain : f.holdsEntries = false)
    (found : p.type? name = some t') (range : 0 < f.number ∧ f.number < 2 ^ 29)
    (rereads : p.Rereads d t' false c) (short : (f.wrap c.bytes).length < sizeLimit)
    (blank : f.arity = .single → a.child f name = .blank name) :
    p.Gives (d + 1) f f.layout a (f.wrap c.bytes)
      (a.put f (f.joined (.message (c.heard false)) (a.values f.number))) := by
  intro k room rest
  obtain ⟨k, rfl⟩ : ∃ j, k = j + 1 := ⟨k - 1, by omega⟩
  have small : c.bytes.length < 2 ^ 64 := by
    have inside : c.bytes.length ≤ (f.wrap c.bytes).length := by
      unfold Field.wrap
      split <;> simp
    rw [sizeLimit] at short
    omega
  obtain ⟨delimited, grouped⟩ := readChild_of_rereads rereads range small rest
  rw [name_of_type? found] at delimited grouped
  cases kind : f.kind with
  | scalar s =>
    rw [kind] at typed
    cases typed
  | message other =>
    rw [kind] at typed
    cases typed
    cases arity : f.arity with
    | map => simp [Field.holdsEntries, arity, kind] at plain
    | single | list =>
      simp only [readField, arity, kind, Field.layout, Field.wrap, deeper]
      exact readMessage_of_child found blank delimited
  | group other =>
    rw [kind] at typed
    cases typed
    simp only [readField, kind, Field.layout, Field.wrap, deeper]
    exact readMessage_of_child found blank grouped

theorem readEntry_of_within
    {read : Nat → WireType → Message → Bytes → Except Cause (Message × Bytes)}
    (entry : within id (readKeyed read) t'.blankEntry bs = .ok (c, rest)) :
    readEntry read f t' a bs = .ok (a.put f (insertEntry c (a.values f.number)), rest) := by
  unfold readEntry
  rw [entry]

/-- An entry with a new key. -/
theorem gives_entry (entries : f.holdsEntries = true) (typed : f.kind.type? = some name)
    (found : p.type? name = some t') (rereads : p.Rereads d t' true c)
    (short : (f.wrap c.bytes).length < sizeLimit)
    (fresh : ∀ v ∈ a.values f.number, v.key ≠ (c.heard true).entryKey) :
    p.Gives d f f.layout a (f.wrap c.bytes)
      (a.put f (f.joined (.message (c.heard true)) (a.values f.number))) := by
  intro k room rest
  obtain ⟨k, rfl⟩ : ∃ j, k = j + 1 := ⟨k - 1, by omega⟩
  unfold Field.holdsEntries at entries
  split at entries
  · rename_i other arity kind
    rw [kind] at typed
    cases typed
    have joined : f.joined (.message (c.heard true)) (a.values f.number) =
        insertEntry (c.heard true) (a.values f.number) := by
      rw [insertEntry_of_fresh fresh]
      simp [Field.joined, arity]
    simp only [Field.wrap, kind, List.length_append] at short room
    have small : c.bytes.length < 2 ^ 64 := by
      rw [sizeLimit] at short
      omega
    have something := List.length_pos_iff.mpr (Varint.write_ne_nil c.bytes.length)
    have covers : Covers (readInside (p.fieldReader d t' true k)) t'.blankEntry c.bytes
        (c.heard true) := rereads k (by omega)
    simp only [readField, arity, kind, found, Field.wrap, joined]
    exact readEntry_of_within (within_of_covers id (covers_keyed covers) small rest)
  · cases entries

end Pool

end Notary.Schema
