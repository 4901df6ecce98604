/-
Messages are read back from their bytes.

A message that was read is in order, so it is written part by part, each field at one place. Reading
goes over the parts in turn: each puts into the message that is being read what is left of its slot,
or keeps an unknown field. In the end the message is what is left of the one that was written. The
induction is on the messages in the message, which are read back in the same way.

* `covers_slot` — the values of a field are read back.
* `Reading`, `Fits.reading_next` — how far a message is read, and one part more.
* `Tidy.rereads` — a message in order is read back.
* `decode_bytes` — every message that was read is read back, if it is not nested too deeply.
-/

import Notary.Proofs.Schema.Values

namespace Notary.Schema

open Wire

theorem Field.not_isSilent_of_ne_nil {f : Field} (many : f.arity ≠ .single) {vs : List Value}
    (some : vs ≠ []) : f.isSilent vs = false := by
  cases vs with
  | nil => exact absurd rfl some
  | cons v vs => exact not_isSilent_of_cons many v vs

theorem Field.isSilent_heard (f : Field) (isEntry : Bool) (vs : List Value) :
    f.isSilent (vs.map (Value.heard isEntry)) = f.isSilent vs := by
  cases vs with
  | nil => rfl
  | cons v vs =>
    cases vs with
    | nil => cases v <;> rfl
    | cons w vs => cases v <;> rfl

theorem Slot.mk_heard (s : Slot) : Slot.mk s.field s.heard.values = s.heard := by
  cases s
  rfl

theorem length_le_flatMap {α β : Type} {as : List α} {a : α} (member : a ∈ as) (f : α → List β) :
    (f a).length ≤ (as.flatMap f).length := by
  obtain ⟨before, after, rfl⟩ := List.append_of_mem member
  simp only [List.flatMap_append, List.flatMap_cons, List.length_append]
  omega

namespace Pool

variable {p : Pool} {d k : Nat} {t : MessageType} {isEntry : Bool} {f : Field} {a b m : Message}
  {vs : List Value} {s : Slot} {done : List Part}

/-! ### One slot -/

/-- A slot whose values can be read back, in the fields of a type. -/
structure Readable (p : Pool) (d : Nat) (t : MessageType) (isEntry : Bool) (f : Field)
    (vs : List Value) : Prop where
  known : p.Known t isEntry f
  sound : f.Sound p
  fills : f.Fills vs
  messages : ∀ c, .message c ∈ vs → c.Ordered ∧ p.RereadsIn d f c

/-- Entries keep their keys. -/
theorem Readable.key_heard (readable : p.Readable d t isEntry f vs) {v : Value} (member : v ∈ vs) :
    (v.heard true).key = v.key := by
  cases v with
  | datum d => rfl
  | message c => exact Message.entryKey_heard (readable.messages c member).1

/-- One value of a field. -/
theorem Readable.takes_value (readable : p.Readable d t isEntry f vs) {v : Value} (member : v ∈ vs)
    (short : (f.wrap (v.body f.kind)).length < sizeLimit)
    (room : (f.wrap (v.body f.kind)).length < k)
    (blank : ∀ name, f.arity = .single → f.kind.type? = some name → a.child f name = .blank name)
    (fresh : f.holdsEntries = true → ∀ u ∈ a.values f.number, u.key ≠ v.key) :
    Takes (readInside (p.fieldReader d t isEntry k)) a
      (Key.write f.number f.layout ++ f.wrap (v.body f.kind))
      (a.put f (f.joined (v.heard f.holdsEntries) (a.values f.number))) := by
  obtain ⟨known, sound, fills, messages⟩ := readable
  refine Gives.takes ?_ known f.layout_ne_endGroup room
  cases typed : f.kind.type? with
  | none =>
    cases kind : f.kind with
    | message name | group name =>
      rw [kind] at typed
      cases typed
    | scalar s =>
      obtain ⟨x, rfl, restores⟩ := fills.data s kind v member
      have layout : f.layout = s.wire := by simp [Field.layout, kind]
      have wrap (body : Bytes) : f.wrap body = body := by simp [Field.wrap, kind]
      rw [wrap, kind] at short
      rw [layout, wrap]
      exact gives_datum kind restores short
  | some name =>
    obtain ⟨c, rfl⟩ := fills.messages name typed v member
    obtain ⟨ordered, rereads⟩ := messages c member
    obtain ⟨t', found⟩ := Option.isSome_iff_exists.mp (sound.typed name typed)
    have inside := rereads name typed t' found
    rw [Value.heard]
    cases entries : f.holdsEntries with
    | true =>
      simp only [entries, if_true] at inside
      refine gives_entry entries typed found inside short ?_
      rw [Message.entryKey_heard ordered]
      exact fresh entries
    | false =>
      simp only [entries, Bool.false_eq_true, if_false] at inside
      obtain ⟨e, rfl, inside⟩ := inside
      exact gives_message typed entries found known.range inside short fun single =>
        blank name single typed

/-- The values of a list come one after the other. The induction is on those that are left. -/
theorem Readable.covers_values (readable : p.Readable d t isEntry f vs) (many : f.arity ≠ .single)
    {before after : List Value} (split : vs = before ++ after) (something : after ≠ [])
    (ordered : a.Ordered)
    (there : a.values f.number = before.map (Value.heard f.holdsEntries))
    (short : ∀ v ∈ vs, (f.wrap (v.body f.kind)).length < sizeLimit)
    (room : ∀ v ∈ vs, (f.wrap (v.body f.kind)).length < k) :
    Covers (readInside (p.fieldReader d t isEntry k)) a
      (after.flatMap fun v => Key.write f.number f.layout ++ f.wrap (v.body f.kind))
      (a.put f (vs.map (Value.heard f.holdsEntries))) := by
  induction after generalizing a before with
  | nil => exact absurd rfl something
  | cons v after ih =>
    have member : v ∈ vs := by simp [split]
    have fresh : f.holdsEntries = true → ∀ u ∈ a.values f.number, u.key ≠ v.key := by
      intro entries u known
      rw [there, entries] at known
      obtain ⟨u', inBefore, rfl⟩ := List.mem_map.mp known
      have keys := readable.fills.keys entries
      rw [split] at keys
      rw [readable.key_heard (by simp [split, inBefore])]
      exact (List.pairwise_append.mp keys).2.2 u' inBefore v List.mem_cons_self
    have first := readable.takes_value member (short v member) (room v member)
      (fun name single => absurd single many) fresh
    have joined : f.joined (v.heard f.holdsEntries) (a.values f.number) =
        (before ++ [v]).map (Value.heard f.holdsEntries) := by
      rw [Field.joined, if_neg many, there, List.map_append]
      rfl
    rw [joined] at first
    rw [List.flatMap_cons]
    refine .cons first ?_
    cases after with
    | nil =>
      rw [← split]
      exact .nil _
    | cons w after =>
      have loud : f.isSilent ((before ++ [v]).map (Value.heard f.holdsEntries)) = false :=
        Field.not_isSilent_of_ne_nil many (by simp)
      have rest : vs = (before ++ [v]) ++ w :: after := by simp [split]
      have later := ih rest (by simp) (ordered.put f _) (ordered.values_put loud)
      rwa [ordered.put_put] at later

/-- Values that stand in one stretch. -/
theorem Readable.covers_packed (readable : p.Readable d t isEntry f vs) (packed : f.packed = true)
    (none : a.values f.number = []) (short : (f.frame (bodies f.kind vs)).length < sizeLimit)
    (room : (f.frame (bodies f.kind vs)).length < k) :
    Covers (readInside (p.fieldReader d t isEntry k)) a (f.frame (bodies f.kind vs))
      (a.put f (vs.map (Value.heard f.holdsEntries))) := by
  obtain ⟨list, s, kind, packable⟩ := readable.sound.packed packed
  have many : f.arity ≠ .single := by simp [list]
  have data := readable.fills.data s kind
  have heard : vs.map (Value.heard f.holdsEntries) = vs := by
    refine (List.map_congr_left ?_).trans (List.map_id vs)
    intro v member
    obtain ⟨x, rfl, -⟩ := data v member
    rfl
  have frame : f.frame (bodies f.kind vs) = Key.write f.number .delimited ++
      (Varint.write (bodies f.kind vs).flatten.length ++ (bodies f.kind vs).flatten) := by
    unfold Field.frame
    simp only [kind, packed, if_true]
  rw [frame, List.length_append, List.length_append] at short room
  rw [frame, heard]
  have stretch := gives_stretch (p := p) (d := d) (a := a) kind many packable data (by omega)
  rw [none, List.nil_append] at stretch
  refine .single (stretch.takes readable.known (by decide) ?_)
  rw [List.length_append]
  omega

/-- The values of a slot, if anything is written of them. -/
theorem Readable.covers_slot (readable : p.Readable d t isEntry s.field s.values)
    (ordered : a.Ordered) (none : s.field.arity ≠ .single → a.values s.field.number = [])
    (blank : ∀ name, s.field.arity = .single → s.field.kind.type? = some name →
      a.child s.field name = .blank name)
    (short : s.bytes.length < sizeLimit) (room : s.bytes.length < k) :
    Covers (readInside (p.fieldReader d t isEntry k)) a s.bytes
      (if s.isMute then a else a.put s.field s.heard.values) := by
  obtain ⟨f, vs⟩ := s
  rw [Slot.values_heard]
  dsimp only [Slot.field, Slot.values] at readable none blank ⊢
  rw [Slot.bytes] at short room ⊢
  cases packed : f.packed with
  | true =>
    have many : f.arity ≠ .single := by simp [(readable.sound.packed packed).1]
    have loud : (Slot.mk f vs).isMute = false := by simp [Slot.isMute, Slot.field, packed]
    rw [loud]
    exact readable.covers_packed packed (none many) short room
  | false =>
    have frame := (Slot.mk f vs).bytes_eq packed
    simp only [Slot.bytes, Slot.field, Slot.values] at frame
    rw [frame] at short room ⊢
    have each (v : Value) (member : v ∈ vs) :
        (f.wrap (v.body f.kind)).length ≤ (vs.flatMap fun v =>
          Key.write f.number f.layout ++ f.wrap (v.body f.kind)).length := by
      have inside := length_le_flatMap member fun v =>
        Key.write f.number f.layout ++ f.wrap (v.body f.kind)
      rw [List.length_append] at inside
      omega
    have small v (member : v ∈ vs) := Nat.lt_of_le_of_lt (each v member) short
    have fits v (member : v ∈ vs) := Nat.lt_of_le_of_lt (each v member) room
    cases vs with
    | nil =>
      have mute : (Slot.mk f []).isMute = true := by
        simp [Slot.isMute, Slot.field, Slot.values, packed]
      rw [mute]
      exact .nil a
    | cons v rest =>
      have loud : (Slot.mk f (v :: rest)).isMute = false := by simp [Slot.isMute, Slot.values]
      rw [loud]
      by_cases single : f.arity = .single
      · obtain ⟨w, same⟩ := readable.fills.one single
        cases same
        have taken := readable.takes_value List.mem_cons_self (small v List.mem_cons_self)
          (fits v List.mem_cons_self) blank fun entries => by
            rw [Field.holdsEntries_of_single single] at entries
            cases entries
        rw [Field.joined, if_pos single] at taken
        rw [List.flatMap_singleton]
        exact .single taken
      · have all : v :: rest = [] ++ v :: rest := rfl
        exact readable.covers_values single all (by simp) ordered (none single) small fits

/-! ### Where reading starts -/

/-- A field of an entry has its defaults at first, when they say something. -/
theorem Known.slot?_start (known : p.Known t isEntry f) :
    (t.start isEntry).slot? f.number =
      if isEntry = true ∧ f.isSilent f.defaultValues = false then some (.mk f f.defaultValues)
      else none := by
  cases isEntry with
  | false => rfl
  | true =>
    have found : t.entryField? f.number = some f := known.found
    have first : (t.start true).slot? f.number = t.blankEntry.slot? f.number := rfl
    rw [first, t.slot?_blankEntry, found, Option.bind_some]
    cases f.isSilent f.defaultValues <;> simp

/-- A list has no values at first. -/
theorem Known.values_start (known : p.Known t isEntry f) (many : f.arity ≠ .single)
    (start : a.slot? f.number = (t.start isEntry).slot? f.number) : a.values f.number = [] := by
  rw [Message.values_eq, start, known.slot?_start]
  split
  · unfold Field.defaultValues
    cases arity : f.arity with
    | single => exact absurd arity many
    | list | map => rfl
  · rfl

/-- A single message is blank at first. -/
theorem Known.child_start (known : p.Known t isEntry f) {name : String} (single : f.arity = .single)
    (typed : f.kind.type? = some name)
    (start : a.slot? f.number = (t.start isEntry).slot? f.number) :
    a.child f name = .blank name := by
  have default : f.defaultValues = [.message (.blank name)] := by
    cases kind : f.kind with
    | scalar k =>
      rw [kind] at typed
      cases typed
    | message other | group other =>
      rw [kind] at typed
      cases typed
      simp [Field.defaultValues, single, kind]
  have values : a.values f.number = [] ∨ a.values f.number = [.message (.blank name)] := by
    rw [Message.values_eq, start, known.slot?_start, default]
    split
    · exact .inr rfl
    · exact .inl rfl
  unfold Message.child
  rcases values with none | one
  · rw [none]
  · rw [one]

/-- No choice is made between the fields of an entry. -/
theorem excludes_start {n : Nat} {r : Slot} (start : (t.start isEntry).slot? n = some r)
    (g : Field) : g.excludes r.field = false := by
  cases isEntry with
  | false => cases start
  | true =>
    have first : t.blankEntry.slot? n = some r := start
    rw [t.slot?_blankEntry] at first
    obtain ⟨f, found, same⟩ := Option.bind_eq_some_iff.mp first
    split at same
    · cases same
    · cases same
      exact (Field.excludes_of_no_choice (MessageType.of_entryField? found).2.1 g).2

/-! ### Part by part -/

/-- How far the message is read: for the parts that are done there is what is left of their slots,
for everything else there is what there was at first. -/
structure Reading (t : MessageType) (isEntry : Bool) (m : Message) (done : List Part)
    (a : Message) : Prop where
  type : a.type = t.name
  ordered : a.Ordered
  unknown : a.unknown = done.filterMap Part.unknown?
  told : ∀ s ∈ done.filterMap Part.slot?,
    a.slot? s.field.number = (m.heard isEntry).slot? s.field.number
  untold : ∀ n, (∀ s ∈ done.filterMap Part.slot?, s.field.number ≠ n) →
    a.slot? n = (t.start isEntry).slot? n

theorem reading_start (t : MessageType) (isEntry : Bool) (m : Message) :
    Reading t isEntry m [] (t.start isEntry) := by
  cases isEntry with
  | false => exact ⟨rfl, .nil, rfl, by simp, fun n _ => rfl⟩
  | true =>
    exact ⟨t.type_blankEntry, t.ordered_blankEntry, t.unknown_blankEntry, by simp, fun n _ => rfl⟩

/-- No slot that is there is another member of a choice of the message. -/
theorem Reading.excludes (reading : Reading t isEntry m done a) (fits : p.Fits d t isEntry m)
    (member : s ∈ m.slots) {n : Nat} {r : Slot} (there : a.slot? n = some r) :
    s.field.excludes r.field = false := by
  by_cases told : ∃ s' ∈ done.filterMap Part.slot?, s'.field.number = n
  · obtain ⟨s', inDone, rfl⟩ := told
    rw [reading.told s' inDone, fits.ordered.slot?_heard] at there
    obtain ⟨mapped, -⟩ := Option.filter_eq_some_iff.mp there
    obtain ⟨r', found, rfl⟩ := Option.map_eq_some_iff.mp mapped
    rw [Slot.field_heard]
    exact fits.apart s member r' (Slot.mem_of_at? found)
  · rw [reading.untold n fun s' inDone same => told ⟨s', inDone, same⟩] at there
    exact excludes_start there s.field

/-- A list that leaves no trace is a default of an entry, and nothing anywhere else. -/
theorem Fits.start_of_isMute (fits : p.Fits d t isEntry m) (member : s ∈ m.slots)
    (mute : s.isMute = true) :
    (t.start isEntry).slot? s.field.number =
      (some s.heard).filter fun s => isEntry || !s.isMute := by
  have known : p.Known t isEntry s.field := ⟨fits.found s member, fits.range s member⟩
  obtain ⟨f, vs⟩ := s
  have silent : f.isSilent vs = false := fits.loud _ member
  have fills : f.Fills vs := fits.fills _ member
  simp only [Slot.isMute, Slot.values, Slot.field, Bool.and_eq_true, List.isEmpty_iff] at mute
  obtain ⟨rfl, bare⟩ := mute
  have default : f.defaultValues = [] := by
    unfold Field.defaultValues
    cases arity : f.arity with
    | single =>
      obtain ⟨v, same⟩ := fills.one arity
      cases same
    | list | map => rfl
  rw [known.slot?_start, show (Slot.mk f []).field = f from rfl, default, silent]
  cases isEntry with
  | true => rfl
  | false =>
    have gone : (Slot.mk f []).heard.isMute = true := by
      rw [Slot.isMute_heard]
      simp [Slot.isMute, Slot.values, Slot.field, bare]
    simp [Option.filter, gone]

/-- What the slots have under other numbers stays. -/
theorem Reading.slot?_put_of_ne (reading : Reading t isEntry m done a) (fits : p.Fits d t isEntry m)
    (member : s ∈ m.slots) (vs : List Value) {n : Nat} (other : s.field.number ≠ n) :
    (a.put s.field vs).slot? n = a.slot? n := by
  rw [reading.ordered.slot?_put, if_neg other]
  cases there : a.slot? n with
  | none => rfl
  | some r => simp [Option.filter, reading.excludes fits member there]

/-- The slot of a field is read. -/
theorem Reading.next_slot (reading : Reading t isEntry m done a) (fits : p.Fits d t isEntry m)
    (member : s ∈ m.slots)
    (new : ∀ r ∈ done.filterMap Part.slot?, r.field.number ≠ s.field.number) :
    Reading t isEntry m (done ++ [.slot s])
      (if s.isMute then a else a.put s.field s.heard.values) := by
  have start := reading.untold s.field.number new
  have slots : (done ++ [Part.slot s]).filterMap Part.slot? = done.filterMap Part.slot? ++ [s] := by
    rw [List.filterMap_append]
    rfl
  have unknown : (done ++ [Part.slot s]).filterMap Part.unknown? =
      done.filterMap Part.unknown? := by
    rw [List.filterMap_append]
    exact List.append_nil _
  have heard : (m.heard isEntry).slot? s.field.number =
      (some s.heard).filter fun s => isEntry || !s.isMute := by
    rw [fits.ordered.slot?_heard, Message.slot?, fits.ordered.at?_of_mem member]
    rfl
  cases mute : s.isMute with
  | true =>
    rw [if_pos rfl]
    refine ⟨reading.type, reading.ordered, unknown ▸ reading.unknown, ?_, ?_⟩
    · intro r member'
      rw [slots] at member'
      rcases List.mem_append.mp member' with old | last
      · exact reading.told r old
      · rw [List.mem_singleton.mp last, start, heard, fits.start_of_isMute member mute]
    · intro n others
      rw [slots] at others
      exact reading.untold n fun r inDone => others r (List.mem_append_left _ inDone)
  | false =>
    rw [if_neg (by decide)]
    refine ⟨(a.type_put _ _).trans reading.type, reading.ordered.put _ _, ?_, ?_, ?_⟩
    · rw [a.unknown_put, unknown]
      exact reading.unknown
    · intro r member'
      rw [slots] at member'
      rcases List.mem_append.mp member' with old | last
      · rw [reading.slot?_put_of_ne fits member _ (new r old).symm]
        exact reading.told r old
      · have loud : s.field.isSilent s.heard.values = false := by
          rw [Slot.values_heard, Field.isSilent_heard]
          exact fits.loud s member
        rw [List.mem_singleton.mp last, reading.ordered.slot?_put, if_pos rfl, loud, heard]
        simp [Option.filter, mute, Slot.mk_heard]
    · intro n others
      rw [slots] at others
      rw [reading.slot?_put_of_ne fits member _ (others s (by simp))]
      exact reading.untold n fun r inDone => others r (List.mem_append_left _ inDone)

/-- An unknown field is read. -/
theorem takes_unknown {u : Unknown} (restores : u.Restores d)
    (foreign : p.fieldIn? t false u.number = none) (short : u.bytes.length < sizeLimit) :
    Takes (readInside (p.fieldReader d t false k)) a u.bytes (a.keep u) := by
  obtain ⟨w, body, inner, split, taken⟩ := restores.read_write short
  rw [show p.fieldIn? t false u.number = p.field? t u.number from rfl] at foreign
  rw [split]
  refine takes_inside ⟨restores.positive, restores.small⟩ inner ?_
  intro rest
  simp only [fieldReader, reader_eq, readKnown, foreign, taken, Except.map]

/-- It is kept behind those that were read before. -/
theorem Reading.next_unknown (reading : Reading t isEntry m done a) {u : Unknown}
    (last : ∀ v ∈ done.filterMap Part.unknown?, v.number ≤ u.number) :
    Reading t isEntry m (done ++ [.unknown u]) (a.keep u) := by
  have slots : (done ++ [Part.unknown u]).filterMap Part.slot? = done.filterMap Part.slot? := by
    rw [List.filterMap_append]
    exact List.append_nil _
  have same (n : Nat) : (a.keep u).slot? n = a.slot? n := by
    rw [Message.slot?, a.slots_keep]
    rfl
  refine ⟨(a.type_keep u).trans reading.type, ?_, ?_, ?_, ?_⟩
  · unfold Message.Ordered
    rw [a.slots_keep]
    exact reading.ordered
  · rw [a.unknown_keep, reading.unknown, Unknown.insert_of_le last, List.filterMap_append]
    rfl
  · intro s
    rw [slots, same]
    exact reading.told s
  · intro n
    rw [slots, same]
    exact reading.untold n

/-- One part more is read. -/
theorem Fits.reading_next (fits : p.Fits d t isEntry m)
    (slots : ∀ s ∈ m.slots, p.Readable d t isEntry s.field s.values) {q : Part} {after : List Part}
    (split : m.parts = done ++ q :: after) (short : q.bytes.length < sizeLimit)
    (room : q.bytes.length < k) (reading : Reading t isEntry m done a) :
    ∃ b, Covers (readInside (p.fieldReader d t isEntry k)) a q.bytes b ∧
      Reading t isEntry m (done ++ [q]) b := by
  cases q with
  | slot s =>
    have numbers := fits.ordered.pairwise_parts
    rw [split, List.filterMap_append] at numbers
    have new := (List.pairwise_append.mp numbers).2.2
    have member : s ∈ m.slots := by
      rw [← m.slots_of_parts.mem_iff, split]
      simp [Part.slot?]
    have fresh : ∀ r ∈ done.filterMap Part.slot?, r.field.number ≠ s.field.number :=
      fun r inDone => new r inDone s List.mem_cons_self
    have readable := slots s member
    have start := reading.untold s.field.number fresh
    refine ⟨_, ?_, reading.next_slot fits member fresh⟩
    exact readable.covers_slot reading.ordered (fun many => readable.known.values_start many start)
      (fun name single typed => readable.known.child_start single typed start) short room
  | unknown u =>
    have kept := Message.unknown_of_parts fits.sorted
    have sorted := fits.sorted
    rw [split, List.filterMap_append] at kept
    rw [Unknown.Sorted, ← kept] at sorted
    have member : u ∈ m.unknown := by
      rw [← kept]
      simp [Part.unknown?]
    obtain ⟨restores, foreign⟩ := fits.unknown u member
    refine ⟨a.keep u, ?_, reading.next_unknown fun v inDone =>
      (List.pairwise_append.mp sorted).2.2 v inDone u List.mem_cons_self⟩
    cases isEntry with
    | true =>
      rw [fits.bare rfl] at member
      cases member
    | false => exact .single (takes_unknown restores foreign short)

/-- All parts are read. The induction is on those that are left. -/
theorem Fits.reading_parts (fits : p.Fits d t isEntry m)
    (slots : ∀ s ∈ m.slots, p.Readable d t isEntry s.field s.values) {after : List Part}
    (split : m.parts = done ++ after) (short : m.bytes.length < sizeLimit)
    (room : m.bytes.length < k) (reading : Reading t isEntry m done a) :
    ∃ b, Covers (readInside (p.fieldReader d t isEntry k)) a (after.flatMap Part.bytes) b ∧
      Reading t isEntry m m.parts b := by
  induction after generalizing done a with
  | nil =>
    rw [List.append_nil] at split
    exact ⟨a, .nil a, split ▸ reading⟩
  | cons q after ih =>
    have length : q.bytes.length ≤ m.bytes.length := by
      rw [m.bytes_eq_parts]
      exact length_le_flatMap (by simp [split]) Part.bytes
    obtain ⟨b, here, next⟩ := fits.reading_next (k := k) slots split (by omega) (by omega) reading
    obtain ⟨c, later, whole⟩ := ih (by simp [split]) next
    exact ⟨c, here.append later, whole⟩

/-- When all parts are read, there is what is left of the message. -/
theorem Reading.eq_heard (reading : Reading t isEntry m m.parts b) (fits : p.Fits d t isEntry m)
    (filled : isEntry = true → ∀ n, (t.blankEntry.slot? n).isSome → (m.slot? n).isSome) :
    b = m.heard isEntry := by
  refine reading.ordered.ext (fits.ordered.heard isEntry) ?_ ?_ ?_
  · rw [reading.type, m.type_heard, fits.type]
  · rw [reading.unknown, Message.unknown_of_parts fits.sorted, m.unknown_heard]
  · intro n
    cases found : m.slot? n with
    | some s =>
      have member : s ∈ m.parts.filterMap Part.slot? :=
        m.slots_of_parts.mem_iff.mpr (Slot.mem_of_at? found)
      rw [← Slot.number_of_at? found]
      exact reading.told s member
    | none =>
      have others : ∀ s ∈ m.parts.filterMap Part.slot?, s.field.number ≠ n := by
        intro s member same
        have there := fits.ordered.at?_of_mem (m.slots_of_parts.mem_iff.mp member)
        rw [same] at there
        exact absurd (found.symm.trans there) (by simp)
      rw [reading.untold n others, fits.ordered.slot?_heard, found]
      cases isEntry with
      | false => rfl
      | true =>
        cases first : t.blankEntry.slot? n with
        | none => exact first
        | some s => simpa [found] using filled rfl n (by rw [first]; rfl)

/-! ### Whole messages -/

/-- A message in another one has fewer bytes. -/
theorem length_le_of_mem (bare : s.field.packed = false) (member : s ∈ m.slots) {c : Message}
    (inside : .message c ∈ s.values) : c.bytes.length ≤ m.bytes.length := by
  have whole := length_le_flatMap (Message.slot_mem_parts.mpr member) Part.bytes
  rw [← m.bytes_eq_parts, Part.bytes, s.bytes_eq bare] at whole
  have value := length_le_flatMap inside fun v =>
    Key.write s.field.number s.field.layout ++ s.field.wrap (v.body s.field.kind)
  have wrapped : c.bytes.length ≤ (s.field.wrap c.bytes).length := by
    unfold Field.wrap
    split <;> simp
  simp only [List.length_append, Value.body] at value
  omega

/-- The messages in a message in order are so, too. -/
theorem Tidy.ordered_of_mem (tidy : p.Tidy d t isEntry m) (sound : p.Sound) (member : t ∈ p.types)
    (inside : s ∈ m.slots) {c : Message} (among : .message c ∈ s.values) : c.Ordered := by
  cases tidy with
  | mk fits filled children =>
    cases typed : s.field.kind.type? with
    | none =>
      cases kind : s.field.kind with
      | message name | group name =>
        rw [kind] at typed
        cases typed
      | scalar k =>
        obtain ⟨x, same, -⟩ := (fits.fills s inside).data k kind _ among
        cases same
    | some name =>
      have known := (sound.of_fieldIn? member (fits.found s inside)).1
      obtain ⟨t', found⟩ := Option.isSome_iff_exists.mp (known.typed name typed)
      exact (children s inside c among name typed t' found).fits.ordered

/-- A message in order is read back. The induction is on the messages in it. -/
theorem Tidy.rereads (tidy : p.Tidy d t isEntry m) (sound : p.Sound) (member : t ∈ p.types)
    (level : m.nesting ≤ d) (short : m.bytes.length < sizeLimit) : p.Rereads d t isEntry m := by
  induction tidy with
  | @mk d t isEntry m fits filled children ih =>
    have tidy := Tidy.mk fits filled children
    intro k room
    have slots : ∀ s ∈ m.slots, p.Readable d t isEntry s.field s.values := by
      intro s inside
      have known : p.Known t isEntry s.field := ⟨fits.found s inside, fits.range s inside⟩
      have soundField := (sound.of_fieldIn? member known.found).1
      refine ⟨known, soundField, fits.fills s inside, ?_⟩
      intro c among
      refine ⟨tidy.ordered_of_mem sound member inside among, ?_⟩
      intro name typed t' found
      have deep := m.nesting_le inside among
      have small := length_le_of_mem (soundField.bare_of_typed typed) inside among
      have rereads := ih s inside c among name typed t' found (mem_of_type? found)
      rw [Value.nesting] at deep
      cases entries : s.field.holdsEntries with
      | true =>
        simp only [entries, if_true] at deep rereads ⊢
        exact rereads (by omega) (by omega)
      | false =>
        simp only [entries, Bool.false_eq_true, if_false] at deep rereads ⊢
        exact ⟨d - 1, by omega, rereads (by omega) (by omega)⟩
    obtain ⟨b, covers, reading⟩ :=
      fits.reading_parts slots (List.nil_append _).symm short room (reading_start t isEntry m)
    rw [← m.bytes_eq_parts, reading.eq_heard fits filled] at covers
    exact covers

/-- Every message that was read is read back, if it is not nested too deeply. -/
theorem decode_bytes {bs : Bytes} (sound : p.Sound) (member : t ∈ p.types)
    (decoded : p.decode t bs = .ok m) (level : m.nesting ≤ depthLimit)
    (short : m.bytes.length < sizeLimit) : p.decode t m.bytes = .ok (m.heard false) := by
  have rereads := (tidy_decode sound member decoded).rereads sound member level short
  have covers : Covers (readInside (p.reader depthLimit t)) (.blank t.name) m.bytes
      (m.heard false) := rereads _ (Nat.lt_succ_self _)
  have whole := repeatUntil_of_covers (covers_keyed covers) (Nat.le_refl _) []
  rw [List.append_nil] at whole
  rw [decode, show (0 : Nat) = ([] : Bytes).length from rfl, whole]
  rfl

end Pool

end Notary.Schema
