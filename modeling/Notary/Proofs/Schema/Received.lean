/-
Every message that was read is in order.

Reading starts with a blank message and changes it field by field, so it is enough that each field
that is read keeps a message tidy. Messages inside are read in the same way, with less depth left.

* `Keeps` — a reader of fields keeps messages of a type tidy.
* `tidy_readField`, `keeps_reader` — the readers of a pool do.
* `tidy_decode` — so every message that was read is tidy.
-/

import Notary.Proofs.Schema.Tidy

namespace Notary.Schema

open Wire

variable {p : Pool} {d : Nat} {t : MessageType} {isEntry : Bool} {f : Field} {m m' : Message}
  {bs rest : Bytes} {w : WireType}

/-! ### Entries by key -/

/-- The entry takes the place of that with the same key, so keys stay different. -/
theorem pairwise_insertEntry {e : Message} {vs : List Value}
    (messages : ∀ v ∈ vs, ∃ m, v = .message m) (keys : vs.Pairwise fun v w => v.key ≠ w.key) :
    (insertEntry e vs).Pairwise fun v w => v.key ≠ w.key := by
  rw [← List.pairwise_map (f := Value.key) (R := fun k l => k ≠ l)] at keys ⊢
  unfold insertEntry
  dsimp only
  split
  · rw [List.map_map]
    refine (List.map_congr_left ?_ : _ = vs.map Value.key) ▸ keys
    intro v _
    cases v with
    | datum d => rfl
    | message m =>
      simp only [Function.comp_apply]
      split
      · rename_i same
        exact (beq_iff_eq.mp same).symm
      · rfl
  · rename_i missing
    rw [List.map_append]
    refine List.pairwise_append.mpr ⟨keys, List.pairwise_singleton _ _, ?_⟩
    intro k inKeys l last same
    obtain ⟨v, member, rfl⟩ := List.mem_map.mp inKeys
    obtain ⟨m, rfl⟩ := messages v member
    rw [List.mem_singleton.mp last] at same
    refine missing (List.any_eq_true.mpr ⟨.message m, member, ?_⟩)
    exact beq_iff_eq.mpr same

theorem mem_insertEntry {e : Message} {vs : List Value} {v : Value}
    (member : v ∈ insertEntry e vs) : v = .message e ∨ v ∈ vs := by
  unfold insertEntry at member
  dsimp only at member
  split at member
  · obtain ⟨w, old, rfl⟩ := List.mem_map.mp member
    cases w with
    | datum d => exact .inr old
    | message m =>
      dsimp only
      split
      · exact .inl rfl
      · exact .inr old
  · rcases List.mem_append.mp member with old | new
    · exact .inr old
    · exact .inl (List.mem_singleton.mp new)

namespace Pool

/-! ### Readers that keep messages tidy -/

/-- The reader of fields keeps messages of the type tidy. -/
def Keeps (p : Pool) (d : Nat) (t : MessageType) (isEntry : Bool)
    (read : Nat → WireType → Message → Bytes → Except Cause (Message × Bytes)) : Prop :=
  ∀ n w m bs m' rest, 0 < n ∧ n < 2 ^ 29 → p.Tidy d t isEntry m →
    read n w m bs = .ok (m', rest) → p.Tidy d t isEntry m'

variable {read : Nat → WireType → Message → Bytes → Except Cause (Message × Bytes)}

theorem Keeps.readKeyed (keeps : p.Keeps d t isEntry read) (tidy : p.Tidy d t isEntry m)
    (keyed : readKeyed read m bs = .ok (m', rest)) : p.Tidy d t isEntry m' := by
  unfold Schema.readKeyed at keyed
  split at keyed
  · cases keyed
  · rename_i key
    exact keeps _ _ m _ m' rest (Key.range_of_read key) tidy keyed

theorem Keeps.readGroup (keeps : p.Keeps d t isEntry read) {number k : Nat}
    (tidy : p.Tidy d t isEntry m) (grouped : readGroup read number k m bs = .ok (m', rest)) :
    p.Tidy d t isEntry m' := by
  induction k generalizing m bs with
  | zero => cases grouped
  | succ k ih =>
    unfold Schema.readGroup at grouped
    split at grouped
    · cases grouped
    · split at grouped
      · cases grouped
        exact tidy
      · cases grouped
    · rename_i key
      split at grouped
      · cases grouped
      · rename_i here
        exact ih (keeps _ _ m _ _ _ (Key.range_of_read key) tidy here) grouped

/-! ### One field -/

theorem tidyIn_of_scalar {k : ScalarKind} (kind : f.kind = .scalar k) (vs : List Value) :
    p.TidyIn d f vs := by
  intro c _ name typed
  rw [kind] at typed
  cases typed

/-- The field is one of the type, and its number is one that a key can have. -/
structure Known (p : Pool) (t : MessageType) (isEntry : Bool) (f : Field) : Prop where
  found : p.fieldIn? t isEntry f.number = some f
  range : 0 < f.number ∧ f.number < 2 ^ 29

theorem Known.tidy_readScalar (known : p.Known t isEntry f) (tidy : p.Tidy d t isEntry m)
    {k : ScalarKind} (kind : f.kind = .scalar k)
    (here : readScalar f k w m bs = .ok (m', rest)) : p.Tidy d t isEntry m' := by
  unfold readScalar at here
  split at here
  · cases here
  · split at here
    · cases here
    · rename_i value
      cases here
      have restores := ScalarKind.restores_of_read value
      exact tidy.put known.found known.range
        ⟨f.holds_nil.add_datum kind restores, fun _ => ⟨_, rfl⟩⟩ (tidyIn_of_scalar kind _)

/-- Reads a value at the end of others. -/
def readNext (k : ScalarKind) (vs : List Value) (bs : Bytes) : Except Cause (List Value × Bytes) :=
  match k.read bs with
  | .error c => .error c
  | .ok (d, rest) => .ok (vs ++ [.datum d], rest)

theorem holds_readNext {k : ScalarKind} (kind : f.kind = .scalar k) {vs ws : List Value}
    {bs rest : Bytes} (holds : f.Holds vs) (read : readNext k vs bs = .ok (ws, rest)) :
    f.Holds ws := by
  unfold readNext at read
  split at read
  · cases read
  · rename_i value
    cases read
    exact holds.add_datum kind (ScalarKind.restores_of_read value)

theorem Known.tidy_readScalars (known : p.Known t isEntry f) (tidy : p.Tidy d t isEntry m)
    {k : ScalarKind} (kind : f.kind = .scalar k) (many : f.arity ≠ .single)
    (here : readScalars f k w m bs = .ok (m', rest)) : p.Tidy d t isEntry m' := by
  have before := (tidy.values known.found).1
  unfold readScalars at here
  dsimp only at here
  split at here
  · cases here
  · rename_i stretch
    cases here
    refine tidy.put known.found known.range ⟨?_, fun single => absurd single many⟩
      (tidyIn_of_scalar kind _)
    split at stretch
    · exact of_within (holds_readNext kind) before stretch
    · split at stretch
      · cases stretch
      · exact holds_readNext kind before stretch

/-- The message that a field has so far, if it is no list, is in order. -/
theorem Known.tidy_child (known : p.Known t isEntry f) (tidy : p.Tidy d t isEntry m)
    {name : String} (typed : f.kind.type? = some name) (plain : f.holdsEntries = false)
    {t' : MessageType} (found : p.type? name = some t') :
    p.Tidy (d - 1) t' false (if f.arity = .single then m.child f name else .blank name) := by
  have blank : p.Tidy (d - 1) t' false (.blank name) := by
    rw [← name_of_type? found]
    exact tidy_blank p _ t'
  split
  · unfold Message.child
    split
    · rename_i c _ first
      have inside := (tidy.values known.found).2
      have there := inside c (by rw [first]; exact List.mem_cons_self) name typed t' found
      simpa only [plain, Bool.false_eq_true, if_false] using there
    · exact blank
  · exact blank

theorem tidy_readChild {read : Reader} {t' : MessageType} (keeps : p.Keeps d t' false (read t'))
    {isGroup : Bool} {start c : Message} (tidy : p.Tidy d t' false start)
    (child : readChild read f t' isGroup start bs = .ok (c, rest)) : p.Tidy d t' false c := by
  unfold readChild at child
  split at child
  · exact keeps.readGroup tidy child
  · exact of_within keeps.readKeyed tidy child

theorem Known.tidy_readMessage (known : p.Known t isEntry f) (tidy : p.Tidy d t isEntry m)
    {deeper : Option Reader}
    (below : ∀ read, deeper = some read → ∀ t' ∈ p.types, p.Keeps (d - 1) t' false (read t'))
    {name : String} (typed : f.kind.type? = some name) (plain : f.holdsEntries = false)
    {isGroup : Bool} (here : p.readMessage deeper f name isGroup w m bs = .ok (m', rest)) :
    p.Tidy d t isEntry m' := by
  obtain ⟨holds, inside⟩ := tidy.values known.found
  unfold readMessage at here
  split at here
  · cases here
  · split at here
    · rename_i read t' found
      dsimp only at here
      split at here
      · cases here
      · rename_i c _ child
        cases here
        have read := tidy_readChild (below read rfl t' (mem_of_type? found))
          (known.tidy_child tidy typed plain found) child
        refine tidy.put known.found known.range ⟨?_, ?_⟩ ?_
        · split
          · exact f.holds_nil.add_message typed plain c
          · exact holds.add_message typed plain c
        · intro single
          simp [single]
        · intro c' member name' typed' t'' found'
          rw [typed] at typed'
          cases typed'
          rw [found] at found'
          cases found'
          rcases List.mem_append.mp member with old | new
          · split at old
            · cases old
            · exact inside c' old name typed t' found
          · cases List.mem_singleton.mp new
            simpa only [plain, Bool.false_eq_true, if_false] using read
    · cases here

theorem Known.tidy_readEntry (known : p.Known t isEntry f) (tidy : p.Tidy d t isEntry m)
    (sound : p.Sound) {name : String} (arity : f.arity = .map) (kind : f.kind = .message name)
    {t' : MessageType} (found : p.type? name = some t') (keeps : p.Keeps d t' true read)
    (here : readEntry read f t' m bs = .ok (m', rest)) : p.Tidy d t isEntry m' := by
  obtain ⟨holds, inside⟩ := tidy.values known.found
  have typed : f.kind.type? = some name := by rw [kind]; rfl
  have entries : f.holdsEntries = true := by simp [Field.holdsEntries, arity, kind]
  unfold readEntry at here
  split at here
  · cases here
  · rename_i e _ entry
    cases here
    have blank := tidy_blankEntry sound (mem_of_type? found) d
    have read : p.Tidy d t' true e := of_within keeps.readKeyed blank entry
    refine tidy.put known.found known.range ⟨⟨?_, ?_, ?_⟩, ?_⟩ ?_
    · intro k scalar
      rw [kind] at scalar
      cases scalar
    · intro name' typed' v member
      rcases mem_insertEntry member with rfl | old
      · exact ⟨e, rfl⟩
      · exact holds.messages name' typed' v old
    · exact fun _ => pairwise_insertEntry (holds.messages name typed) (holds.keys entries)
    · intro single
      rw [arity] at single
      cases single
    · intro c member name' typed' t'' found'
      rcases mem_insertEntry member with same | old
      · cases same
        rw [typed] at typed'
        cases typed'
        rw [found] at found'
        cases found'
        simpa only [entries, if_true] using read
      · exact inside c old name' typed' t'' found'

/-- The induction is on the number of maps that may still stand in one another. -/
theorem tidy_readField (sound : p.Sound) {deeper : Option Reader}
    (below : ∀ read, deeper = some read → ∀ t' ∈ p.types, p.Keeps (d - 1) t' false (read t'))
    {k : Nat} (known : p.Known t isEntry f) (tidy : p.Tidy d t isEntry m)
    (here : p.readField d deeper k f w m bs = .ok (m', rest)) : p.Tidy d t isEntry m' := by
  induction k generalizing t isEntry f w m bs m' rest with
  | zero => cases here
  | succ k ih =>
    cases kind : f.kind with
    | scalar s =>
      cases arity : f.arity with
      | single =>
        simp only [readField, arity, kind] at here
        exact known.tidy_readScalar tidy kind here
      | list | map =>
        simp only [readField, arity, kind] at here
        exact known.tidy_readScalars tidy kind (by simp [arity]) here
    | group name =>
      have plain : f.holdsEntries = false := by
        cases arity : f.arity <;> simp [Field.holdsEntries, arity, kind]
      simp only [readField, kind] at here
      exact known.tidy_readMessage tidy below (by rw [kind]; rfl) plain here
    | message name =>
      cases arity : f.arity with
      | single | list =>
        simp only [readField, arity, kind] at here
        exact known.tidy_readMessage tidy below (by rw [kind]; rfl)
          (by simp [Field.holdsEntries, arity]) here
      | map =>
        simp only [readField, arity, kind] at here
        split at here
        · cases here
        · rename_i t' found
          refine known.tidy_readEntry tidy sound arity kind found ?_ here
          intro n w m bs m' rest range tidy here
          dsimp only at here
          split at here
          · rename_i g inner
            have number := (MessageType.of_entryField? inner).1
            rw [← number] at inner range
            exact ih ⟨inner, range⟩ tidy here
          · cases skipped : skip d n w bs with
            | error c => simp [skipped, Except.map] at here
            | ok after =>
              simp only [skipped, Except.map, Except.ok.injEq, Prod.mk.injEq] at here
              exact here.1 ▸ tidy

/-! ### Whole messages -/

theorem keeps_readKnown (sound : p.Sound) {deeper : Option Reader}
    (below : ∀ read, deeper = some read → ∀ t' ∈ p.types, p.Keeps (d - 1) t' false (read t'))
    (member : t ∈ p.types) : p.Keeps d t false (p.readKnown d deeper t) := by
  intro n w m bs m' rest range tidy here
  unfold readKnown at here
  split at here
  · rename_i f found
    obtain ⟨-, number⟩ := sound.of_field? member found
    rw [← number] at found range
    exact tidy_readField sound below ⟨found, range⟩ tidy here
  · rename_i foreign
    cases taken : Unknown.take d n w bs with
    | error c => simp [taken, Except.map] at here
    | ok kept =>
      simp only [taken, Except.map, Except.ok.injEq, Prod.mk.injEq] at here
      obtain ⟨number, restores⟩ := Unknown.restores_of_take range.1 range.2 taken
      rw [← here.1]
      refine tidy.keep restores ?_
      rw [number]
      exact foreign

/-- The induction is on the depth that is left. -/
theorem keeps_reader (sound : p.Sound) (d : Nat) (t : MessageType) (member : t ∈ p.types) :
    p.Keeps d t false (p.reader d t) := by
  induction d generalizing t with
  | zero => exact keeps_readKnown sound nofun member
  | succ d ih =>
    refine keeps_readKnown sound ?_ member
    intro read same t' member'
    cases same
    exact ih t' member'

/-- Every message that was read is in order with all messages in it. -/
theorem tidy_decode (sound : p.Sound) (member : t ∈ p.types) (decoded : p.decode t bs = .ok m) :
    p.Tidy depthLimit t false m := by
  unfold decode at decoded
  cases read : repeatUntil 0 (readKeyed (p.reader depthLimit t)) bs.length (.blank t.name) bs with
  | error c => simp [read, Except.map] at decoded
  | ok result =>
    simp only [read, Except.map, Except.ok.injEq] at decoded
    rw [← decoded]
    exact of_repeatUntil (keeps_reader sound depthLimit t member).readKeyed (tidy_blank p _ t) read

end Pool

end Notary.Schema
