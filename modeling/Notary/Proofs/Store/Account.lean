/-
What a store tells is what its history says.

The history of a store tells everything that the store will answer: the first write of a hash fixes
what is read, and all the writes of it together fix who may read it. Nothing that is written later
takes anything back.

* `MadeOf` — an object as what the writes of its hash make of it.
* `objects_of_history` — a hash that was never written has no object, any other has what its writes
  make of it.
* `answers_of_history` — reads and audiences from the history alone.
-/

import Notary.Proofs.Store.History

namespace Notary.Store

namespace Audience

/-- What two audiences join to is public if one of them is. -/
@[simp] theorem widen_eq_everyone_iff {a b : Audience} :
    a.widen b = .everyone ↔ a = .everyone ∨ b = .everyone := by
  cases a <;> cases b <;> simp [widen]

@[simp] theorem admits_only {readers : Readers} {k : PublicKey} :
    (only readers).admits k = true ↔ k ∈ readers := by
  simp [admits]

@[simp] theorem readers?_eq_some_iff {a : Audience} {readers : Readers} :
    a.readers? = some readers ↔ a = .only readers := by
  cases a <;> simp [readers?]

/-- A reader is kept out by a restriction that does not name him. -/
theorem not_admits_iff {a : Audience} {k : PublicKey} :
    ¬ a.admits k = true ↔ ∃ readers, a = .only readers ∧ k ∉ readers := by
  cases a <;> simp [admits]

end Audience

namespace MemoryStore

/-! ### An object and the writes of its hash -/

/-- The object is the first of the writes, with the readers of all of them: it is public if one of
them is. -/
structure MadeOf (first : StoredObject) (writes : List StoredObject) (o : StoredObject) : Prop where
  grown : first.Extends o
  admits : ∀ k, o.audience.admits k = true ↔ ∃ w ∈ writes, w.audience.admits k = true
  everyone : o.audience = .everyone ↔ ∃ w ∈ writes, w.audience = .everyone

/-- A merged object is public if it was before, or one of the writes is. -/
theorem everyone_of_mergeAll {o o' : StoredObject} {writes : List StoredObject}
    (merged : mergeAll (some o) writes = some o') :
    o'.audience = .everyone ↔ o.audience = .everyone ∨ ∃ w ∈ writes, w.audience = .everyone := by
  induction writes generalizing o with
  | nil =>
    cases merged
    simp
  | cons w rest ih =>
    rw [ih merged]
    simp [merge, or_assoc]

theorem madeOf_mergeAll (first : StoredObject) (rest : List StoredObject) :
    ∃ o, mergeAll (some first) rest = some o ∧ MadeOf first (first :: rest) o := by
  obtain ⟨o, merged, grown, admits⟩ := mergeAll_some first rest
  refine ⟨o, merged, grown, ?_, ?_⟩
  · intro k
    simp [admits k]
  · simp [everyone_of_mergeAll merged]

/-- Writes are counted to a hash by their content. -/
theorem hash_of_mem_writesOf {h : Hash} {history : List Step} {o : StoredObject}
    (write : o ∈ writesOf h history) : contentHash o.bytes = h := by
  unfold writesOf at write
  rw [List.mem_filter] at write
  exact of_decide_eq_true write.2

/-- A hash that was never written has no object; any other has what its writes make of it. -/
theorem objects_of_history (history : List Step) (h : Hash) :
    (writesOf h history = [] ∧ (after {} history).objects[h]? = none) ∨
      ∃ first rest o, writesOf h history = first :: rest ∧
        (after {} history).objects[h]? = some o ∧ MadeOf first (first :: rest) o := by
  have stored := objects_after {} history h
  rw [Std.HashMap.getElem?_empty] at stored
  cases writes : writesOf h history with
  | nil =>
    rw [writes] at stored
    exact .inl ⟨rfl, stored⟩
  | cons first rest =>
    rw [writes] at stored
    obtain ⟨o, merged, made⟩ := madeOf_mergeAll first rest
    exact .inr ⟨first, rest, o, rfl, stored.trans merged, made⟩

/-- Every object lies under the hash of its bytes. -/
theorem hash_of_stored {history : List Step} {h : Hash} {o : StoredObject}
    (stored : (after {} history).objects[h]? = some o) : contentHash o.bytes = h := by
  rcases objects_of_history history h with ⟨-, none⟩ | ⟨first, rest, o', writes, some, made⟩
  · rw [none] at stored
    cases stored
  · rw [some] at stored
    cases stored
    rw [made.grown.bytes]
    exact hash_of_mem_writesOf (writes ▸ List.mem_cons_self)

/-! ### Answers -/

/-- An object is found by those who may read it. -/
theorem found_iff {s : MemoryStore} {h : Hash} {reader : PublicKey} {expected : ObjectKind} :
    s.lookup h reader expected ≠ .error (.notFound h) ↔
      ∃ o, s.objects[h]? = some o ∧ o.audience.admits reader = true := by
  unfold lookup
  cases s.objects[h]? with
  | none => simp
  | some o =>
    by_cases admitted : o.audience.admits reader = true
    · by_cases fits : o.kind = expected <;> simp [admitted, fits]
    · simp [admitted]

section Answers

variable (history : List Step) (h : Hash) (reader : PublicKey) (expected : ObjectKind)

/-- A reader finds what some write lets him read. -/
theorem found_after_iff :
    (after {} history).lookup h reader expected ≠ .error (.notFound h) ↔
      ∃ w ∈ writesOf h history, w.audience.admits reader = true := by
  rw [found_iff]
  rcases objects_of_history history h with ⟨writes, none⟩ | ⟨first, rest, o, writes, stored, made⟩
  · simp [none, writes]
  · rw [writes, ← made.admits]
    simp [stored]

/-- A reader finds nothing whom every write of the hash keeps out. -/
theorem lookup_eq_notFound_iff :
    (after {} history).lookup h reader expected = .error (.notFound h) ↔
      ∀ w ∈ writesOf h history, ∃ readers, w.audience = .only readers ∧ reader ∉ readers := by
  simp only [← Audience.not_admits_iff]
  constructor
  · intro absent w write lets
    exact (found_after_iff history h reader expected).mpr ⟨w, write, lets⟩ absent
  · intro shut
    refine Classical.not_not.mp ?_
    intro found
    obtain ⟨w, write, lets⟩ := (found_after_iff history h reader expected).mp found
    exact shut w write lets

/-- Any other reader is told about the first write of the hash. -/
theorem lookup_of_found
    (found : (after {} history).lookup h reader expected ≠ .error (.notFound h)) :
    ∃ first rest, writesOf h history = first :: rest ∧ contentHash first.bytes = h ∧
      (after {} history).lookup h reader expected =
        if first.kind = expected then .ok first.bytes
        else .error (.typeMismatch h expected first.kind) := by
  obtain ⟨o, stored, admitted⟩ := found_iff.mp found
  rcases objects_of_history history h with ⟨-, none⟩ | ⟨first, rest, o', writes, stored', made⟩
  · rw [none] at stored
    cases stored
  · rw [stored'] at stored
    cases stored
    refine ⟨first, rest, writes, hash_of_mem_writesOf (writes ▸ List.mem_cons_self), ?_⟩
    rw [lookup_of_admits stored' admitted, made.grown.kind, made.grown.bytes]

/-- What a reader is told once he is told for ever. -/
theorem lookup_after_append
    (found : (after {} history).lookup h reader expected ≠ .error (.notFound h))
    (later : List Step) :
    (after {} (history ++ later)).lookup h reader expected =
      (after {} history).lookup h reader expected := by
  obtain ⟨o, stored, admitted⟩ := found_iff.mp found
  rw [after_append]
  exact (after_extends (after {} history) later).lookup_eq stored admitted expected

/-- No audience is named for a hash that was not written, or was written for everyone. -/
theorem audienceOf?_eq_none_iff :
    (after {} history).audienceOf? h = none ↔
      writesOf h history = [] ∨ ∃ w ∈ writesOf h history, w.audience = .everyone := by
  rcases objects_of_history history h with ⟨writes, none⟩ | ⟨first, rest, o, writes, stored, made⟩
  · simp [audienceOf?, none, writes]
  · rw [writes, ← made.everyone]
    cases audience : o.audience <;> simp [audienceOf?, stored, audience, Audience.readers?]

/-- An audience that is named joins those of the writes. -/
theorem mem_audienceOf?_iff {readers : Readers}
    (restricted : (after {} history).audienceOf? h = some readers) (k : PublicKey) :
    k ∈ readers ↔ ∃ w ∈ writesOf h history, ∃ own, w.audience = .only own ∧ k ∈ own := by
  rcases objects_of_history history h with ⟨-, none⟩ | ⟨first, rest, o, writes, stored, made⟩
  · simp [audienceOf?, none] at restricted
  · have audience : o.audience = .only readers := by
      rw [audienceOf?, stored] at restricted
      exact Audience.readers?_eq_some_iff.mp restricted
    have admits := made.admits k
    rw [audience, Audience.admits_only] at admits
    rw [writes, admits]
    constructor
    · rintro ⟨w, write, lets⟩
      cases own : w.audience with
      | everyone =>
        have isPublic := made.everyone.mpr ⟨w, write, own⟩
        rw [audience] at isPublic
        cases isPublic
      | only readers' =>
        rw [own, Audience.admits_only] at lets
        exact ⟨w, write, readers', own, lets⟩
    · rintro ⟨w, write, own, limited, member⟩
      exact ⟨w, write, by rw [limited, Audience.admits_only]; exact member⟩

end Answers

/-- A store answers as its history says. A read finds nothing when every write of the hash keeps the
reader out, and there may be none; otherwise it tells the first write of the hash, whose content
has that hash: its bytes if it was of the kind that is expected, or else its kind. The audience of a
hash joins those of all its writes, and is not named if there is none or one of them is public. So
nothing that comes later takes a read back. -/
theorem answers_of_history (history : List Step) (h : Hash) (reader : PublicKey)
    (expected : ObjectKind) :
    (((after {} history).read h reader expected).1 = .error (.notFound h) ↔
        ∀ w ∈ writesOf h history, ∃ readers, w.audience = .only readers ∧ reader ∉ readers) ∧
      (((after {} history).read h reader expected).1 ≠ .error (.notFound h) →
        ∃ first rest, writesOf h history = first :: rest ∧ contentHash first.bytes = h ∧
          ((after {} history).read h reader expected).1 =
            if first.kind = expected then .ok first.bytes
            else .error (.typeMismatch h expected first.kind)) ∧
      ((after {} history).audienceOf? h = none ↔
        writesOf h history = [] ∨ ∃ w ∈ writesOf h history, w.audience = .everyone) ∧
      (∀ readers, (after {} history).audienceOf? h = some readers →
        ∀ k, k ∈ readers ↔ ∃ w ∈ writesOf h history, ∃ own, w.audience = .only own ∧ k ∈ own) ∧
      ∀ later, ((after {} history).read h reader expected).1 ≠ .error (.notFound h) →
        ((after {} (history ++ later)).read h reader expected).1 =
          ((after {} history).read h reader expected).1 := by
  refine ⟨lookup_eq_notFound_iff history h reader expected,
    lookup_of_found history h reader expected, audienceOf?_eq_none_iff history h, ?_, ?_⟩
  · intro readers restricted
    exact mem_audienceOf?_iff history h restricted
  · intro later found
    exact lookup_after_append history h reader expected found later

end MemoryStore

end Notary.Store
