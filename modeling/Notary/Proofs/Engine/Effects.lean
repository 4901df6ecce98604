/-
What an execution writes.

An execution that ends with a fault, or in the failure of a call, leaves the store as it was. Else
there is one signed write for each consideration that passed. A write creates an object for the
parties of the contract, the extra audience and the caller, or opens the object that was there
before to them; no other object changes.

* `turned` — the considerations that an execution gave an outcome.
* `addressees` — who may read the outputs of a contract.
* `Recorded` — what the writes of an execution make of a store.
* `handle_effects` — every call either writes nothing, or writes the outputs of all that passed.
-/

import Notary.Proofs.Engine.Outcome

namespace Notary.Engine

open Notary.Contract
open Notary.Store (MemoryStore Readers StoredObject)

/-! ### Outcomes -/

@[simp] theorem outcome_pass (output : ProposedRecord) :
    (ExecutionResult.pass output).outcome = .pass := by
  simp [ExecutionResult.pass, ExecutionResult.outcome]

@[simp] theorem outcome_fail (message : String) :
    (ExecutionResult.fail message).outcome = .fail := by
  simp [ExecutionResult.fail, ExecutionResult.outcome]

@[simp] theorem outcome_skip (name classname : String) :
    (ExecutionResult.skip name classname).outcome = .skip := by
  simp [ExecutionResult.skip, ExecutionResult.outcome]

/-- The places of the considerations that were pending in the older contract and have the outcome in
the newer one. -/
def turned (o : Outcome) (old new : Contract) : List Nat :=
  ((pendingFrom 0 old.considerations).map (·.2)).filter fun i =>
    (resultAt new i).any fun r => r.outcome == o

theorem mem_places_iff {c : Contract} {i : Nat} :
    i ∈ (pendingFrom 0 c.considerations).map (·.2) ↔ PendingAt c i := by
  rw [List.mem_map]
  constructor
  · rintro ⟨⟨k, j⟩, member, rfl⟩
    exact ⟨k, mem_pendingFrom_iff.mp member⟩
  · rintro ⟨k, pending⟩
    exact ⟨(k, i), mem_pendingFrom_iff.mpr pending, rfl⟩

theorem mem_turned_iff {o : Outcome} {old new : Contract} {i : Nat} :
    i ∈ turned o old new ↔ PendingAt old i ∧ ∃ r, resultAt new i = some r ∧ r.outcome = o := by
  rw [turned, List.mem_filter, mem_places_iff]
  cases resultAt new i <;> simp

/-- The considerations that results give an outcome, when each pending one has its result. -/
theorem turned_setResults (o : Outcome) {old : Contract} {rs : List (Nat × ExecutionResult)}
    (covers : (rs.map (·.1)).Perm ((pendingFrom 0 old.considerations).map (·.2))) :
    (turned o old (setResults old rs)).Perm ((rs.filter fun r => r.2.outcome == o).map (·.1)) := by
  have distinct : (rs.map (·.1)).Nodup := covers.nodup_iff.mpr (nodup_pendingFrom 0 _)
  have own : rs.filter (fun r => (resultAt (setResults old rs) r.1).any fun r => r.outcome == o) =
      rs.filter fun r => r.2.outcome == o := by
    refine List.filter_congr ?_
    rintro ⟨i, r⟩ member
    have pending : PendingAt old i :=
      mem_places_iff.mp (covers.mem_iff.mp (List.mem_map_of_mem member))
    rw [resultAt_setResults distinct member pending]
    rfl
  refine (covers.symm.filter _).trans ?_
  rw [List.filter_map, ← own]
  rfl

section Bindings

variable {γ : Type} {s : Context.Surroundings} {r : Runtime γ} {scope : Option ScopeState}
  {st : Stage γ} {bs : List Binding} {old new : Contract} {outputs : List Output}

/-- The consideration of a call that failed is among those that did. -/
theorem turned_of_aborted
    (places : bs.map (fun b => (b.consideration, b.index)) = pendingFrom 0 old.considerations)
    (aborted : Aborted s r st bs old new) : turned .fail old new ≠ [] := by
  obtain ⟨before, b, after, _, _, text, split, -, -, failed, -⟩ := aborted
  have member : b ∈ bs := by
    have among : b ∈ bs.filter (·.Runs st.existing) := by simp [split]
    exact (List.mem_filter.mp among).1
  have pending : PendingAt old b.index :=
    (pendingAt_iff_of_places places).mpr ⟨b, member, rfl⟩
  exact List.ne_nil_of_mem (mem_turned_iff.mpr ⟨pending, _, failed, outcome_fail text⟩)

/-- When all calls gave outputs, the considerations that have one passed, each with its own, and
none failed. -/
theorem turned_allResults
    (places : bs.map (fun b => (b.consideration, b.index)) = pendingFrom 0 old.considerations)
    (called : outputs.map (·.index) = (bs.filter (·.Runs st.existing)).map (·.index)) :
    (turned .pass old (setResults old (allResults scope st bs outputs))).Perm
        (outputs.map (·.index)) ∧
      (∀ o ∈ outputs, resultAt (setResults old (allResults scope st bs outputs)) o.index =
        some (passResult scope o)) ∧
      turned .fail old (setResults old (allResults scope st bs outputs)) = [] := by
  have covers : ((allResults scope st bs outputs).map (·.1)).Perm
      ((pendingFrom 0 old.considerations).map (·.2)) := by
    rw [← places, List.map_map]
    exact perm_allResults called
  have skipped (o : Outcome) (other : Outcome.skip ≠ o) :
      ((allResults scope st bs []).filter fun r => r.2.outcome == o) = [] := by
    rw [List.filter_eq_nil_iff]
    intro r member
    rw [allResults, List.map_nil, List.append_nil] at member
    obtain ⟨p, -, rfl⟩ := List.mem_map.mp member
    simpa using other
  have split : allResults scope st bs outputs =
      allResults scope st bs [] ++ outputs.map fun o => (o.index, passResult scope o) := by
    simp [allResults]
  refine ⟨?_, ?_, ?_⟩
  · have passed : (outputs.map fun o => (o.index, passResult scope o)).filter
        (fun r => r.2.outcome == .pass) = outputs.map fun o => (o.index, passResult scope o) := by
      simp [List.filter_eq_self, passResult]
    refine (turned_setResults .pass covers).trans ?_
    rw [split, List.filter_append, skipped .pass (by decide), passed, List.nil_append, List.map_map]
    exact .refl _
  · intro o member
    have own : (o.index, passResult scope o) ∈ allResults scope st bs outputs :=
      List.mem_append_right _ (List.mem_map_of_mem member)
    have pending : PendingAt old o.index :=
      mem_places_iff.mp (covers.mem_iff.mp (List.mem_map_of_mem own))
    exact resultAt_setResults (covers.nodup_iff.mpr (nodup_pendingFrom 0 _)) own pending
  · have passed : (outputs.map fun o => (o.index, passResult scope o)).filter
        (fun r => r.2.outcome == .fail) = [] := by
      simp [List.filter_eq_nil_iff, passResult]
    refine List.Perm.eq_nil ((turned_setResults .fail covers).trans ?_)
    rw [split, List.filter_append, skipped .fail (by decide), passed]
    exact .refl _

end Bindings

/-! ### Readers -/

/-- The keys that may read the outputs of a contract. -/
def addressees (caller : Caller) (extra : List PublicKey) (c : Contract) : Readers :=
  (audience c extra).insert caller.encryption.publicKey

theorem mem_addressees_iff {caller : Caller} {extra : List PublicKey} {c : Contract}
    {k : PublicKey} :
    k ∈ addressees caller extra c ↔
      (∃ r ∈ c.recitals, r.encryptionKey? = some k) ∨ k ∈ extra ∨
        k = caller.encryption.publicKey := by
  rw [addressees, Readers.mem_insert, audience, Readers.mem_ofList, List.mem_append,
    List.mem_filterMap]
  grind

/-! ### Stores -/

/-- The object of an output that was not stored before. -/
def outputObject (caller : Caller) (extra : List PublicKey) (c : Contract) (o : Output) :
    StoredObject :=
  ⟨.record o.message.type, o.message.bytes, .only (addressees caller extra c),
    some caller.signing.publicKey⟩

theorem written?_outputWrite (caller : Caller) (extra : List PublicKey) (c : Contract)
    (o : Output) :
    (outputWrite caller (audience c extra) o).written? = some (outputObject caller extra c o) :=
  rfl

/-- What the writes of outputs make of a hash: nothing when it is that of no output, and what the
first output of this hash makes of it otherwise. -/
theorem objects_after_outputs (caller : Caller) (extra : List PublicKey) (c : Contract)
    (outputs : List Output) (old : MemoryStore) (h : Hash) :
    ((∀ o ∈ outputs, contentHash o.message.bytes ≠ h) ∧
        (old.after (outputs.map (outputWrite caller (audience c extra)))).objects[h]? =
          old.objects[h]?) ∨
      ∃ o ∈ outputs, contentHash o.message.bytes = h ∧
        (old.after (outputs.map (outputWrite caller (audience c extra)))).objects[h]? =
          some (MemoryStore.merge old.objects[h]? (outputObject caller extra c o)) := by
  have same : ∀ step ∈ outputs.map (outputWrite caller (audience c extra)),
      ∀ o ∈ step.written?, o.audience = .only (addressees caller extra c) := by
    simp [written?_outputWrite, outputObject]
  rcases MemoryStore.objects_after_of_audience same old h with ⟨others, stays⟩ |
    ⟨step, among, o, written, bears, merged⟩
  · refine .inl ⟨?_, stays⟩
    intro o member
    exact others _ (List.mem_map_of_mem member) (outputObject caller extra c o)
      (written?_outputWrite caller extra c o)
  · obtain ⟨o', member, rfl⟩ := List.mem_map.mp among
    rw [written?_outputWrite, Option.mem_some_iff] at written
    subst written
    exact .inr ⟨o', member, bears, merged⟩

/-- The hash that the consideration at an index names for its output. -/
def outputHash? (c : Contract) (i : Nat) : Option Hash :=
  ((resultAt c i).bind (·.output)).bind (·.contentHash?)

/-- The store has been written the outputs of the considerations that passed. -/
structure Recorded (caller : Caller) (extra : List PublicKey) (c c' : Contract)
    (outputs : List Output) (old new : MemoryStore) : Prop where
  /-- There is one output for each consideration. -/
  places : (turned .pass c c').Perm (outputs.map (·.index))
  /-- The hash of a consideration is that of the bytes which were written for it. -/
  hashes : ∀ o ∈ outputs, outputHash? c' o.index = some (contentHash o.message.bytes)
  /-- The signed writes are those of the outputs, each of them once. -/
  writes : new.writes = old.writes + (turned .pass c c').length
  objects : new.objects =
    (old.after (outputs.map (outputWrite caller (audience c extra)))).objects
  /-- The addressees are the parties with a well-formed key, the extra audience and the caller. -/
  readers : ∀ k, k ∈ addressees caller extra c ↔
    (∃ r ∈ c.recitals, r.encryptionKey? = some k) ∨ k ∈ extra ∨ k = caller.encryption.publicKey
  /-- Every output is there. -/
  present : ∀ i ∈ turned .pass c c', ∃ h o, outputHash? c' i = some h ∧ new.objects[h]? = some o
  /-- Objects that are no outputs stay as they are. -/
  others : ∀ h, (∀ i ∈ turned .pass c c', outputHash? c' i ≠ some h) →
    new.objects[h]? = old.objects[h]?
  /-- An object that was not there before has the bytes and the type of an output, exactly the
  addressees as its audience, and the signing key of the caller as its signer. -/
  created : ∀ i ∈ turned .pass c c', ∀ h ∈ outputHash? c' i, old.objects[h]? = none →
    ∃ o ∈ outputs, contentHash o.message.bytes = h ∧
      new.objects[h]? = some (outputObject caller extra c o)
  /-- An object that was there before has exactly the addressees added to its audience. -/
  kept : ∀ i ∈ turned .pass c c', ∀ h ∈ outputHash? c' i, ∀ o, old.objects[h]? = some o →
    new.objects[h]? = some { o with
      audience := o.audience.widen (.only (addressees caller extra c)) }

/-- What the outputs of considerations that passed make of a store. -/
theorem recorded_after {caller : Caller} {scope : Option ScopeState} {extra : List PublicKey}
    {c c' : Contract} {outputs : List Output} {old start new : MemoryStore}
    (places : (turned .pass c c').Perm (outputs.map (·.index)))
    (results : ∀ o ∈ outputs, resultAt c' o.index = some (passResult scope o))
    (unwritten : old.Unwritten start)
    (stored : new = start.after (outputs.map (outputWrite caller (audience c extra)))) :
    Recorded caller extra c c' outputs old new := by
  have hashes (o : Output) (member : o ∈ outputs) :
      outputHash? c' o.index = some (contentHash o.message.bytes) := by
    rw [outputHash?, results o member]
    exact Hash.ofField?_toList (contentHash o.message.bytes)
  have objects : new.objects =
      (old.after (outputs.map (outputWrite caller (audience c extra)))).objects := by
    rw [stored]
    exact MemoryStore.objects_after_congr unwritten.objects _
  have merged (i : Nat) (passed : i ∈ turned .pass c c') (h : Hash)
      (named : outputHash? c' i = some h) :
      ∃ o ∈ outputs, contentHash o.message.bytes = h ∧ new.objects[h]? =
        some (MemoryStore.merge old.objects[h]? (outputObject caller extra c o)) := by
    rw [objects]
    rcases objects_after_outputs caller extra c outputs old h with ⟨absent, -⟩ | found
    · obtain ⟨o, member, rfl⟩ := List.mem_map.mp (places.mem_iff.mp passed)
      rw [hashes o member, Option.some.injEq] at named
      exact absurd named (absent o member)
    · exact found
  refine ⟨places, hashes, ?_, objects, fun _ => mem_addressees_iff, ?_, ?_, ?_, ?_⟩
  · rw [stored, MemoryStore.writes_after, unwritten.writes, places.length_eq]
    simp [List.countP_map, Function.comp_def, outputWrite, MemoryStore.Step.isSigned]
  · intro i passed
    obtain ⟨o, member, rfl⟩ := List.mem_map.mp (places.mem_iff.mp passed)
    obtain ⟨o', -, -, found⟩ := merged o.index passed _ (hashes o member)
    exact ⟨_, _, hashes o member, found⟩
  · intro h none
    rw [objects]
    rcases objects_after_outputs caller extra c outputs old h with ⟨-, stays⟩ |
      ⟨o, member, bears, -⟩
    · exact stays
    · have passed : o.index ∈ turned .pass c c' :=
        places.mem_iff.mpr (List.mem_map_of_mem member)
      exact absurd (bears ▸ hashes o member) (none o.index passed)
  · intro i passed h named absent
    obtain ⟨o, member, bears, found⟩ := merged i passed h named
    rw [absent] at found
    exact ⟨o, member, bears, found⟩
  · intro i passed h named o there
    obtain ⟨o', -, -, found⟩ := merged i passed h named
    rw [there] at found
    exact found

/-! ### Executions -/

variable {γ : Type}

/-- The considerations of an execution that ends well: one of them failed and nothing was written,
or none did and the outputs of all that passed were. -/
theorem executed_effects {s : Context.Surroundings} {r : Runtime γ} {caller : Caller}
    {scope : Option ScopeState} {extra : List PublicKey} {p : Plan} {c' : Contract}
    {old : MemoryStore} {start w' : Workspace MemoryStore} (unwritten : old.Unwritten start.store)
    (ran : (execute s r caller scope extra p).runOn start = (.ok c', w')) :
    (turned .fail p.contract c' ≠ [] ∧ old.Unwritten w'.store) ∨
      (turned .fail p.contract c' = [] ∧
        ∃ outputs, Recorded caller extra p.contract c' outputs old w'.store) := by
  obtain ⟨skipped, run, w, performed, rfl, rfl⟩ := runOn_execute_eq_ok_iff.mp ran
  have kept : old.Unwritten w.store := unwritten.trans (unwritten_of_runContract performed)
  obtain ⟨st, bs, -, places, -, rfl, outcome⟩ := runContract_cases performed
  rcases outcome with ⟨outputs, g', rfl, calls⟩ |
    ⟨before, b, after, outputs, g, text, rfl, split, calls, fails⟩
  · obtain ⟨passed, results, unfailed⟩ := turned_allResults places calls.index_ordered
    exact .inr ⟨unfailed, _, recorded_after passed results kept rfl⟩
  · obtain ⟨-, aborted⟩ := aborted_of_fails places split calls fails
    exact .inl ⟨turned_of_aborted places aborted, kept⟩

theorem unwritten_of_handle_eq_error {e e' : Engine MemoryStore γ} {orders : MapOrders}
    {caller : Caller} {envelope : Envelope} {scope : Option ScopeState} {extra : List PublicKey}
    {f : Fault} (handled : e.handle orders caller envelope scope extra = (.error f, e')) :
    e.store.Unwritten e'.store := by
  cases submitted : envelope.contract with
  | none =>
    rw [handle, submitted] at handled
    cases handled
    exact .refl e.store
  | some c =>
    have kept := e.unwritten_planned caller c
    rw [handle_eq e orders caller scope extra submitted] at handled
    rcases plans : e.planned caller c with ⟨answer, store⟩
    rw [plans] at handled kept
    cases answer with
    | error f =>
      cases handled
      exact kept
    | ok p =>
      rcases ran : e.executed orders caller scope extra p store with ⟨answer, w⟩
      simp only [ran] at handled
      cases answer with
      | ok c' => cases handled
      | error f =>
        cases handled
        exact kept.trans (unwritten_of_runOn_execute ran)

/-- A call that ends with a fault, or in the failure of a consideration, makes no write and changes
no object. Else it makes one signed write for each consideration that passed. -/
theorem handle_effects (e : Engine MemoryStore γ) (orders : MapOrders) (caller : Caller)
    (envelope : Envelope) (scope : Option ScopeState) (extra : List PublicKey) :
    match e.handle orders caller envelope scope extra with
    | (.error _, e') => e.store.Unwritten e'.store
    | (.ok out, e') => ∃ c c', envelope.contract = some c ∧ out.contract = some c' ∧
        (turned .fail c c' ≠ [] → e.store.Unwritten e'.store) ∧
        (turned .fail c c' = [] →
          ∃ outputs, Recorded caller extra c c' outputs e.store e'.store) := by
  rcases handled : e.handle orders caller envelope scope extra with ⟨answer, e'⟩
  cases answer with
  | error f => exact unwritten_of_handle_eq_error handled
  | ok out =>
    obtain ⟨c, p, store, c', w, submitted, plans, ran, rfl, rfl⟩ := handle_eq_ok_iff.mp handled
    obtain rfl := contract_of_planned plans
    have planned : e.store.Unwritten store := by
      have kept := e.unwritten_planned caller p.contract
      rw [plans] at kept
      exact kept
    refine ⟨p.contract, c', submitted, rfl, ?_⟩
    rcases executed_effects planned ran with ⟨failed, kept⟩ | ⟨unfailed, recorded⟩
    · exact ⟨fun _ => kept, fun unfailed => absurd unfailed failed⟩
    · exact ⟨fun failed => absurd unfailed failed, fun _ => recorded⟩

end Notary.Engine
