/-
What is loaded for a contract.

The inputs that point at content are located, fetched side by side, and put together again by their
names. On this way nothing is lost, nothing comes twice and nothing changes its place: a name has a
record when it has an input with content, and the record holds what was fetched for all of them. Who
checks the facts of a contract asks for the same content, so every fact that he accepts is loaded.

* `Fetching`, `failsBy_fetchAll` — the faults of fetching, none of which is about names.
* `Malformed`, `locateInputs_of_malformed` — the first hash that is none stops everything.
* `RecordPool.Ascending`, `exists_groupByName` — records can always be put together by name.
* `Decodes`, `forall₂_messagesOf` — the messages of a name are those of its inputs, in order.
* `Loaded`, `inputs_loaded` — all of it together.
-/

import Notary.Proofs.Engine.Arguments

namespace Notary.Engine

open Notary.Contract

/-! ### Faults of fetching -/

/-- What may go wrong when a record is fetched and read. -/
inductive Fetching : Fault → Prop where
  | store (fault : Store.Fault) : Fetching (.store fault)
  | context (fault : Context.Fault) : Fetching (.context fault)
  | unknownRecordType (name : String) : Fetching (.definition (.unknownRecordType name))
  | notAMessageType (name : String) : Fetching (.definition (.notAMessageType name))
  | invalidRecord (hash : Hash) (classname : String) (fault : Wire.Fault) :
    Fetching (.definition (.invalidRecord hash classname fault))

namespace Action

variable {σ α β : Type} {faults : Fault → Prop}

/-- The step fails in these ways only. -/
def FailsBy (faults : Fault → Prop) (act : Action σ α) : Prop :=
  ∀ w e, (act.runOn w).1 = .error e → faults e

namespace FailsBy

theorem mono {faults' : Fault → Prop} {act : Action σ α} (fails : FailsBy faults act)
    (wider : ∀ e, faults e → faults' e) : FailsBy faults' act :=
  fun w e failed => wider e (fails w e failed)

theorem ofExcept {r : Except Fault α} (allowed : ∀ e, r = .error e → faults e) :
    FailsBy faults (ofExcept r : Action σ α) := fun _ e failed => allowed e failed

protected theorem pure (a : α) : FailsBy faults (pure a : Action σ α) := by
  intro w e failed
  cases failed

protected theorem throw {fault : Fault} (allowed : faults fault) :
    FailsBy faults (throw fault : Action σ α) := by
  intro w e failed
  cases failed
  exact allowed

theorem bind {act : Action σ α} {next : α → Action σ β} (first : FailsBy faults act)
    (later : ∀ a, FailsBy faults (next a)) : FailsBy faults (act >>= next) := by
  intro w e failed
  have here := first w
  rw [runOn_bind] at failed
  generalize act.runOn w = ran at failed here
  obtain ⟨answer, w'⟩ := ran
  cases answer with
  | error e' =>
    cases failed
    exact here e rfl
  | ok a => exact later a w' e failed

/-- The first failure on the pool is that of one of the steps. -/
theorem all {steps : List (Action σ α)} (each : ∀ step ∈ steps, FailsBy faults step) :
    FailsBy faults (all steps) := by
  induction steps with
  | nil => exact .pure []
  | cons step rest ih =>
    rw [List.forall_mem_cons] at each
    intro w e failed
    simp only [runOn_all, List.map_cons, Pool.runAll, Pool.runEach] at failed
    have here := each.1 w
    generalize step.runOn w = ran at failed here
    obtain ⟨answer, w'⟩ := ran
    cases answer with
    | error e' =>
      cases failed
      exact here e rfl
    | ok a =>
      have later := ih each.2 w' e
      simp only [runOn_all, Pool.runAll] at later
      cases gathered : Pool.inOrder (Pool.runEach (rest.map runOn) w').1 with
      | ok as =>
        simp [Pool.inOrder, gathered] at failed
      | error e' =>
        simp only [Pool.inOrder, gathered] at failed
        cases failed
        exact later gathered

end FailsBy

end Action

section Store

variable {σ : Type} {s : Context.Surroundings} {reader : PublicKey}

theorem failsBy_messageType (name : String) :
    Action.FailsBy Fetching (messageType s name : Action σ _) := by
  refine .bind (fun w e failed => by cases failed) ?_
  intro found
  cases found with
  | error e => cases e <;> first | exact .throw (.unknownRecordType _) | exact .throw (.context _)
  | ok r =>
    cases target : r.target with
    | module code => simpa [target] using .throw (.notAMessageType _)
    | message pool type => simpa [target] using .pure _

variable [Store.ObjectStore σ]

theorem failsBy_fetchRecord (l : Located) :
    Action.FailsBy Fetching (fetchRecord s reader l : Action σ _) := by
  refine .bind (.bind (fun w e failed => by cases failed) ?_) ?_
  · intro found
    cases found with
    | error e => exact .throw (.store e)
    | ok bytes => exact .pure bytes
  · intro bytes
    refine (failsBy_messageType l.classname).bind ?_
    rintro ⟨pool, type⟩
    cases read : pool.decode type bytes with
    | error c => simpa [read] using .throw (.invalidRecord _ _ _)
    | ok m => simpa [read] using .pure m

theorem failsBy_fetchAll (ls : List Located) :
    Action.FailsBy Fetching (fetchAll s reader ls : Action σ _) := by
  refine .bind (.all ?_) fun messages => .pure _
  intro step member
  obtain ⟨l, -, rfl⟩ := List.mem_map.mp member
  exact failsBy_fetchRecord l

end Store

/-! ### Malformed hashes -/

/-- What stands in the hash field is not empty and no hash. -/
def Malformed (input : Record) : Prop :=
  hashField input ≠ [] ∧ (hashField input).length ≠ 32

theorem locateInput_of_malformed {input : Record} (malformed : Malformed input) :
    locateInput input =
      .error (.definition (.malformedHash input.name (hashField input).length)) := by
  have filled : (hashField input).isEmpty = false := by simpa using malformed.1
  have none : FixedBytes.ofBytes? 32 (hashField input) = none := dif_neg malformed.2
  rw [locateInput, ← hashField, contentReference, filled, none]
  rfl

theorem isSome_contentHash? {input : Record} (fits : ¬ Malformed input)
    (content : input.hasContent = true) : input.contentHash?.isSome := by
  have filled := hasContent_iff_hashField.mp content
  have length : (hashField input).length = 32 := by
    by_contra other
    exact fits ⟨filled, other⟩
  rw [contentHash?_eq_ofField?, Hash.ofField?, if_neg (by simpa using filled), FixedBytes.ofBytes?,
    dif_pos length]
  rfl

/-- The first of several results that is none counts. -/
theorem mapM_append_cons_of_error {α β : Type} {f : α → Except Fault β} {before after : List α}
    {a : α} {e : Fault} (well : ∀ x ∈ before, ∃ b, f x = .ok b) (fails : f a = .error e) :
    (before ++ a :: after).mapM f = .error e := by
  induction before with
  | nil => simp [fails, bind, Except.bind]
  | cons x rest ih =>
    rw [List.forall_mem_cons] at well
    obtain ⟨⟨b, here⟩, well⟩ := well
    simp [here, ih well, bind, Except.bind]

/-- The first malformed hash is told. -/
theorem locateInputs_of_malformed {before after : List Record} {input : Record}
    (fit : ∀ earlier ∈ before, ¬ Malformed earlier) (malformed : Malformed input) :
    locateInputs (before ++ input :: after) =
      .error (.definition (.malformedHash input.name (hashField input).length)) := by
  rw [locateInputs, mapM_append_cons_of_error (fun earlier member =>
    ⟨_, locateInput_eq_ok_iff.mpr ⟨isSome_contentHash? (fit earlier member), rfl⟩⟩)
    (locateInput_of_malformed malformed)]
  rfl

instance (input : Record) : Decidable (Malformed input) := inferInstanceAs (Decidable (_ ∧ _))

/-- Inputs of which one is malformed have a first one that is. -/
theorem exists_first_malformed {inputs : List Record} (some : ∃ input ∈ inputs, Malformed input) :
    ∃ before input after, inputs = before ++ input :: after ∧
      (∀ earlier ∈ before, ¬ Malformed earlier) ∧ Malformed input := by
  have found : (inputs.find? fun input => Malformed input).isSome := by simpa using some
  obtain ⟨input, found⟩ := Option.isSome_iff_exists.mp found
  obtain ⟨malformed, before, after, split, fit⟩ := List.find?_eq_some_iff_append.mp found
  exact ⟨before, input, after, split, by simpa using fit, of_decide_eq_true malformed⟩

/-- Nothing but a malformed hash keeps inputs from being located. -/
theorem locateInputs_eq_error {inputs : List Record} {e : Fault}
    (fails : locateInputs inputs = .error e) :
    ∃ name length, e = .definition (.malformedHash name length) := by
  by_cases some : ∃ input ∈ inputs, Malformed input
  · obtain ⟨before, input, after, rfl, fit, malformed⟩ := exists_first_malformed some
    rw [locateInputs_of_malformed fit malformed] at fails
    cases fails
    exact ⟨_, _, rfl⟩
  · have located := locateInputs_eq_ok_iff.mpr
      ⟨fun r member => isSome_contentHash? fun malformed => some ⟨r, member, malformed⟩, rfl⟩
    rw [located] at fails
    cases fails

/-! ### Records by name -/

namespace RecordPool

/-- The names of the records rise, so no name stands there twice. -/
def Ascending (p : RecordPool) : Prop := (p.map (·.name)).Pairwise (· < ·)

theorem perm_place (p : RecordPool) (r : LoadedRecord) : (p.place r).Perm (r :: p) := by
  induction p with
  | nil => exact .refl _
  | cons q rest ih =>
    unfold place
    split
    · exact .refl _
    · exact (ih.cons q).trans (.swap r q rest)

theorem ascending_place {p : RecordPool} {r : LoadedRecord} (ascending : p.Ascending)
    (new : r.name ∉ p.map (·.name)) : (p.place r).Ascending := by
  induction p with
  | nil => exact List.pairwise_singleton _ _
  | cons q rest ih =>
    obtain ⟨above, ascending'⟩ := List.pairwise_cons.mp ascending
    rw [List.map_cons, List.mem_cons, not_or] at new
    unfold place
    split
    · rename_i below
      refine List.pairwise_cons.mpr ⟨?_, ascending⟩
      intro name member
      rcases List.mem_cons.mp member with rfl | member
      · exact below
      · exact String.lt_trans below (above name member)
    · rename_i notBelow
      refine List.pairwise_cons.mpr ⟨?_, ih ascending' new.2⟩
      intro name member
      rw [((perm_place rest r).map _).mem_iff, List.map_cons, List.mem_cons] at member
      rcases member with rfl | member
      · by_contra notAbove
        exact new.1 (String.le_antisymm (String.not_lt.mp notAbove) (String.not_lt.mp notBelow))
      · exact above name member

/-- The record of a name is the only one that has it. -/
theorem get?_of_mem {p : RecordPool} {r : LoadedRecord} (ascending : p.Ascending) (member : r ∈ p) :
    p.get? r.name = some r := by
  induction p with
  | nil => simp at member
  | cons q rest ih =>
    obtain ⟨above, ascending'⟩ := List.pairwise_cons.mp ascending
    rw [get?_cons]
    rcases List.mem_cons.mp member with rfl | member
    · rw [if_pos rfl]
    · have other : q.name ≠ r.name := fun same =>
        String.lt_irrefl _ (same ▸ above r.name (List.mem_map_of_mem member))
      rw [if_neg other, ih ascending' member]

/-- Records of different names can all be put into a pool that has none of the names. -/
theorem exists_of_foldlM {make : String → Except Fault LoadedRecord} {names : List String}
    {p : RecordPool} (ascending : p.Ascending) (nodup : names.Nodup)
    (makes : ∀ name ∈ names, ∃ r, make name = .ok r ∧ r.name = name)
    (new : ∀ name ∈ names, name ∉ p.map (·.name)) :
    ∃ q, names.foldlM (fun (p : RecordPool) name => make name >>= p.insert) p = .ok q ∧
      q.Ascending ∧ ∀ name, name ∈ q.map (·.name) ↔ name ∈ names ∨ name ∈ p.map (·.name) := by
  induction names generalizing p with
  | nil => exact ⟨p, rfl, ascending, by simp⟩
  | cons name rest ih =>
    rw [List.forall_mem_cons] at makes new
    obtain ⟨away, nodup'⟩ := List.nodup_cons.mp nodup
    obtain ⟨⟨r, made, rfl⟩, makes⟩ := makes
    have names : ∀ name, name ∈ (p.place r).map (·.name) ↔
        name = r.name ∨ name ∈ p.map (·.name) := by
      intro name
      rw [((perm_place p r).map _).mem_iff, List.map_cons, List.mem_cons]
    have inserted : p.insert r = .ok (p.place r) := by
      refine insert_eq_ok_iff.mpr ⟨?_, rfl⟩
      simpa [get?] using new.1
    obtain ⟨q, built, ascending, all⟩ := ih (ascending_place ascending new.1) nodup' makes
      (fun other member => by
        rw [names, not_or]
        exact ⟨fun same => away (same ▸ member), new.2 other member⟩)
    refine ⟨q, ?_, ascending, ?_⟩
    · rw [List.foldlM_cons, made]
      change (p.insert r >>= _) = _
      rw [inserted]
      exact built
    · intro name
      rw [all, names, List.mem_cons]
      tauto

end RecordPool

/-- Messages that share a name are a record: one of them as it is, several as a collection. -/
theorem exists_ofMessages {name : String} {ms : List Schema.Message} (some : ms ≠ []) :
    ∃ r, LoadedRecord.ofMessages name ms = .ok r ∧ r.name = name := by
  match ms, some with
  | [m], _ => exact ⟨_, rfl, rfl⟩
  | m :: m' :: rest, _ => exact ⟨_, rfl, rfl⟩

theorem value_of_ofMessages {name : String} {ms : List Schema.Message} {r : LoadedRecord}
    (made : LoadedRecord.ofMessages name ms = .ok r) :
    (∃ m, ms = [m] ∧ r.value = .single m) ∨ (2 ≤ ms.length ∧ r.value = .collection ms) := by
  match ms, made with
  | [m], made =>
    cases made
    exact .inl ⟨m, rfl, rfl⟩
  | m :: m' :: rest, made =>
    cases made
    exact .inr ⟨by simp, rfl⟩

/-- Named messages can always be put together by name, and no name is lost. -/
theorem exists_groupByName (named : List (String × Schema.Message)) :
    ∃ pool, groupByName named = .ok pool ∧ pool.Ascending ∧
      ∀ name, name ∈ pool.map (·.name) ↔ name ∈ named.map (·.1) := by
  have makes : ∀ name ∈ sorted (named.map (·.1)).eraseDups,
      ∃ r, LoadedRecord.ofMessages name (messagesOf name named) = .ok r ∧ r.name = name := by
    intro name member
    rw [mem_sorted_iff, List.mem_eraseDups, List.mem_map] at member
    obtain ⟨⟨_, m⟩, member, rfl⟩ := member
    exact exists_ofMessages (List.ne_nil_of_mem (mem_messagesOf_iff.mpr member))
  obtain ⟨pool, built, ascending, names⟩ := RecordPool.exists_of_foldlM (p := [])
    List.Pairwise.nil (nodup_sorted_eraseDups _) makes (by simp)
  refine ⟨pool, built, ascending, ?_⟩
  intro name
  rw [names, mem_sorted_iff, List.mem_eraseDups]
  simp

/-! ### Messages of inputs -/

section Store

variable {σ : Type} [Store.ObjectStore σ] {s : Context.Surroundings} {reader : PublicKey}
  {w w' : Workspace σ} {inputs : List Record}

/-- The message is what the store gives the reader for the hash of the input, as the type that the
class name of the input stands for. -/
def Decodes (s : Context.Surroundings) (reader : PublicKey) (w : Workspace σ) (input : Record)
    (m : Schema.Message) : Prop :=
  ∃ (hash : Hash) (u : Workspace σ) (bytes : Bytes) (resolved : Symbol.Resolved)
    (pool : Schema.Pool) (type : Schema.MessageType),
    hash.toList = hashField input ∧ Reached s reader w u ∧
      (Store.ObjectStore.getRecord input.classname hash reader u.store).1 = .ok bytes ∧
      w.context.answer s input.classname = .ok resolved ∧
      resolved.target = .message pool type ∧ pool.decode type bytes = .ok m

theorem decodes_of_fetches {input : Record} {hash : Hash} {m : Schema.Message}
    (hashed : input.contentHash? = some hash)
    (fetches : Fetches s reader w ⟨input.name, input.classname, hash⟩ m) :
    Decodes s reader w input m := by
  obtain ⟨u, bytes, resolved, pool, type, there⟩ := fetches.exists_decoded
  rw [contentHash?_eq_ofField?, ofField?_eq_some_iff] at hashed
  exact ⟨hash, u, bytes, resolved, pool, type, hashed, there⟩

/-- The inputs of a name that have something in their hash fields. -/
def inputsOf (name : String) (inputs : List Record) : List Record :=
  inputs.filter fun input => hashField input ≠ [] ∧ input.name = name

/-- The messages of a name are those of its inputs, in their order. -/
theorem forall₂_messagesOf {named : List (String × Schema.Message)}
    (fits : ∀ r ∈ inputs, r.hasContent = true → r.contentHash?.isSome)
    (each : List.Forall₂ (fun l nm => nm.1 = l.name ∧ Fetches s reader w l nm.2)
      (inputs.filterMap Located.ofInput?) named) (name : String) :
    List.Forall₂ (Decodes s reader w) (inputsOf name inputs) (messagesOf name named) := by
  induction inputs generalizing named with
  | nil =>
    cases each
    exact .nil
  | cons input rest ih =>
    rw [List.forall_mem_cons] at fits
    by_cases content : input.hasContent = true
    · obtain ⟨hash, hashed⟩ := Option.isSome_iff_exists.mp (fits.1 content)
      have located : Located.ofInput? input = some ⟨input.name, input.classname, hash⟩ := by
        rw [Located.ofInput?, hashed, Option.map_some]
      rw [List.filterMap_cons_some located] at each
      obtain ⟨⟨name', m⟩, named, ⟨rfl, fetches⟩, later, rfl⟩ := List.forall₂_cons_left_iff.mp each
      have filled := hasContent_iff_hashField.mp content
      by_cases same : input.name = name
      · rw [inputsOf, List.filter_cons_of_pos (by simp [filled, same]), messagesOf,
          List.filter_cons_of_pos (by simp [same])]
        exact .cons (decodes_of_fetches hashed fetches) (ih fits.2 later)
      · rw [inputsOf, List.filter_cons_of_neg (by simp [same]), messagesOf,
          List.filter_cons_of_neg (by simp [same])]
        exact ih fits.2 later
    · -- What has no content is neither fetched nor asked for.
      have empty : hashField input = [] := by
        rwa [hasContent_iff_hashField, not_not] at content
      have nowhere : Located.ofInput? input = none := by
        rw [Located.ofInput?, contentHash?_eq_ofField?, empty]
        rfl
      rw [List.filterMap_cons_none nowhere] at each
      rw [inputsOf, List.filter_cons_of_neg (by simp [empty])]
      exact ih fits.2 each

/-- What was fetched has the names of the inputs with content. -/
theorem mem_names_iff {named : List (String × Schema.Message)}
    (fits : ∀ r ∈ inputs, r.hasContent = true → r.contentHash?.isSome)
    (each : List.Forall₂ (fun l nm => nm.1 = l.name ∧ Fetches s reader w l nm.2)
      (inputs.filterMap Located.ofInput?) named) (name : String) :
    name ∈ named.map (·.1) ↔ ∃ input ∈ inputs, input.name = name ∧ hashField input ≠ [] := by
  have messages := forall₂_messagesOf fits each name
  have none_named : messagesOf name named = [] ↔ name ∉ named.map (·.1) := by
    simp [List.eq_nil_iff_forall_not_mem, mem_messagesOf_iff]
  have no_input : inputsOf name inputs = [] ↔
      ¬ ∃ input ∈ inputs, input.name = name ∧ hashField input ≠ [] := by
    simp [List.eq_nil_iff_forall_not_mem, inputsOf, imp_not_comm]
  rw [← not_iff_not, ← none_named, ← no_input, ← List.length_eq_zero_iff,
    ← List.length_eq_zero_iff, messages.length_eq]

/-! ### Loaded inputs -/

/-- These records are all that the inputs of a contract point at. -/
structure Loaded (s : Context.Surroundings) (reader : PublicKey) (w : Workspace σ)
    (inputs : List Record) (existing : RecordPool) : Prop where
  ascending : existing.Ascending
  mem_names_iff : ∀ name, name ∈ existing.map (·.name) ↔
    ∃ input ∈ inputs, input.name = name ∧ hashField input ≠ []
  /-- A record holds the messages of all inputs of its name in order, a single one as it is. -/
  messages : ∀ r ∈ existing, ∃ ms,
    List.Forall₂ (Decodes s reader w) (inputsOf r.name inputs) ms ∧
      ((∃ m, ms = [m] ∧ r.value = .single m) ∨ (2 ≤ ms.length ∧ r.value = .collection ms))
  /-- Who checked the facts of a contract with these inputs finds all of them. -/
  facts : ∀ (c : Contract) (spec : ContractSpecification), c.inputs = inputs →
    factsSupplied c spec = .ok () → ∀ i ∈ spec.inputSpecs, i.name ∈ existing.map (·.name)

theorem loaded_of_runOn_loadExisting {existing : RecordPool}
    (loads : (loadExisting s reader inputs).runOn w = (.ok existing, w')) :
    Loaded s reader w inputs existing := by
  obtain ⟨fits, named, each, grouped⟩ := exists_of_runOn_loadExisting loads
  obtain ⟨pool, built, ascending, names⟩ := exists_groupByName named
  obtain rfl : existing = pool := Except.ok.inj (grouped.symm.trans built)
  have loaded : ∀ name, name ∈ existing.map (·.name) ↔
      ∃ input ∈ inputs, input.name = name ∧ hashField input ≠ [] :=
    fun name => (names name).trans (mem_names_iff fits each name)
  refine ⟨ascending, loaded, ?_, ?_⟩
  · intro r member
    have made := (get?_groupByName built r.name r).mp (RecordPool.get?_of_mem ascending member)
    exact ⟨_, forall₂_messagesOf fits each r.name, value_of_ofMessages made⟩
  · rintro c spec rfl accepted i wanted
    obtain ⟨input, member, named, content⟩ := supplied_of_factsSupplied accepted i wanted
    rw [loaded]
    exact ⟨input, member, named, hasContent_iff_hashField.mp (hasContent_iff.mpr content)⟩

/-- Loading fails for a malformed hash, or in one of the ways in which fetching does. -/
theorem failsBy_loadExisting :
    Action.FailsBy
      (fun e => (∃ name length, e = .definition (.malformedHash name length)) ∨ Fetching e)
      (loadExisting s reader inputs : Action σ _) := by
  refine .bind (.ofExcept fun e fails => .inl (locateInputs_eq_error fails)) ?_
  intro ls
  refine .bind ((failsBy_fetchAll ls).mono fun e => .inr) ?_
  intro named
  obtain ⟨pool, grouped, -⟩ := exists_groupByName named
  exact .ofExcept fun e fails => by simp [grouped] at fails

/-- What is loaded is all that the inputs point at. Names are no reason to fail, and where a hash is
malformed, the first one is told and nothing is fetched. -/
theorem inputs_loaded (s : Context.Surroundings) (reader : PublicKey) (w : Workspace σ)
    (inputs : List Record) :
    (∀ existing w', (loadExisting s reader inputs).runOn w = (.ok existing, w') →
        Loaded s reader w inputs existing) ∧
      (∀ name, ((loadExisting s reader inputs).runOn w).1 ≠
          .error (.definition (.duplicateRecord name)) ∧
        ((loadExisting s reader inputs).runOn w).1 ≠ .error (.definition (.noValues name))) ∧
      ((∃ input ∈ inputs, Malformed input) →
        ∃ before input after, inputs = before ++ input :: after ∧
          (∀ earlier ∈ before, ¬ Malformed earlier) ∧ Malformed input ∧
          (loadExisting s reader inputs).runOn w =
            (.error (.definition (.malformedHash input.name (hashField input).length)), w)) := by
  refine ⟨?_, ?_, ?_⟩
  · intro existing w' loads
    exact loaded_of_runOn_loadExisting loads
  · intro name
    cases failed : ((loadExisting s reader inputs).runOn w).1 with
    | ok existing => simp
    | error e =>
      rcases failsBy_loadExisting w e failed with ⟨name', length, rfl⟩ | fetching
      · simp
      · cases fetching <;> simp
  · intro some
    obtain ⟨before, input, after, rfl, fit, malformed⟩ := exists_first_malformed some
    refine ⟨before, input, after, rfl, fit, malformed, ?_⟩
    rw [loadExisting, Action.runOn_bind, Action.runOn_ofExcept,
      locateInputs_of_malformed fit malformed]

end Store

open Holdings in
/-- A note and a deed of one name are loaded as a collection, and a hash of one byte is refused. -/
theorem note_and_deed_loaded :
    (∃ w, (loadExisting hosted .zero inputs).runOn holdings = (.ok existing, w)) ∧
      Loaded hosted .zero holdings inputs existing ∧
      (loadExisting hosted .zero [⟨"asset", some ⟨"Note", [1]⟩⟩]).runOn holdings =
        (.error (.definition (.malformedHash "asset" 1)), holdings) := by
  obtain ⟨w, _, loads, -⟩ := runOn_holdings
  refine ⟨⟨w, loads⟩, (inputs_loaded hosted .zero holdings inputs).1 existing w loads, ?_⟩
  obtain ⟨before, input, after, split, -, -, refused⟩ :=
    (inputs_loaded hosted .zero holdings [⟨"asset", some ⟨"Note", [1]⟩⟩]).2.2
      ⟨_, List.mem_singleton_self _, by simp [hashField], by simp [hashField]⟩
  cases before with
  | nil =>
    cases split
    exact refused
  | cons first rest => simp at split

end Notary.Engine
