/-
What comes of an execution.

An envelope that comes back has its contract with results for the considerations that were pending,
and nothing else about the contract has changed. Either all functions that can run did, and each
consideration tells of its own call, or one call failed: then only its consideration has a result,
and nothing was stored.

* `Stage` — what the calls of an execution have at hand.
* `Completed`, `Aborted` — the two outcomes.
* `handle_outcome` — an envelope that comes back has exactly one of them.
-/

import Notary.Guest.Instance
import Notary.Proofs.Engine.Bindings
import Notary.Proofs.Engine.Calls
import Notary.Proofs.Engine.Execution
import Notary.Proofs.Engine.Handle
import Notary.Proofs.Guest.Loading
import Notary.Proofs.Metadata.Described

namespace Notary.Engine

open Notary.Contract
open Notary.Metadata
open Notary.Store (MemoryStore)

/-- What there is before the first function is called: the archives of the definitions, the started
module with its description, and the records of the inputs. -/
structure Stage (γ : Type) where
  workspace : Workspace MemoryStore
  guest : γ
  metadata : ContractMetadata
  existing : RecordPool

/-- The stage of a plan that is executed on a workspace. -/
structure Stage.Of {γ : Type} (s : Context.Surroundings) (x : Guest.Executor γ) (reader : PublicKey)
    (p : Plan) (start : Workspace MemoryStore) (st : Stage γ) : Prop where
  module : ∃ code, (prepareModule s p reader).runOn start = (.ok code, st.workspace) ∧
    x.loadContract code = .ok (st.guest, st.metadata)
  inputs : (loadExisting s reader p.contract.inputs).Gives st.workspace st.existing

/-- The result of the consideration at an index. -/
def resultAt (c : Contract) (i : Nat) : Option ExecutionResult :=
  c.considerations[i]?.bind (·.result)

section Results

variable {γ : Type} (s : Context.Surroundings) (r : Runtime γ)

/-- The result is the record of the output of a function that was called behind others: the message
that the call gave, written with its maps in order. -/
def Passed (scope : Option ScopeState) (st : Stage γ) (before : List Binding) (b : Binding)
    (result : ExecutionResult) : Prop :=
  ∃ outputs g bytes g' type message,
    Calls s r st.workspace st.guest (before.map (·.prepared st.existing)) outputs g ∧
    (b.prepared st.existing).invoke r g = (.ok bytes, g') ∧
    Yields s st.workspace (b.prepared st.existing) bytes type message ∧
    result = .pass {
      name := b.function.name
      hash := (contentHash (message.ordered (r.orders (.output b.index)) []).bytes).toList
      classname := type.name
      ancestorHash := ancestor scope b.function.name }

/-- Every function that can run was called. -/
structure Completed (scope : Option ScopeState) (st : Stage γ) (bs : List Binding)
    (old new : Contract) : Prop where
  settled : ∀ i, PendingAt old i → ¬ PendingAt new i
  passed : ∀ before b after, bs.filter (·.Runs st.existing) = before ++ b :: after →
    ∃ result, resultAt new b.index = some result ∧ Passed s r scope st before b result
  skipped : ∀ b ∈ bs, ¬ b.Runs st.existing →
    resultAt new b.index = some (.skip b.function.name b.function.returnType)

/-- One call failed behind others that did not. Its consideration tells why, and the others are as
before, those of the calls in front of it too. -/
def Aborted (st : Stage γ) (bs : List Binding) (old new : Contract) : Prop :=
  ∃ before b after outputs g text, bs.filter (·.Runs st.existing) = before ++ b :: after ∧
    Calls s r st.workspace st.guest (before.map (·.prepared st.existing)) outputs g ∧
    Fails s r st.workspace g (b.prepared st.existing) text ∧
    resultAt new b.index = some (.fail text) ∧
    ∀ i : Nat, i ≠ b.index → new.considerations[i]? = old.considerations[i]?

end Results

/-! ### The considerations -/

section Bindings

variable {γ : Type} {s : Context.Surroundings} {r : Runtime γ} {scope : Option ScopeState}
  {st : Stage γ} {bs : List Binding} {old new : Contract}

theorem pendingAt_iff_of_places
    (places : bs.map (fun b => (b.consideration, b.index)) = pendingFrom 0 old.considerations)
    {i : Nat} : PendingAt old i ↔ ∃ b ∈ bs, b.index = i := by
  unfold PendingAt
  simp only [← exists_binding_iff_of_places places]
  grind

theorem nodup_index_of_places
    (places : bs.map (fun b => (b.consideration, b.index)) = pendingFrom 0 old.considerations) :
    (bs.map (·.index)).Nodup :=
  (pairwise_index_of_places places).imp Nat.ne_of_lt

/-- A consideration with a result of its own is pending no more. -/
theorem not_pendingAt {i : Nat} {r : ExecutionResult} (settled : resultAt new i = some r)
    (set : r.isUnset = false) : ¬ PendingAt new i := by
  rintro ⟨k, here, pending⟩
  have result : k.result = some r := by simpa [resultAt, here] using settled
  simp [Consideration.isPending, result, set] at pending

theorem resultAt_setResults {rs : List (Nat × ExecutionResult)} (distinct : (rs.map (·.1)).Nodup)
    {i : Nat} {r : ExecutionResult} (member : (i, r) ∈ rs) (pending : PendingAt old i) :
    resultAt (setResults old rs) i = some r := by
  obtain ⟨k, here, -⟩ := pending
  rw [resultAt, getElem?_setResults_of_mem old distinct member, here]
  rfl

/-- The results of the functions that were not called, and of those that were. -/
def allResults (scope : Option ScopeState) (st : Stage γ) (bs : List Binding)
    (outputs : List Output) : List (Nat × ExecutionResult) :=
  (((bs.filter (¬ ·.Runs st.existing)).map (·.prepared st.existing)).map fun p =>
      (p.index, .skip p.outputName p.function.returnType)) ++
    outputs.map fun o => (o.index, passResult scope o)

/-- The results are those of the pending considerations, one for each. -/
theorem perm_allResults {outputs : List Output}
    (called : outputs.map (·.index) = (bs.filter (·.Runs st.existing)).map (·.index)) :
    ((allResults scope st bs outputs).map (·.1)).Perm (bs.map (·.index)) := by
  have split : (allResults scope st bs outputs).map (·.1) =
      ((bs.filter (¬ ·.Runs st.existing)) ++ bs.filter (·.Runs st.existing)).map (·.index) := by
    rw [List.map_append, ← called, allResults, List.map_append, List.map_map, List.map_map,
      List.map_map]
    rfl
  rw [split]
  refine List.Perm.map _ (List.perm_append_comm.trans ?_)
  simpa using List.filter_append_perm (fun b : Binding => decide (b.Runs st.existing)) bs

/-- What is written of the outputs bears the indices of the functions that were called. -/
theorem Calls.index_ordered {g' : γ} {outputs : List Output}
    (calls : Calls s r st.workspace st.guest
      ((bs.filter (·.Runs st.existing)).map (·.prepared st.existing)) outputs g') :
    (outputs.map (·.ordered r.orders)).map (·.index) =
      (bs.filter (·.Runs st.existing)).map (·.index) := by
  have called := calls.index_outputs
  rw [List.map_map] at called ⊢
  exact called

/-- When all calls gave outputs, every pending consideration gets its result. -/
theorem completed_of_calls {g' : γ} {outputs written : List Output}
    (places : bs.map (fun b => (b.consideration, b.index)) = pendingFrom 0 old.considerations)
    (calls : Calls s r st.workspace st.guest
      ((bs.filter (·.Runs st.existing)).map (·.prepared st.existing)) outputs g')
    (ordered : written = outputs.map (·.ordered r.orders)) :
    ResultsOnly (PendingAt old) old (setResults old (allResults scope st bs written)) ∧
      Completed s r scope st bs old (setResults old (allResults scope st bs written)) := by
  have perm : ((allResults scope st bs written).map (·.1)).Perm (bs.map (·.index)) :=
    perm_allResults (ordered ▸ calls.index_ordered)
  have distinct := perm.nodup_iff.mpr (nodup_index_of_places places)
  have pending {b : Binding} (member : b ∈ bs) : PendingAt old b.index :=
    (pendingAt_iff_of_places places).mpr ⟨b, member, rfl⟩
  have skipped (b : Binding) (member : b ∈ bs) (rests : ¬ b.Runs st.existing) :
      resultAt (setResults old (allResults scope st bs written)) b.index =
        some (.skip b.function.name b.function.returnType) := by
    refine resultAt_setResults distinct ?_ (pending member)
    refine List.mem_append_left _ (List.mem_map.mpr ⟨b.prepared st.existing, ?_, rfl⟩)
    exact List.mem_map_of_mem (List.mem_filter.mpr ⟨member, by simpa using rests⟩)
  have passed (before : List Binding) (b : Binding) (after : List Binding)
      (split : bs.filter (·.Runs st.existing) = before ++ b :: after) :
      ∃ result, resultAt (setResults old (allResults scope st bs written)) b.index =
        some result ∧ Passed s r scope st before b result := by
    have member : b ∈ bs := by
      have : b ∈ bs.filter (·.Runs st.existing) := by simp [split]
      exact (List.mem_filter.mp this).1
    rw [split, List.map_append, List.map_cons] at calls
    obtain ⟨done, g₁, bytes, g₂, type, message, first, called, yields, output⟩ := calls.split
    have stored : (⟨b.index, b.function.name, message⟩ : Output).ordered r.orders ∈ written :=
      ordered ▸ List.mem_map_of_mem output
    refine ⟨_, resultAt_setResults distinct
      (List.mem_append_right _ (List.mem_map_of_mem stored)) (pending member),
      done, g₁, bytes, g₂, type, message, first, called, yields, ?_⟩
    simp only [passResult, Output.ordered, Schema.Message.type_ordered, yields.type_eq]
  refine ⟨resultsOnly_setResults old ?_, ?_, passed, skipped⟩
  · intro q member
    have key : q.1 ∈ bs.map (·.index) := perm.mem_iff.mp (List.mem_map_of_mem member)
    obtain ⟨b, member, same⟩ := List.mem_map.mp key
    exact same ▸ pending member
  · intro i isPending
    obtain ⟨b, member, rfl⟩ := (pendingAt_iff_of_places places).mp isPending
    by_cases runs : b.Runs st.existing
    · have among : b ∈ bs.filter (·.Runs st.existing) :=
        List.mem_filter.mpr ⟨member, by simpa using runs⟩
      obtain ⟨before, after, split⟩ := List.append_of_mem among
      obtain ⟨result, settled, _, _, _, _, _, _, -, -, -, rfl⟩ := passed before b after split
      exact not_pendingAt settled rfl
    · exact not_pendingAt (skipped b member runs) rfl

/-- When a call failed, its consideration alone gets a result. -/
theorem aborted_of_fails {before after : List Binding} {b : Binding} {outputs : List Output}
    {g : γ} {text : String}
    (places : bs.map (fun b => (b.consideration, b.index)) = pendingFrom 0 old.considerations)
    (split : bs.filter (·.Runs st.existing) = before ++ b :: after)
    (calls : Calls s r st.workspace st.guest (before.map (·.prepared st.existing)) outputs g)
    (fails : Fails s r st.workspace g (b.prepared st.existing) text) :
    ResultsOnly (PendingAt old) old (setResult old b.index (.fail text)) ∧
      Aborted s r st bs old (setResult old b.index (.fail text)) := by
  have member : b ∈ bs := by
    have : b ∈ bs.filter (·.Runs st.existing) := by simp [split]
    exact (List.mem_filter.mp this).1
  have pending : PendingAt old b.index :=
    (pendingAt_iff_of_places places).mpr ⟨b, member, rfl⟩
  refine ⟨resultsOnly_setResult old _ pending, before, b, after, outputs, g, text, split, calls,
    fails, ?_, ?_⟩
  · obtain ⟨k, here, -⟩ := pending
    rw [resultAt, getElem?_setResult, if_pos rfl, here]
    rfl
  · intro i other
    rw [getElem?_setResult, if_neg (Ne.symm other)]

/-- The consideration of a call that failed would have passed otherwise. -/
theorem not_completed_of_aborted (aborted : Aborted s r st bs old new) :
    ¬ Completed s r scope st bs old new := by
  intro completed
  obtain ⟨before, b, after, _, _, text, split, -, -, failed, -⟩ := aborted
  obtain ⟨r, settled, _, _, _, _, _, _, -, -, -, rfl⟩ := completed.passed before b after split
  rw [failed, Option.some.injEq] at settled
  have number : Outcome.fail.number = Outcome.pass.number :=
    congrArg ExecutionResult.result settled
  exact absurd number (by decide)

end Bindings

/-! ### Executions -/

variable {γ : Type}

/-- What the calls of an execution come to: the pending considerations are bound, and either all
functions that run are called, or the call for one of them fails. -/
theorem runContract_cases {s : Context.Surroundings} {r : Runtime γ} {reader : PublicKey}
    {p : Plan} {start w : Workspace MemoryStore} {skipped : List Prepared} {run : GuestRun}
    (ran : (runContract s r reader p).runOn start = (.ok (skipped, run), w)) :
    ∃ st bs, Stage.Of s r.sandbox reader p start st ∧
      bs.map (fun b => (b.consideration, b.index)) = pendingFrom 0 p.contract.considerations ∧
      Bound s reader st.metadata st.workspace bs ∧
      skipped = (bs.filter (¬ ·.Runs st.existing)).map (·.prepared st.existing) ∧
      ((∃ outputs g', run = .finished outputs ∧ Calls s r st.workspace st.guest
          ((bs.filter (·.Runs st.existing)).map (·.prepared st.existing)) outputs g') ∨
        ∃ before b after outputs g text, run = .failed b.index text ∧
          bs.filter (·.Runs st.existing) = before ++ b :: after ∧
          Calls s r st.workspace st.guest (before.map (·.prepared st.existing)) outputs g ∧
          Fails s r st.workspace g (b.prepared st.existing) text) := by
  obtain ⟨code, w, prepares, ran⟩ := Action.runOn_bind_eq_ok_iff.mp ran
  unfold runFunctions at ran
  cases loads : r.sandbox.loadContract code with
  | error e =>
    rw [loads] at ran
    cases ran
  | ok started =>
    obtain ⟨g, m⟩ := started
    rw [loads] at ran
    obtain ⟨existing, w₁, loaded, ran⟩ := Action.runOn_bind_eq_ok_iff.mp ran
    obtain ⟨inputs, alike₁⟩ :=
      (looks_loadExisting _).steady.gives_of_runOn ((Action.Frame.alike s).refl w) loaded
    obtain ⟨parts, w₂, split, ran⟩ := Action.runOn_bind_eq_ok_iff.mp ran
    obtain ⟨splits, alike₂⟩ :=
      (looks_partitionFrom m existing _ 0).steady.gives_of_runOn alike₁ split
    obtain ⟨run, w₃, called, answered⟩ := Action.runOn_bind_eq_ok_iff.mp ran
    cases answered
    obtain ⟨calls, -⟩ := (names_runGuest r m _ g).steady.gives_of_runOn alike₂ called
    obtain ⟨bs, places, bound, executable, skipped⟩ := gives_partitionFrom splits
    refine ⟨⟨w, g, m, existing⟩, bs, ⟨⟨code, prepares, loads⟩, inputs⟩, places, bound, skipped, ?_⟩
    rw [executable] at calls
    cases run with
    | finished outputs =>
      obtain ⟨g', calls⟩ := gives_runGuest calls
      exact .inl ⟨outputs, g', rfl, calls⟩
    | failed index text =>
      obtain ⟨done, q, rest, outputs, g', split, rfl, made, fails⟩ := gives_runGuest calls
      obtain ⟨before, later, runs, rfl, queue⟩ := List.map_eq_append_iff.mp split
      obtain ⟨b, after, rfl, rfl, rfl⟩ := List.map_eq_cons_iff.mp queue
      exact .inr ⟨before, b, after, outputs, g', text, rfl, runs, made, fails⟩

/-- How an execution that ends well goes: the pending considerations are bound, and either all
functions that run are called and their outputs recorded, or a call fails and nothing is stored. -/
theorem executed_cases {s : Context.Surroundings} {r : Runtime γ} {caller : Caller}
    {scope : Option ScopeState} {extra : List PublicKey} {p : Plan} {c' : Contract}
    {start w' : Workspace MemoryStore}
    (ran : (execute s r caller scope extra p).runOn start = (.ok c', w')) :
    ∃ st bs, Stage.Of s r.sandbox caller.encryption.publicKey p start st ∧
      bs.map (fun b => (b.consideration, b.index)) = pendingFrom 0 p.contract.considerations ∧
      Bound s caller.encryption.publicKey st.metadata st.workspace bs ∧
      ((∃ outputs g', Calls s r st.workspace st.guest
          ((bs.filter (·.Runs st.existing)).map (·.prepared st.existing)) outputs g' ∧
          c' = setResults p.contract
            (allResults scope st bs (outputs.map (·.ordered r.orders)))) ∨
        ∃ before b after outputs g text, bs.filter (·.Runs st.existing) = before ++ b :: after ∧
          Calls s r st.workspace st.guest (before.map (·.prepared st.existing)) outputs g ∧
          Fails s r st.workspace g (b.prepared st.existing) text ∧
          c' = setResult p.contract b.index (.fail text) ∧
          w'.store.objects = start.store.objects) := by
  obtain ⟨skipped, run, w, performed, rfl, rfl⟩ := runOn_execute_eq_ok_iff.mp ran
  obtain ⟨st, bs, stage, places, bound, rfl, outcome⟩ := runContract_cases performed
  refine ⟨st, bs, stage, places, bound, ?_⟩
  rcases outcome with ⟨outputs, g', rfl, calls⟩ |
    ⟨before, b, after, outputs, g, text, rfl, split, calls, fails⟩
  · exact .inl ⟨outputs, g', calls, rfl⟩
  · have kept := unwritten_of_runContract performed
    exact .inr ⟨before, b, after, outputs, g, text, split, calls, fails, rfl, kept.objects⟩

/-- An envelope that comes back is the one that was submitted, but for its signatures and its
contract. The contract has other results for considerations that were pending at most. Its pending
considerations were bound to functions. Either all of them have a result now: those whose function
could run tell of the output of their own call, the others are skipped. Or the call for one of them
failed, which is told there; then all others are as they were, and nothing was stored. Never
both. -/
theorem handle_outcome {e e' : Engine MemoryStore γ} {orders : MapOrders} {caller : Caller}
    {envelope out : Envelope} {scope : Option ScopeState} {extra : List PublicKey}
    (handled : e.handle orders caller envelope scope extra = (.ok out, e')) :
    ∃ c c' p store st bs, envelope.contract = some c ∧ out.contract = some c' ∧
      out = { envelope with contract := out.contract, signatures := out.signatures } ∧
      e.planned caller c = (.ok p, store) ∧
      Stage.Of e.surroundings e.sandbox caller.encryption.publicKey p (e.workspace store p.key)
        st ∧
      bs.map (fun b => (b.consideration, b.index)) = pendingFrom 0 c.considerations ∧
      Bound e.surroundings caller.encryption.publicKey st.metadata st.workspace bs ∧
      ResultsOnly (PendingAt c) c c' ∧
      (Completed e.surroundings (e.runtime orders) scope st bs c c' ∨
        Aborted e.surroundings (e.runtime orders) st bs c c' ∧
          e'.store.objects = e.store.objects) ∧
      ¬ (Completed e.surroundings (e.runtime orders) scope st bs c c' ∧
          Aborted e.surroundings (e.runtime orders) st bs c c') := by
  obtain ⟨c, p, store, c', w, submitted, plans, ran, rfl, rfl⟩ := handle_eq_ok_iff.mp handled
  obtain rfl := contract_of_planned plans
  have same : store.objects = e.store.objects := by
    have kept := e.objects_planned caller p.contract
    rw [plans] at kept
    exact kept
  obtain ⟨st, bs, stage, places, bound, outcome⟩ := executed_cases ran
  refine ⟨p.contract, c', p, store, st, bs, submitted, rfl, rfl, plans, stage, places, bound, ?_⟩
  have either : ResultsOnly (PendingAt p.contract) p.contract c' ∧
      (Completed e.surroundings (e.runtime orders) scope st bs p.contract c' ∨
        Aborted e.surroundings (e.runtime orders) st bs p.contract c' ∧
          w.store.objects = e.store.objects) := by
    rcases outcome with ⟨outputs, g', calls, rfl⟩ |
      ⟨before, b, after, outputs, g, text, split, calls, fails, rfl, kept⟩
    · obtain ⟨only, completed⟩ := completed_of_calls places calls rfl
      exact ⟨only, .inl completed⟩
    · obtain ⟨only, aborted⟩ := aborted_of_fails places split calls fails
      exact ⟨only, .inr ⟨aborted, kept.trans same⟩⟩
  refine ⟨either.1, either.2, ?_⟩
  rintro ⟨completed, aborted⟩
  exact not_completed_of_aborted aborted completed

/-! ### One execution -/

namespace Sample

/-- What the module says about itself: it has one function, without parameters. -/
def description : Description where
  scopeSpecificationUuids := []
  participants := []
  name := ""
  description := ""
  websiteUrl := ""
  iconUrl := ""
  functions := [⟨"f", "", "", [], "T", none⟩]

def document : Bytes := Bytes.ofText (String.ofList description.write)

/-- What the function gives: a message with a field that its type does not know. -/
def output : Bytes := [8, 1]

/-- What lies in the memory of the module. -/
def segment : Bytes := Guest.buffer document ++ Guest.buffer output

/-- A module whose entry point gives the address of the description, and whose function gives that
of the output. -/
def module : Guest.Module where
  types := [⟨[], [.i32]⟩]
  functionTypes := [0, 0]
  memories := [⟨1, none⟩]
  exports := [⟨Guest.memoryName, .memory, 0⟩, ⟨Guest.entryName, .function, 0⟩, ⟨"f", .function, 1⟩]
  bodies := [([], [.const32 0]), ([], [.const32 206])]
  data := [⟨some [.const32 0], segment⟩]

/-- The binary form of the module. -/
def code : Bytes :=
    [0, 97, 115, 109, 1, 0, 0, 0, 1, 5, 1, 96, 0, 1, 127, 3, 3, 2, 0, 0, 5, 3, 1, 0, 1, 7, 33,
     3, 6, 109, 101, 109, 111, 114, 121, 2, 0, 16, 95, 95, 112, 56, 101, 95, 101, 110, 116,
     114, 121, 112, 111, 105, 110, 116, 0, 0, 1, 102, 0, 1, 10, 12, 2, 4, 0, 65, 0, 11, 5, 0,
     65, 206, 1, 11, 11, 219, 1, 1, 0, 65, 0, 11, 212, 1]
    ++ segment

def memory : Guest.Memory := { pages := 1, limit := 65536 }

/-- The module when it is started. -/
def guest : Guest.Instance := ⟨module.functions, module.exports, ⟨memory.put 0 segment, []⟩⟩

def metadata : ContractMetadata := {
  description with
  index := ({} : Std.HashMap String Nat).insert "f" 0 }

set_option maxRecDepth 4096 in
theorem ofBytes?_code : Guest.Module.ofBytes? code = some module := by
  rfl

theorem length_document : document.length = 202 := by
  decide +kernel

theorem start_code : Guest.interpreter.start code = .ok guest := by
  have reads : Guest.interpreter.start = Guest.Instance.ofBytes := rfl
  have valid : module.isValid = true := rfl
  have length : segment.length = 212 := by
    simp [segment, Guest.buffer, Guest.lengthWidth, length_document, output]
  have put : module.data.foldlM Guest.Module.putSegment module.blankState.memory =
      some (memory.put 0 segment) := by
    change (memory.write? 0 segment >>= pure) = _
    rw [Guest.Memory.write?, if_pos (by rw [length]; decide)]
    rfl
  rw [reads, Guest.Instance.ofBytes]
  simp only [ofBytes?_code, valid, put]
  rfl

theorem readBuffer_description : Guest.interpreter.readBuffer guest 0 = .ok document := by
  have exported : Guest.interpreter.memory? guest =
      some (memory.put 0 ([] ++ (Guest.buffer document ++ Guest.buffer output))) := rfl
  have short : document.length < 2 ^ 32 := by simp [length_document]
  refine Guest.Executor.readBuffer_of_put exported ?_ short rfl
  simp [Guest.buffer, Guest.lengthWidth, length_document, output, memory, Guest.Memory.size,
    Guest.Memory.pageSize]

theorem readBuffer_output : Guest.interpreter.readBuffer guest 206 = .ok output := by
  have exported : Guest.interpreter.memory? guest =
      some (memory.put 0 (Guest.buffer document ++ (Guest.buffer output ++ []))) := by
    rw [List.append_nil]
    rfl
  refine Guest.Executor.readBuffer_of_put exported ?_ (by decide) ?_
  · simp [Guest.buffer, Guest.lengthWidth, length_document, output, memory, Guest.Memory.size,
      Guest.Memory.pageSize]
  · simp [Guest.buffer, Guest.lengthWidth, length_document]

theorem parse_document : ContractMetadata.parse document = .ok metadata := by
  have indexed : ContractMetadata.ofDescription description = .ok metadata := by
    simp [ContractMetadata.ofDescription, description, indexFunctions, Except.map, metadata]
  exact ContractMetadata.parse_write_of_ok indexed

theorem loadContract_code : Guest.interpreter.loadContract code = .ok (guest, metadata) :=
  Guest.Executor.loadContract_eq start_code (Guest.Executor.call_eq rfl readBuffer_description)
    parse_document

/-- The type of the output. -/
def type : Schema.MessageType := ⟨"T", [], false, {}⟩

/-- The pool of a file that declares the type. -/
def pool : Schema.Pool where
  files := [⟨"t", []⟩]
  definitions := [⟨"T", .message, "t"⟩]
  types := [type]

/-- The host has the module, and the type of its output. -/
def hosted : Context.Surroundings := { host := { modules := [("m", code)], pool } }

def specification : ContractSpecification := {
  definition := some { resourceLocation := some { classname := "m" } }
  functionSpecs := [{}] }

/-- A contract of the specification, with one consideration. -/
def contract : Contract := {
  spec := some (.new "spec" (.new "ContractSpecification"
    (contentHash (Wire.encode specification))))
  considerations := [{ considerationName := "f" }] }

def envelope : Envelope := { contract := some contract }

def plan : Plan where
  contract := contract
  specification := specification
  definition := { resourceLocation := some { classname := "m" } }
  output := none

def caller : Caller := ⟨⟨.zero⟩, ⟨.zero⟩⟩

/-- The context that has resolved the module. -/
def resolved : Context := (Context.empty.resolve hosted "m").2

theorem runOn_prepareModule (store : MemoryStore) :
    (prepareModule hosted plan caller.encryption.publicKey).runOn ⟨store, .empty⟩ =
      (.ok code, ⟨store, resolved⟩) := by
  have loaded : (loadModule hosted plan.definition caller.encryption.publicKey).runOn
      ⟨store, .empty⟩ = (.ok code, ⟨store, resolved⟩) := rfl
  have preloaded : (preload hosted (plan.definition :: plan.output.toList)
      caller.encryption.publicKey).runOn ⟨store, resolved⟩ = (.ok (), ⟨store, resolved⟩) := rfl
  have fits : validate plan.contract plan.specification = .ok () := by
    simp [validate, recitalsMatch, factsSupplied, sorted, plan, contract, specification]
  unfold prepareModule
  simp only [Action.runOn_bind, loaded, preloaded, fits]
  rfl

theorem runOn_loadExisting {w : Workspace MemoryStore} :
    (loadExisting hosted caller.encryption.publicKey plan.contract.inputs).runOn w =
      (.ok [], w) := by
  have located : locateInputs plan.contract.inputs = .ok [] := rfl
  have fetched : (fetchAll hosted caller.encryption.publicKey []).runOn w = (.ok [], w) := rfl
  have grouped : groupByName [] = .ok [] := by
    simp [groupByName, sorted]
    rfl
  unfold loadExisting
  simp only [Action.runOn_bind, Action.runOn_ofExcept, located, fetched, grouped]

/-- The function that the consideration names. -/
def prepared : Prepared := ⟨0, ⟨"f", "", "", [], "T", none⟩, []⟩

theorem runOn_partition {w : Workspace MemoryStore} :
    (partition hosted caller.encryption.publicKey metadata [] plan.contract.considerations).runOn
        w = (.ok ⟨[prepared], []⟩, w) := by
  have named : metadata.function? "f" = some prepared.function := by
    simp [ContractMetadata.function?, metadata, description, prepared]
  have prepares : (prepare hosted caller.encryption.publicKey metadata []
      { considerationName := "f" } 0).runOn w = (.ok (prepared, true), w) := by
    unfold prepare
    simp only [named]
    rfl
  have pending : ({ considerationName := "f" } : Consideration).isPending = true := rfl
  change (partitionFrom hosted caller.encryption.publicKey metadata [] 0
    [{ considerationName := "f" }]).runOn w = _
  unfold partitionFrom
  simp only [pending, if_true, Action.runOn_bind, prepares]
  rfl

/-- The output as its type. -/
def message : Schema.Message := ((pool.decode type output).toOption).getD (.blank "T")

theorem decode_output : pool.decode type output = .ok message := by
  rfl

/-- The message has no maps, so there is one way to write it. -/
theorem lone_message : Schema.Lone message := by
  have none : message.slots = [] := rfl
  exact .of (by simp [none]) (by simp [none])

theorem bytes_message : message.bytes = output := by
  decide +kernel

variable (orders : MapOrders)

theorem runOn_runGuest (store : MemoryStore) :
    ∃ w, (runGuest hosted ⟨Guest.interpreter, orders⟩ metadata [prepared] guest).runOn
      ⟨store, resolved⟩ = (.ok (.finished [⟨0, "f", message⟩]), w) := by
  have called : prepared.invoke ⟨Guest.interpreter, orders⟩ guest = (.ok output, guest) :=
    Guest.Executor.call_eq rfl readBuffer_output
  have typed : (messageType hosted "T").runOn (⟨store, resolved⟩ : Workspace MemoryStore) =
      (.ok (pool, type), ⟨store, (resolved.resolve hosted "T").2⟩) := rfl
  have read : (readOutput hosted metadata prepared output).runOn
      (⟨store, resolved⟩ : Workspace MemoryStore) =
        (.ok (.ok message), ⟨store, (resolved.resolve hosted "T").2⟩) := by
    have something : output.isEmpty = false := rfl
    unfold readOutput
    simp only [something, Bool.false_eq_true, if_false, Action.runOn_bind, prepared, typed,
      decode_output]
    rfl
  refine ⟨⟨store, (resolved.resolve hosted "T").2⟩, ?_⟩
  unfold runGuest
  simp only [called, Action.runOn_bind, read]
  rfl

/-- The contract with the result of its consideration. -/
def answer (scope : Option ScopeState) : Contract :=
  setResult contract 0 (passResult scope ⟨0, "f", message⟩)

theorem runOn_runContract (store : MemoryStore) :
    ∃ w, (runContract hosted ⟨Guest.interpreter, orders⟩ caller.encryption.publicKey plan).runOn
      (⟨store, .empty⟩ : Workspace MemoryStore) =
        (.ok ([], .finished [⟨0, "f", message⟩]), w) := by
  obtain ⟨w, called⟩ := runOn_runGuest orders store
  refine ⟨w, ?_⟩
  unfold runContract runFunctions
  simp only [Action.runOn_bind, runOn_prepareModule, loadContract_code, runOn_loadExisting,
    runOn_partition, called]
  rfl

theorem runOn_execute (scope : Option ScopeState) (store : MemoryStore) :
    ∃ w, (execute hosted ⟨Guest.interpreter, orders⟩ caller scope [] plan).runOn
      (⟨store, .empty⟩ : Workspace MemoryStore) = (.ok (answer scope), w) := by
  obtain ⟨w, performed⟩ := runOn_runContract orders store
  have written : (⟨0, "f", message⟩ : Output).ordered orders = ⟨0, "f", message⟩ := by
    rw [Output.ordered, Schema.Message.ordered_of_lone lone_message]
  rw [Engine.runOn_execute, performed]
  simp only [GuestRun.ordered, List.map_cons, List.map_nil, written]
  exact ⟨_, rfl⟩

/-- The specification is there for everybody. -/
def seeds : List MemoryStore.Step :=
  [.insertRecord "ContractSpecification" (Wire.encode specification)]

theorem planned {e : Engine MemoryStore Guest.Instance}
    (store : e.store = MemoryStore.after {} seeds) :
    e.planned caller contract = (.ok plan, { e.store with reads := e.store.reads + 1 }) := by
  have stored : e.store.objects[contentHash (Wire.encode specification)]? =
      some ⟨.record "ContractSpecification", Wire.encode specification, .everyone, none⟩ := by
    rw [store, MemoryStore.objects_after]
    simp [seeds, MemoryStore.writesOf, MemoryStore.Step.written?, MemoryStore.mergeAll,
      MemoryStore.merge]
  exact planned_of_published rfl stored (by decide +kernel)

/-- A new engine for the module over a store. -/
def built (store : MemoryStore) : Except Fault (Engine MemoryStore Guest.Instance) :=
  build (some store) {} Guest.interpreter hosted none none

theorem handle_eq_answer {e : Engine MemoryStore Guest.Instance}
    (new : built (MemoryStore.after {} seeds) = .ok e) (scope : Option ScopeState) :
    ∃ e', e.handle orders caller envelope scope [] =
      (.ok (envelope.withSealed (answer scope) caller.signing), e') := by
  have store : e.store = MemoryStore.after {} seeds := by
    cases new
    rfl
  have started : e.executed orders caller scope [] plan
      { e.store with reads := e.store.reads + 1 } =
        (execute hosted ⟨Guest.interpreter, orders⟩ caller scope [] plan).runOn
          ⟨{ e.store with reads := e.store.reads + 1 }, .empty⟩ := by
    cases new
    rfl
  obtain ⟨w, ran⟩ := runOn_execute orders scope { e.store with reads := e.store.reads + 1 }
  exact ⟨_, handle_eq_ok_iff.mpr
    ⟨contract, plan, _, answer scope, w, rfl, planned store, started.trans ran, rfl, rfl⟩⟩

/-- A scope that has outputs of the function, and others. -/
def scope : ScopeState where
  records := [
    ⟨"g", [{ hash := [1] }]⟩,
    ⟨"f", [{ hash := [2] }, { hash := [3] }]⟩,
    ⟨"f", [{ hash := [4] }]⟩]

/-- The record of the output: it names what the function gave, and what stood first in the scope. -/
def passed : ProposedRecord where
  name := "f"
  hash := (contentHash output).toList
  classname := "T"
  ancestorHash := [2]

theorem resultAt_answer : resultAt (answer (some scope)) 0 = some (.pass passed) := by
  have typed : message.type = "T" := rfl
  have result : resultAt (answer (some scope)) 0 =
      some (passResult (some scope) ⟨0, "f", message⟩) := rfl
  rw [result, passResult, bytes_message, typed]
  rfl

end Sample

open Sample in
/-- The outcome of an execution of one function, in whatever order maps are written: its
consideration passes, with the hash of the output, and with that of the output in the scope which it
supersedes. -/
theorem outcome_of_one_function :
    ∃ (e e' : Engine MemoryStore Guest.Instance) (out : Envelope),
      built (MemoryStore.after {} seeds) = .ok e ∧
      e.handle (fun _ => .backwards) caller envelope (some scope) [] = (.ok out, e') ∧
      ∃ c', out.contract = some c' ∧ PendingAt contract 0 ∧
        resultAt c' 0 = some (.pass passed) ∧
        ∃ p store st bs,
          out = { envelope with contract := some c', signatures := out.signatures } ∧
          e.planned caller contract = (.ok p, store) ∧
          Stage.Of e.surroundings e.sandbox caller.encryption.publicKey p
            (e.workspace store p.key) st ∧
          bs.map (fun b => (b.consideration, b.index)) = pendingFrom 0 contract.considerations ∧
          Bound e.surroundings caller.encryption.publicKey st.metadata st.workspace bs ∧
          ResultsOnly (PendingAt contract) contract c' ∧
          Completed e.surroundings (e.runtime fun _ => .backwards) (some scope) st bs contract
            c' := by
  obtain ⟨e, new⟩ : ∃ e, built (MemoryStore.after {} seeds) = .ok e := ⟨_, rfl⟩
  obtain ⟨e', handled⟩ := handle_eq_answer (fun _ => .backwards) new (some scope)
  have pending : PendingAt contract 0 := ⟨{ considerationName := "f" }, rfl, rfl⟩
  obtain ⟨c, c', p, store, st, bs, submitted, returned, envelope, plans, stage, places, bound,
    only, outcome, -⟩ := handle_outcome handled
  cases submitted
  cases returned
  refine ⟨e, e', _, new, handled, _, rfl, pending, resultAt_answer, p, store, st, bs, rfl, plans,
    stage, places, bound, only, ?_⟩
  rcases outcome with completed | ⟨⟨before, b, after, outputs, g, text, split, -, -, failed, -⟩, -⟩
  · exact completed
  · -- A call that failed would have left its text in the only consideration.
    have member : b ∈ bs := by
      have among : b ∈ bs.filter (·.Runs st.existing) := by simp [split]
      exact (List.mem_filter.mp among).1
    obtain ⟨k, here, -⟩ := (pendingAt_iff_of_places places).mpr ⟨b, member, rfl⟩
    have first : b.index = 0 := by simpa [contract] using (List.getElem?_eq_some_iff.mp here).1
    rw [first, resultAt_answer, Option.some.injEq] at failed
    have number : Outcome.pass.number = Outcome.fail.number :=
      congrArg ExecutionResult.result failed
    exact absurd number (by decide)

end Notary.Engine
