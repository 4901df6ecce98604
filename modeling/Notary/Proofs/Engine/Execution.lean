/-
The two halves of an execution.

The first half can fail, and writes nothing: it registers archives, reads records and calls the
functions. The second half turns what came of the calls into results. It cannot fail, and it is the
only one that writes.

* `runContract`, `prepares_runContract` — the first half.
* `conclude`, `runOn_conclude` — the second half: the contract that it answers with, and the signed
  writes that it makes.
* `execute_eq_conclude`, `runOn_execute` — an execution is the one behind the other.
-/

import Notary.Proofs.Engine.Module
import Notary.Proofs.Engine.Results

namespace Notary.Engine

open Notary.Contract
open Notary.Store (MemoryStore)

variable {γ : Type}

/-! ### Up to the last call -/

/-- Calls the functions of a module. The answer is which of them were not called, and what came of
the others. -/
def runFunctions (s : Context.Surroundings) (r : Runtime γ) (reader : PublicKey) (p : Plan)
    (code : Bytes) : Action MemoryStore (List Prepared × GuestRun) :=
  match r.sandbox.loadContract code with
  | .error e => Action.refuse (.unloadableContract p.definition.classname e)
  | .ok (g, m) => do
    let existing ← loadExisting s reader p.contract.inputs
    let parts ← partition s reader m existing p.contract.considerations
    let run ← runGuest s r m parts.executable g
    return (parts.skipped, run)

/-- Gets the module of a contract and calls its functions. -/
def runContract (s : Context.Surroundings) (r : Runtime γ) (reader : PublicKey) (p : Plan) :
    Action MemoryStore (List Prepared × GuestRun) :=
  prepareModule s p reader >>= runFunctions s r reader p

/-- What came of the calls, with the maps of the outputs in order. -/
def GuestRun.ordered (orders : MapOrders) : GuestRun → GuestRun
  | .failed index message => .failed index message
  | .finished outputs => .finished (outputs.map (·.ordered orders))

/-- Makes results of what came of the calls, and stores the outputs unless one of them failed. -/
def conclude (caller : Caller) (scope : Option ScopeState) (extra : List PublicKey) (c : Contract) :
    List Prepared × GuestRun → Action MemoryStore Contract
  | (_, .failed index message) => pure (setResult c index (.fail message))
  | (skipped, .finished outputs) => recordOutputs caller extra scope c skipped outputs

/-- Calls the functions of a module and records their outputs. -/
def callFunctions (s : Context.Surroundings) (r : Runtime γ) (caller : Caller)
    (scope : Option ScopeState) (extra : List PublicKey) (p : Plan) (code : Bytes) :
    Action MemoryStore Contract :=
  match r.sandbox.loadContract code with
  | .error e => Action.refuse (.unloadableContract p.definition.classname e)
  | .ok (g, m) => do
    let existing ← loadExisting s caller.encryption.publicKey p.contract.inputs
    let parts ← partition s caller.encryption.publicKey m existing p.contract.considerations
    match ← runGuest s r m parts.executable g with
    | .failed index message => return setResult p.contract index (.fail message)
    | .finished outputs =>
      recordOutputs caller extra scope p.contract parts.skipped (outputs.map (·.ordered r.orders))

theorem callFunctions_eq (s : Context.Surroundings) (r : Runtime γ) (caller : Caller)
    (scope : Option ScopeState) (extra : List PublicKey) (p : Plan) (code : Bytes) :
    callFunctions s r caller scope extra p code =
      runFunctions s r caller.encryption.publicKey p code >>= fun performed =>
        conclude caller scope extra p.contract (performed.1, performed.2.ordered r.orders) := by
  unfold callFunctions runFunctions
  cases r.sandbox.loadContract code with
  | error e => rfl
  | ok loaded =>
    simp only [bind_assoc, pure_bind]
    refine bind_congr fun existing => bind_congr fun parts => bind_congr fun run => ?_
    cases run <;> rfl

theorem execute_eq_conclude (s : Context.Surroundings) (r : Runtime γ) (caller : Caller)
    (scope : Option ScopeState) (extra : List PublicKey) (p : Plan) :
    execute s r caller scope extra p =
      runContract s r caller.encryption.publicKey p >>= fun performed =>
        conclude caller scope extra p.contract (performed.1, performed.2.ordered r.orders) := by
  rw [runContract, bind_assoc]
  exact bind_congr (callFunctions_eq s r caller scope extra p)

open Notary.Engine.Action

theorem looks_runFunctions (s : Context.Surroundings) (r : Runtime γ) (reader : PublicKey)
    (p : Plan) (code : Bytes) : Looks s reader (runFunctions s r reader p code) := by
  unfold runFunctions
  cases r.sandbox.loadContract code with
  | error e => exact .refuse _
  | ok loaded =>
    refine (looks_loadExisting _).bind ?_
    intro existing
    refine (looks_partitionFrom _ existing _ 0).bind ?_
    intro parts
    exact ((names_runGuest r _ _ _).looks reader).bind fun _ => .pure _

theorem prepares_runContract (s : Context.Surroundings) (r : Runtime γ) (reader : PublicKey)
    (p : Plan) : Prepares s reader (runContract s r reader p) :=
  (prepares_prepareModule p).bind fun code => (looks_runFunctions s r reader p code).prepares

/-- Up to the last call, nothing is written. -/
theorem unwritten_of_runContract {s : Context.Surroundings} {r : Runtime γ} {reader : PublicKey}
    {p : Plan} {start w : Workspace MemoryStore}
    {answer : Except Fault (List Prepared × GuestRun)}
    (ran : (runContract s r reader p).runOn start = (answer, w)) :
    start.store.Unwritten w.store := by
  have kept : start.store.Unwritten ((runContract s r reader p).runOn start).2.store :=
    (prepares_runContract s r reader p).unwritten start
  rw [ran] at kept
  exact kept

/-! ### Results -/

/-- The hash that an output of a name supersedes: that of the first output of the first record of
this name in the scope. It is empty when there is none. -/
def ancestor (scope : Option ScopeState) (name : String) : Bytes :=
  match scope.bind fun s => s.records.find? (·.name = name) with
  | some ⟨_, o :: _⟩ => o.hash
  | _ => []

theorem ancestor_eq (scope : Option ScopeState) (name : String) :
    (scope.bind (·.priorOutputHash? name)).getD [] = ancestor scope name := by
  cases scope with
  | none => rfl
  | some s =>
    have named : (fun r : ScopeRecord => r.name == name) = fun r => decide (r.name = name) := rfl
    simp only [ancestor, Option.bind_some, ScopeState.priorOutputHash?, named]
    cases s.records.find? fun r => decide (r.name = name) with
    | none => rfl
    | some r =>
      obtain ⟨_, outputs⟩ := r
      cases outputs <;> rfl

/-- The result of a consideration whose function gave an output. -/
def passResult (scope : Option ScopeState) (o : Output) : ExecutionResult :=
  .pass {
    name := o.name
    hash := (contentHash o.message.bytes).toList
    classname := o.message.type
    ancestorHash := ancestor scope o.name }

/-- The contract when all calls are over. -/
def concluded (scope : Option ScopeState) (c : Contract) : List Prepared × GuestRun → Contract
  | (_, .failed index message) => setResult c index (.fail message)
  | (skipped, .finished outputs) =>
    setResults c
      ((skipped.map fun p => (p.index, .skip p.outputName p.function.returnType)) ++
        outputs.map fun o => (o.index, passResult scope o))

/-- The parties of a contract are the same whatever its results are. -/
theorem audience_setResults (c : Contract) (rs : List (Nat × ExecutionResult))
    (extra : List PublicKey) : audience (setResults c rs) extra = audience c extra := by
  induction rs generalizing c with
  | nil => rfl
  | cons r rest ih => exact ih (setResult c r.1 r.2)

/-! ### Storing outputs -/

/-- The signed write that stores an output. -/
def outputWrite (caller : Caller) (readers : Store.Readers) (o : Output) : MemoryStore.Step :=
  .putRecord o.message.type o.message.bytes caller.signing.publicKey caller.encryption.publicKey
    readers

/-- The writes that are made behind the last call. -/
def GuestRun.writes (caller : Caller) (readers : Store.Readers) : GuestRun → List MemoryStore.Step
  | .failed _ _ => []
  | .finished outputs => outputs.map (outputWrite caller readers)

variable {caller : Caller} {scope : Option ScopeState} {extra : List PublicKey}

/-- One output is written, and its result recorded. -/
theorem runOn_storeOutput_eq (readers : Store.Readers) (o : Output) (w : Workspace MemoryStore) :
    (storeOutput caller readers scope o).runOn w =
      (.ok (o.index, passResult scope o),
        { w with store := (outputWrite caller readers o).apply w.store }) := by
  rw [passResult, ← ancestor_eq]
  rfl

/-- Outputs are written in their order, and each has its result. -/
theorem runOn_all_storeOutput (readers : Store.Readers) (outputs : List Output)
    (w : Workspace MemoryStore) :
    (Action.all (outputs.map (storeOutput caller readers scope))).runOn w =
      (.ok (outputs.map fun o => (o.index, passResult scope o)),
        { w with store := w.store.after (outputs.map (outputWrite caller readers)) }) := by
  induction outputs generalizing w with
  | nil => rfl
  | cons o rest ih =>
    rw [List.map_cons]
    exact Action.runOn_all_cons_eq_ok_iff.mpr
      ⟨_, _, _, runOn_storeOutput_eq readers o w, ih _, rfl⟩

theorem runOn_conclude (c : Contract) (skipped : List Prepared) (run : GuestRun)
    (w : Workspace MemoryStore) :
    (conclude caller scope extra c (skipped, run)).runOn w =
      (.ok (concluded scope c (skipped, run)),
        { w with store := w.store.after (run.writes caller (audience c extra)) }) := by
  cases run with
  | failed index message => rfl
  | finished outputs =>
    change (recordOutputs caller extra scope c skipped outputs).runOn w = _
    unfold recordOutputs
    rw [Action.runOn_bind, runOn_all_storeOutput, audience_setResults]
    simp only [Action.runOn_pure, concluded, setResults_append, GuestRun.writes]

/-- An execution ends as its first half does, with the results and the writes of the second. -/
theorem runOn_execute (s : Context.Surroundings) (r : Runtime γ) (p : Plan)
    (w : Workspace MemoryStore) :
    (execute s r caller scope extra p).runOn w =
      match (runContract s r caller.encryption.publicKey p).runOn w with
      | (.error f, w₁) => (.error f, w₁)
      | (.ok (skipped, run), w₁) =>
        (.ok (concluded scope p.contract (skipped, run.ordered r.orders)),
          { w₁ with
            store := w₁.store.after
              ((run.ordered r.orders).writes caller (audience p.contract extra)) }) := by
  rw [execute_eq_conclude, Action.runOn_bind]
  rcases (runContract s r caller.encryption.publicKey p).runOn w with ⟨answer, w₁⟩
  cases answer with
  | error f => rfl
  | ok performed =>
    exact runOn_conclude p.contract performed.1 (performed.2.ordered r.orders) w₁

theorem runOn_execute_eq_ok_iff {s : Context.Surroundings} {r : Runtime γ} {p : Plan}
    {c' : Contract} {w w' : Workspace MemoryStore} :
    (execute s r caller scope extra p).runOn w = (.ok c', w') ↔
      ∃ skipped run w₁,
        (runContract s r caller.encryption.publicKey p).runOn w = (.ok (skipped, run), w₁) ∧
        c' = concluded scope p.contract (skipped, run.ordered r.orders) ∧
        w' = { w₁ with
          store := w₁.store.after
            ((run.ordered r.orders).writes caller (audience p.contract extra)) } := by
  rw [runOn_execute]
  rcases (runContract s r caller.encryption.publicKey p).runOn w with ⟨answer, w₁⟩
  cases answer with
  | error f => simp
  | ok performed =>
    obtain ⟨skipped, run⟩ := performed
    constructor
    · intro ran
      cases ran
      exact ⟨skipped, run, w₁, rfl, rfl, rfl⟩
    · rintro ⟨_, _, _, ran, rfl, rfl⟩
      cases ran
      rfl

/-- What ends with a fault has failed before the first write. -/
theorem unwritten_of_runOn_execute {s : Context.Surroundings} {r : Runtime γ} {p : Plan} {f : Fault}
    {w w' : Workspace MemoryStore}
    (ran : (execute s r caller scope extra p).runOn w = (.error f, w')) :
    w.store.Unwritten w'.store := by
  rw [runOn_execute] at ran
  rcases performed : (runContract s r caller.encryption.publicKey p).runOn w with ⟨answer, w₁⟩
  rw [performed] at ran
  cases answer with
  | error f =>
    cases ran
    exact unwritten_of_runContract performed
  | ok answer => cases ran

end Notary.Engine
