/-
Calls that differ in the order of map entries.

An execution writes its messages twice over: what its functions are handed, and what they gave. The
order of the entries of a map shows in both. As long as each of these messages comes out alike in
two orders, as it does when none of its maps has two entries, the orders make no difference.

* `Writes` — the messages that an execution writes, and as what.
* `Engine.WritesAlike` — in two orders, a call writes each of its messages alike.
* `writesAlike_of_lone` — so it does when no map in them has two entries.
* `handle_of_writesAlike` — the call is the same then.
-/

import Notary.Proofs.Engine.Outcome

namespace Notary.Engine

open Notary.Contract
open Notary.Store (MemoryStore)

variable {γ : Type}

/-- The messages that an execution writes: those that the functions which can run are handed, and
those that they gave when none of them failed. -/
inductive Writes (s : Context.Surroundings) (r : Runtime γ) (reader : PublicKey) (p : Plan)
    (start : Workspace MemoryStore) : Written → Schema.Message → Prop where
  | argument {st : Stage γ} {parts : Partition} {q : Prepared} {l : LoadedRecord}
      {m : Schema.Message} {i j : Nat} (stage : Stage.Of s r.sandbox reader p start st)
      (splits : (partition s reader st.metadata st.existing p.contract.considerations).Gives
        st.workspace parts)
      (runs : q ∈ parts.executable) (taken : q.arguments[i]? = some l)
      (member : l.value.messages[j]? = some m) :
      Writes s r reader p start (.argument q.index i j) m
  | output {skipped : List Prepared} {outputs : List Output} {o : Output}
      (gave : (runContract s r reader p).Gives start (skipped, .finished outputs))
      (member : o ∈ outputs) : Writes s r reader p start (.output o.index) o.message

/-! ### Arguments -/

section Arguments

variable {orders orders' : MapOrders} {x : Guest.Executor γ}

theorem RecordValue.ordered_congr {orders orders' : Nat → Schema.MapOrder} {v : RecordValue}
    (alike : ∀ (j : Nat) m, v.messages[j]? = some m →
      m.ordered (orders j) [] = m.ordered (orders' j) []) :
    v.ordered orders = v.ordered orders' := by
  cases v with
  | single m => exact congrArg RecordValue.single (alike 0 m rfl)
  | collection ms =>
    refine congrArg RecordValue.collection (List.mapIdx_eq_mapIdx_iff.mpr ?_)
    intro j inside
    exact alike j _ (List.getElem?_eq_getElem inside)

/-- The messages that functions are handed come out alike in two orders. -/
def HandedAlike (orders orders' : MapOrders) (ps : List Prepared) : Prop :=
  ∀ q ∈ ps, ∀ (i j : Nat) l m, q.arguments[i]? = some l → l.value.messages[j]? = some m →
    m.ordered (orders (.argument q.index i j)) [] = m.ordered (orders' (.argument q.index i j)) []

theorem Prepared.invoke_congr {q : Prepared} (alike : HandedAlike orders orders' [q]) :
    q.invoke ⟨x, orders⟩ = q.invoke ⟨x, orders'⟩ := by
  have handed : q.argumentBytes orders = q.argumentBytes orders' := by
    refine List.mapIdx_eq_mapIdx_iff.mpr ?_
    intro i inside
    refine congrArg RecordValue.bytes (RecordValue.ordered_congr ?_)
    intro j m member
    exact alike q List.mem_cons_self i j _ m (List.getElem?_eq_getElem inside) member
  funext g
  exact congrArg (x.call g q.function.exportName) handed

theorem runGuest_congr (s : Context.Surroundings) (m : Metadata.ContractMetadata)
    {ps : List Prepared} (alike : HandedAlike orders orders' ps) (g : γ) :
    (runGuest s ⟨x, orders⟩ m ps g : Action MemoryStore _) = runGuest s ⟨x, orders'⟩ m ps g := by
  induction ps generalizing g with
  | nil => rfl
  | cons q rest ih =>
    have first : q.invoke ⟨x, orders⟩ = q.invoke ⟨x, orders'⟩ := by
      refine Prepared.invoke_congr fun p member => ?_
      obtain rfl := List.mem_singleton.mp member
      exact alike p List.mem_cons_self
    have later := ih fun p member => alike p (List.mem_cons_of_mem q member)
    unfold runGuest
    rw [first]
    rcases q.invoke ⟨x, orders'⟩ g with ⟨answer, g'⟩
    cases answer with
    | error fault => rfl
    | ok bytes => simp only [later]

end Arguments

/-! ### Executions -/

section Executions

variable {s : Context.Surroundings} {x : Guest.Executor γ} {orders orders' : MapOrders}
  {reader : PublicKey} {p : Plan} {start : Workspace MemoryStore}

theorem runContract_congr
    (alike : ∀ place m, Writes s ⟨x, orders⟩ reader p start place m →
      m.ordered (orders place) [] = m.ordered (orders' place) []) :
    (runContract s ⟨x, orders⟩ reader p).runOn start =
      (runContract s ⟨x, orders'⟩ reader p).runOn start := by
  refine Action.runOn_bind_congr fun code w prepares => ?_
  unfold runFunctions
  dsimp only
  cases loads : x.loadContract code with
  | error e => rfl
  | ok started =>
    obtain ⟨g, m⟩ := started
    refine Action.runOn_bind_congr fun existing w₁ loaded => ?_
    obtain ⟨inputs, alike₁⟩ :=
      (looks_loadExisting _).steady.gives_of_runOn ((Action.Frame.alike s).refl w) loaded
    refine Action.runOn_bind_congr fun parts w₂ split => ?_
    obtain ⟨splits, -⟩ := (looks_partitionFrom m existing _ 0).steady.gives_of_runOn alike₁ split
    have stage : Stage.Of s x reader p start ⟨w, g, m, existing⟩ :=
      ⟨⟨code, prepares, loads⟩, inputs⟩
    have handed : HandedAlike orders orders' parts.executable := by
      intro q runs i j l m taken member
      exact alike _ m (.argument stage splits runs taken member)
    rw [runGuest_congr s m handed g]

theorem GuestRun.ordered_congr {run : GuestRun}
    (alike : ∀ outputs, run = .finished outputs → ∀ o ∈ outputs,
      o.message.ordered (orders (.output o.index)) [] =
        o.message.ordered (orders' (.output o.index)) []) :
    run.ordered orders = run.ordered orders' := by
  cases run with
  | failed index message => rfl
  | finished outputs =>
    refine congrArg GuestRun.finished (List.map_congr_left ?_)
    intro o member
    rw [Output.ordered, Output.ordered, alike outputs rfl o member]

theorem execute_congr {caller : Caller} (scope : Option ScopeState) (extra : List PublicKey)
    (alike : ∀ place m, Writes s ⟨x, orders⟩ caller.encryption.publicKey p start place m →
      m.ordered (orders place) [] = m.ordered (orders' place) []) :
    (execute s ⟨x, orders⟩ caller scope extra p).runOn start =
      (execute s ⟨x, orders'⟩ caller scope extra p).runOn start := by
  rw [runOn_execute, runOn_execute, ← runContract_congr alike]
  rcases ran : (runContract s ⟨x, orders⟩ caller.encryption.publicKey p).runOn start with
    ⟨answer, w⟩
  cases answer with
  | error f => rfl
  | ok performed =>
    obtain ⟨skipped, run⟩ := performed
    have written : run.ordered orders = run.ordered orders' := by
      refine GuestRun.ordered_congr ?_
      rintro outputs rfl o member
      have gave : (runContract s ⟨x, orders⟩ caller.encryption.publicKey p).Gives start
          (skipped, .finished outputs) := congrArg Prod.fst ran
      exact alike _ _ (.output gave member)
    simp only [written]

end Executions

/-! ### Calls -/

section Calls

variable {e : Engine MemoryStore γ} {orders orders' : MapOrders} {caller : Caller}
  {envelope : Envelope}

/-- In two orders, a call writes each of its messages alike. -/
def WritesAlike (e : Engine MemoryStore γ) (orders orders' : MapOrders) (caller : Caller)
    (envelope : Envelope) : Prop :=
  ∀ c p store, envelope.contract = some c → e.planned caller c = (.ok p, store) →
    ∀ place m, Writes e.surroundings (e.runtime orders) caller.encryption.publicKey p
        (e.workspace store p.key) place m →
      m.ordered (orders place) [] = m.ordered (orders' place) []

theorem writesAlike_refl (e : Engine MemoryStore γ) (orders : MapOrders) (caller : Caller)
    (envelope : Envelope) : e.WritesAlike orders orders caller envelope := by
  intro _ _ _ _ _ _ _ _
  rfl

/-- Where no map has two entries, a message comes out alike in all orders. -/
theorem writesAlike_of_lone
    (lone : ∀ c p store, envelope.contract = some c → e.planned caller c = (.ok p, store) →
      ∀ place m, Writes e.surroundings (e.runtime orders) caller.encryption.publicKey p
        (e.workspace store p.key) place m → Schema.Lone m) :
    e.WritesAlike orders orders' caller envelope := by
  intro c p store submitted plans place m writes
  have alone := lone c p store submitted plans place m writes
  rw [Schema.Message.ordered_of_lone alone, Schema.Message.ordered_of_lone alone]

theorem handle_of_writesAlike (alike : e.WritesAlike orders orders' caller envelope)
    (scope : Option ScopeState) (extra : List PublicKey) :
    e.handle orders caller envelope scope extra = e.handle orders' caller envelope scope extra := by
  cases submitted : envelope.contract with
  | none => simp only [handle, submitted]
  | some c =>
    rw [handle_eq e orders caller scope extra submitted,
      handle_eq e orders' caller scope extra submitted]
    rcases plans : e.planned caller c with ⟨answer, store⟩
    cases answer with
    | error f => rfl
    | ok p =>
      have same : e.executed orders caller scope extra p store =
          e.executed orders' caller scope extra p store :=
        execute_congr scope extra (alike c p store submitted plans)
      simp only [same]

end Calls

namespace Sample

/-- The function of the sample takes no arguments, and its output has no maps. -/
theorem lone_of_writes {orders : MapOrders} {store : MemoryStore} {place : Written}
    {m : Schema.Message}
    (writes : Writes hosted ⟨Guest.interpreter, orders⟩ caller.encryption.publicKey plan
      ⟨store, .empty⟩ place m) : Schema.Lone m := by
  cases writes with
  | @argument st parts q l m i k stage splits runs taken member =>
    obtain ⟨workspace, guest, metadata, existing⟩ := st
    obtain ⟨⟨code', prepares, loads⟩, inputs⟩ := stage
    cases prepares.symm.trans (runOn_prepareModule store)
    cases loads.symm.trans loadContract_code
    cases inputs.symm.trans (congrArg Prod.fst runOn_loadExisting)
    cases splits.symm.trans (congrArg Prod.fst runOn_partition)
    obtain rfl : q = prepared := List.mem_singleton.mp runs
    cases taken
  | output gave member =>
    obtain ⟨w, ran⟩ := runOn_runContract orders store
    unfold Action.Gives at gave
    rw [ran] at gave
    cases gave
    obtain rfl : _ = (⟨0, "f", message⟩ : Output) := by simpa using member
    exact lone_message

theorem writesAlike {e : Engine MemoryStore Guest.Instance}
    (new : built (MemoryStore.after {} seeds) = .ok e) (orders orders' : MapOrders) :
    e.WritesAlike orders orders' caller envelope := by
  refine writesAlike_of_lone ?_
  rintro c p store ⟨⟩ plans place m writes
  have known : e.planned caller contract = _ := planned (by cases new; rfl)
  rw [known] at plans
  cases plans
  cases new
  exact lone_of_writes writes

end Sample

end Notary.Engine
