/-
One call of an engine, in its three parts.

An engine fetches the specification of a contract, asks its cache for the context of the plan, and
executes the plan there.

* `Engine.planned`, `Engine.workspace` — the plan of a contract, and what it is executed on.
* `handle_eq` — a call in terms of both.
* `handle_eq_ok_iff` — when an envelope comes back.
* `contract_of_planned`, `unwritten_planned` — a plan is that of its contract, and making it writes
  nothing.
* `planned_of_published` — the plan of a contract whose specification is there for everybody.
-/

import Notary.Engine.Basic
import Notary.Proofs.Contract.RoundTrip
import Notary.Proofs.Engine.Action

namespace Notary.Engine

open Notary.Contract

variable {σ γ : Type} [Store.ObjectStore σ]

/-- The plan of a contract, with the store behind the read of its specification. -/
def planned (e : Engine σ γ) (caller : Caller) (c : Contract) : Except Fault Plan × σ :=
  match (loadSpecification c caller.encryption.publicKey).runOn ⟨e.store, .empty⟩ with
  | (.error f, w) => (.error f, w.store)
  | (.ok spec, w) => (Plan.of c spec, w.store)

omit [Store.ObjectStore σ] in
/-- A store, with the context that the cache has for a key. -/
def workspace (e : Engine σ γ) (store : σ) (key : Context.CacheKey) : Workspace σ :=
  ⟨store, (e.cache.request key).2.2.context (e.cache.request key).1⟩

/-- The execution of a plan on the context of its key. -/
def executed (e : Engine σ γ) (orders : MapOrders) (caller : Caller) (scope : Option ScopeState)
    (extra : List PublicKey) (plan : Plan) (store : σ) : Except Fault Contract × Workspace σ :=
  (execute e.surroundings (e.runtime orders) caller scope extra plan).runOn
    (e.workspace store plan.key)

theorem handle_eq (e : Engine σ γ) (orders : MapOrders) (caller : Caller) {envelope : Envelope}
    (scope : Option ScopeState) (extra : List PublicKey) {c : Contract}
    (submitted : envelope.contract = some c) :
    e.handle orders caller envelope scope extra =
      match e.planned caller c with
      | (.error f, store) => (.error f, { e with store })
      | (.ok plan, store) =>
        ((e.executed orders caller scope extra plan store).1.map fun c =>
            envelope.withSealed c caller.signing,
          { e with
            store := (e.executed orders caller scope extra plan store).2.store
            cache := (e.cache.request plan.key).2.2.setContext (e.cache.request plan.key).1
              (e.executed orders caller scope extra plan store).2.context }) := by
  unfold handle planned
  simp only [submitted]
  rcases (loadSpecification c caller.encryption.publicKey).runOn ⟨e.store, .empty⟩ with
    ⟨answer, w⟩
  cases answer with
  | error f => rfl
  | ok spec =>
    cases found : Plan.of c spec with
    | error f => simp only [found]
    | ok plan =>
      simp only [found, executed, workspace, runtime]
      cases (execute e.surroundings ⟨e.sandbox, orders⟩ caller scope extra plan).runOn ⟨w.store,
          (e.cache.request plan.key).2.2.context (e.cache.request plan.key).1⟩ with
      | mk answer w' => cases answer <;> rfl

/-- An envelope comes back when its contract has a plan and the plan can be executed. -/
theorem handle_eq_ok_iff {e e' : Engine σ γ} {orders : MapOrders} {caller : Caller}
    {envelope out : Envelope} {scope : Option ScopeState} {extra : List PublicKey} :
    e.handle orders caller envelope scope extra = (.ok out, e') ↔
      ∃ c plan store c' w, envelope.contract = some c ∧
        e.planned caller c = (.ok plan, store) ∧
        e.executed orders caller scope extra plan store = (.ok c', w) ∧
        out = envelope.withSealed c' caller.signing ∧
        e' = { e with
          store := w.store
          cache := (e.cache.request plan.key).2.2.setContext (e.cache.request plan.key).1
            w.context } := by
  constructor
  · intro handled
    cases submitted : envelope.contract with
    | none => simp [handle, submitted] at handled
    | some c =>
      rw [handle_eq e orders caller scope extra submitted] at handled
      rcases plans : e.planned caller c with ⟨answer, store⟩
      rw [plans] at handled
      cases answer with
      | error f => simp at handled
      | ok plan =>
        rcases ran : e.executed orders caller scope extra plan store with ⟨answer, w⟩
        simp only [ran] at handled
        cases answer with
        | error f => simp [Except.map] at handled
        | ok c' =>
          simp only [Except.map, Prod.mk.injEq, Except.ok.injEq] at handled
          exact ⟨c, plan, store, c', w, rfl, plans, ran, handled.1.symm, handled.2.symm⟩
  · rintro ⟨c, plan, store, c', w, submitted, plans, ran, rfl, rfl⟩
    rw [handle_eq e orders caller scope extra submitted, plans]
    simp only [ran, Except.map]

/-- A record that was made for a hash is found by that hash. -/
theorem contentHash?_new (name classname : String) (hash : Hash) :
    (Record.new name (.new classname hash)).contentHash? = some hash := by
  simp [Record.new, Record.contentHash?, Location.new, Location.contentHash?]

theorem contract_of_planned {e : Engine σ γ} {caller : Caller} {c : Contract} {p : Plan} {store : σ}
    (plans : e.planned caller c = (.ok p, store)) : p.contract = c := by
  unfold planned at plans
  rcases fetched : (loadSpecification c caller.encryption.publicKey).runOn ⟨e.store, .empty⟩ with
    ⟨answer, w⟩
  rw [fetched] at plans
  cases answer with
  | error f => cases plans
  | ok spec =>
    have of : Plan.of c spec = .ok p := congrArg Prod.fst plans
    unfold Plan.of at of
    split at of
    · cases of
    · split at of
      · cases of
      · cases of
        rfl

/-- The plan of a contract whose specification is stored for everybody. -/
theorem planned_of_published {e : Engine Store.MemoryStore γ} {caller : Caller} {c : Contract}
    {name type : String} {spec : ContractSpecification}
    (named : c.spec = some (.new name (.new type (contentHash (Wire.encode spec)))))
    (stored : e.store.objects[contentHash (Wire.encode spec)]? =
      some ⟨.record type, Wire.encode spec, .everyone, none⟩)
    (short : (Wire.encode spec).length < 2 ^ 63) :
    e.planned caller c = (Plan.of c spec, { e.store with reads := e.store.reads + 1 }) := by
  have found : (Store.ObjectStore.getRecord type (contentHash (Wire.encode spec))
      caller.encryption.publicKey e.store).1 = .ok (Wire.encode spec) :=
    Store.MemoryStore.lookup_eq_ok_iff.mpr ⟨_, stored, rfl, rfl, rfl⟩
  have fetched : (Action.fetch (Store.ObjectStore.getRecord type (contentHash (Wire.encode spec))
      caller.encryption.publicKey)).runOn ⟨e.store, .empty⟩ =
        (.ok (Wire.encode spec), ⟨{ e.store with reads := e.store.reads + 1 }, .empty⟩) := by
    unfold Action.fetch
    rw [Action.runOn_bind, Action.read, Action.runOn_ofStore]
    simp only [found]
    rfl
  have read : Wire.decode (Wire.encode spec) = .ok spec :=
    readsBack_of_faithful (faithful_contractSpecification 96) spec short
  have located := contentHash?_new name type (contentHash (Wire.encode spec))
  have classname : (Record.new name (.new type (contentHash (Wire.encode spec)))).classname =
      type := rfl
  unfold planned loadSpecification
  simp only [named, located, classname, Action.runOn_bind, fetched, read, Action.runOn_pure]

/-- Making a plan writes nothing. -/
theorem unwritten_planned (e : Engine Store.MemoryStore γ) (caller : Caller) (c : Contract) :
    e.store.Unwritten (e.planned caller c).2 := by
  have kept : e.store.Unwritten ((loadSpecification c caller.encryption.publicKey).runOn
      ⟨e.store, .empty⟩).2.store :=
    (looks_loadSpecification (s := e.surroundings) c).prepares.unwritten ⟨e.store, .empty⟩
  unfold planned
  generalize (loadSpecification c caller.encryption.publicKey).runOn ⟨e.store, .empty⟩ = ran at kept
  obtain ⟨answer, w⟩ := ran
  cases answer <;> exact kept

theorem objects_planned (e : Engine Store.MemoryStore γ) (caller : Caller) (c : Contract) :
    (e.planned caller c).2.objects = e.store.objects :=
  (e.unwritten_planned caller c).objects

end Notary.Engine
