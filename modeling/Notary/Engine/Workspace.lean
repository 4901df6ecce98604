/-
What an execution works on: the store, and the context of its contract.

* `Action` — a step that reads and changes both, and may fail.
* `Action.all` — steps that are handed to the worker pool: all of them run, and the first failure in
  order counts.
-/

import Notary.Context.Basic
import Notary.Engine.Fault
import Notary.Pool.Basic

namespace Notary.Engine

/-- The store and the context. -/
structure Workspace (σ : Type) where
  store : σ
  context : Context

/-- A step on a workspace. -/
abbrev Action (σ α : Type) := ExceptT Fault (StateM (Workspace σ)) α

namespace Action

variable {σ α : Type}

/-- Runs a step. -/
def runOn (act : Action σ α) (w : Workspace σ) : Except Fault α × Workspace σ :=
  (ExceptT.run act).run w

@[simp] theorem runOn_pure (a : α) (w : Workspace σ) :
    (pure a : Action σ α).runOn w = (.ok a, w) := rfl

@[simp] theorem runOn_throw (e : Fault) (w : Workspace σ) :
    (throw e : Action σ α).runOn w = (.error e, w) := rfl

/-- A step runs on what the step before it left, when that one succeeded. -/
theorem runOn_bind {β : Type} (act : Action σ α) (next : α → Action σ β) (w : Workspace σ) :
    (act >>= next).runOn w =
      match act.runOn w with
      | (.ok a, w') => (next a).runOn w'
      | (.error e, w') => (.error e, w') := by
  simp only [runOn, ExceptT.run_bind, StateT.run_bind]
  rcases h : StateT.run (ExceptT.run act) w with ⟨_ | _, w'⟩ <;> simp <;> rfl

/-- Ends with a fault of the definitions. -/
def refuse (fault : DefinitionFault) : Action σ α := throw (.definition fault)

@[simp] theorem runOn_refuse (fault : DefinitionFault) (w : Workspace σ) :
    (refuse fault : Action σ α).runOn w = (.error (.definition fault), w) := rfl

/-- A result that needs no workspace. -/
def ofExcept (r : Except Fault α) : Action σ α := ExceptT.mk (pure r)

@[simp] theorem runOn_ofExcept (r : Except Fault α) (w : Workspace σ) :
    (ofExcept r).runOn w = (r, w) := rfl

/-- A step of the store alone. -/
def ofStore (step : StateM σ α) : Action σ α :=
  ExceptT.mk fun w =>
    let (a, store) := step.run w.store
    (.ok a, { w with store })

@[simp] theorem runOn_ofStore (step : StateM σ α) (w : Workspace σ) :
    (ofStore step).runOn w = (.ok (step w.store).1, { w with store := (step w.store).2 }) := rfl

/-- A read of the store. -/
def read (step : StateM σ (Except Store.Fault α)) : Action σ (Except Store.Fault α) :=
  ofStore step

/-- A read of the store that ends the execution when it fails. -/
def fetch (step : StateM σ (Except Store.Fault α)) : Action σ α := do
  match ← read step with
  | .ok a => return a
  | .error e => throw (.store e)

/-- Resolves a name in the context. -/
def resolve (s : Context.Surroundings) (name : String) :
    Action σ (Except Context.Fault Symbol.Resolved) :=
  ExceptT.mk fun w =>
    let (found, context) := w.context.resolve s name
    (.ok found.result, { w with context })

@[simp] theorem runOn_resolve (s : Context.Surroundings) (name : String) (w : Workspace σ) :
    (resolve s name).runOn w =
      (.ok (w.context.resolve s name).1.result,
        { w with context := (w.context.resolve s name).2 }) := rfl

/-- Registers an archive with the context. -/
def register (s : Context.Surroundings) (hash : Hash) (bytes : Bytes) : Action σ Unit :=
  ExceptT.mk fun w =>
    let (r, context) := w.context.register s hash bytes
    (r.mapError .context, { w with context })

@[simp] theorem runOn_register (s : Context.Surroundings) (hash : Hash) (bytes : Bytes)
    (w : Workspace σ) :
    (register s hash bytes).runOn w =
      ((w.context.register s hash bytes).1.mapError .context,
        { w with context := (w.context.register s hash bytes).2 }) := rfl

/-- Looks at the workspace. -/
def inspect (f : Workspace σ → α) : Action σ α := ExceptT.mk fun w => (.ok (f w), w)

@[simp] theorem runOn_inspect (f : Workspace σ → α) (w : Workspace σ) :
    (inspect f).runOn w = (.ok (f w), w) := rfl

/-- Runs steps on the worker pool. -/
def all (steps : List (Action σ α)) : Action σ (List α) :=
  ExceptT.mk fun w => Pool.runAll (steps.map runOn) w

@[simp] theorem runOn_all (steps : List (Action σ α)) (w : Workspace σ) :
    (all steps).runOn w = Pool.runAll (steps.map runOn) w := rfl

end Action

end Notary.Engine
