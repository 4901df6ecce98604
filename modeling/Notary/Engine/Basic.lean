/-
Engines: they execute the contracts of envelopes against a store.

* `Engine.build` — an engine over a store, on its own or with parts that it shares.
* `Engine.start` — builds an engine and its pool, when there is one to be made.
* `Engine.handle` — executes an envelope. Whatever became of the functions, an envelope that comes
  back has one more signature.
-/

import Notary.Contract.Seal
import Notary.Engine.Config
import Notary.Engine.Execution
import Notary.Pool.Schedule

namespace Notary

open Notary.Engine
open Notary.Contract

/-- An engine with its store, its contexts and what runs its guests. -/
structure Engine (σ γ : Type) where
  store : σ
  surroundings : Context.Surroundings
  cache : Context.ContextCache
  sandbox : Guest.Executor γ
  /-- How many tasks run at once. -/
  poolSize : Nat
  config : EngineConfig

namespace Engine

variable {σ γ : Type}

/-- An engine over a store. A shared cache brings its own surroundings, and with a shared pool goes
its size. -/
def build (store : Option σ) (config : EngineConfig) (sandbox : Guest.Executor γ)
    (surroundings : Context.Surroundings) (sharedCache : Option Context.ContextCache)
    (sharedPool : Option Nat) : Except Fault (Engine σ γ) :=
  match store with
  | none => .error .noStore
  | some store =>
    .ok {
      store
      surroundings := if sharedCache.isSome then surroundings
        else { surroundings with options := config.context }
      cache := sharedCache.getD (.new config.contextCacheCapacity)
      sandbox
      poolSize := sharedPool.getD (max config.workerPoolSize 1)
      config }

/-- Builds an engine over a store, with a pool of its own unless it shares one. When that pool would
have more permits than there can be the start breaks down, which leaves no error. -/
def start (store : Option σ) (config : EngineConfig) (sandbox : Guest.Executor γ)
    (surroundings : Context.Surroundings) (sharedCache : Option Context.ContextCache)
    (sharedPool : Option Nat) : Pool.Ending Fault (Engine σ γ) :=
  match store, sharedPool with
  | some _, none =>
    match Pool.permits? config.workerPoolSize with
    | none => .crash
    | some permits => .ofExcept (build store config sandbox surroundings sharedCache (some permits))
  | _, _ => .ofExcept (build store config sandbox surroundings sharedCache sharedPool)

/-- What runs the functions of a call. -/
def runtime (e : Engine σ γ) (orders : MapOrders) : Runtime γ := ⟨e.sandbox, orders⟩

variable [Store.ObjectStore σ]

/-- Executes the pending considerations of an envelope. Outputs are readable by the parties of the
contract, the caller and an extra audience; the scope says which outputs they supersede. In which
order the entries of maps are written is another matter for each call. -/
def handle (e : Engine σ γ) (orders : MapOrders) (caller : Caller) (envelope : Envelope)
    (scope : Option ScopeState) (extra : List PublicKey) : Except Fault Envelope × Engine σ γ :=
  match envelope.contract with
  | none => (.error (.definition .noContract), e)
  | some c =>
    let load := loadSpecification c caller.encryption.publicKey
    match load.runOn ⟨e.store, .empty⟩ with
    | (.error f, w) => (.error f, { e with store := w.store })
    | (.ok spec, w) =>
      let e := { e with store := w.store }
      match Plan.of c spec with
      | .error f => (.error f, e)
      | .ok plan =>
        let (i, _, cache) := e.cache.request plan.key
        let act := execute e.surroundings (e.runtime orders) caller scope extra plan
        let (r, w) := act.runOn ⟨e.store, cache.context i⟩
        let e := { e with store := w.store, cache := cache.setContext i w.context }
        match r with
        | .error f => (.error f, e)
        | .ok c => (.ok (envelope.withSealed c caller.signing), e)

end Engine

end Notary
