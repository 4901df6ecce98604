/-
Calls that are answered as by a new engine.

An engine keeps contexts from one call to the next. A call does not notice, unless an earlier call
on its context had to do without an archive that is there now, or asked for another module.

* `handle_after_eq_new` — a call after a history is answered as by a new engine on the same store.
* `missing_archive_is_not_fetched_again` — why calls of different callers need not go together.
-/

import Notary.Proofs.Engine.History
import Notary.Proofs.Engine.Written

namespace Notary.Engine

open Notary.Contract
open Notary.Context (Registered)
open Notary.Store (MemoryStore)

variable {γ : Type}

/-! ### Calls on contexts that were used before -/

/-- A call is answered as by an engine whose contexts are new when its context is ready for it. For
that it does not matter in which order maps are written. -/
theorem handle_eq_of_ready {e fresh : Engine MemoryStore γ} {orders orders' : MapOrders}
    {caller : Caller} {envelope : Envelope} {scope : Option ScopeState} {extra : List PublicKey}
    (store : fresh.store = e.store) (surroundings : fresh.surroundings = e.surroundings)
    (sandbox : fresh.sandbox = e.sandbox) (contexts : fresh.cache.contexts = [])
    (isPublic : e.store.ArchivesPublic)
    (ready : ∀ v ∈ e.visit? (.call orders caller envelope scope extra),
      v.Ready e.surroundings (e.cache.context v.place)) :
    (e.handle orders' caller envelope scope extra).1 =
      (fresh.handle orders' caller envelope scope extra).1 := by
  cases submitted : envelope.contract with
  | none => simp only [handle, submitted]
  | some c =>
    have same := e.objects_planned caller c
    have planned : fresh.planned caller c = e.planned caller c := by
      unfold Engine.planned
      rw [store]
    rw [handle_eq e orders' caller scope extra submitted,
      handle_eq fresh orders' caller scope extra submitted, planned]
    rcases plans : e.planned caller c with ⟨answer, later⟩
    rw [plans] at same
    cases answer with
    | error f => rfl
    | ok p =>
      simp only [visit?, submitted, plans, Option.mem_some_iff] at ready
      have place : (e.workspace later p.key).context =
          e.cache.context (e.cache.request p.key).1 :=
        Context.ContextCache.context_request e.cache p.key _
      have new : fresh.workspace later p.key = ⟨later, .empty⟩ := by
        have here := Context.ContextCache.context_request fresh.cache p.key
          (fresh.cache.request p.key).1
        rw [workspace, here, Context.ContextCache.context, contexts]
        rfl
      have answers : (e.executed orders' caller scope extra p later).1 =
          (fresh.executed orders' caller scope extra p later).1 := by
        rw [executed, executed, new, runtime, runtime, surroundings, sandbox]
        exact Attempt.execute_eq_new (a := ⟨e.store, caller.encryption.publicKey, p⟩)
          (w := e.workspace later p.key) isPublic rfl same (place ▸ ready _ rfl)
      simp only [answers]

/-- What an engine starts with whose cache is its own or a new one. -/
theorem parts_of_build {store : MemoryStore} {config : EngineConfig} {sandbox : Guest.Executor γ}
    {surroundings : Context.Surroundings} {shared pool : Option Nat} {e : Engine MemoryStore γ}
    (built : build (some store) config sandbox surroundings (shared.map .new) pool = .ok e) :
    e.store = store ∧ e.sandbox = sandbox ∧
      e.surroundings = (if shared.isSome then surroundings
        else { surroundings with options := config.context }) ∧
      ∃ capacity, e.cache = .new capacity := by
  cases built
  cases shared with
  | none => exact ⟨rfl, rfl, rfl, _, rfl⟩
  | some capacity => exact ⟨rfl, rfl, rfl, capacity, rfl⟩

/-- After any history of calls on an engine, and of other writes and reads on its store, a call is
answered as by a new engine on the same store, provided that all earlier executions on its context
go together with it. That the key of the context determines the archives is a matter of its hash.
The two calls may write maps in different orders, when the messages of the call come out alike in
both, such as those without a map of two entries. -/
theorem handle_after_eq_new {seed : List MemoryStore.Step} {config : EngineConfig}
    {sandbox : Guest.Executor γ} {surroundings : Context.Surroundings} {shared pool : Option Nat}
    {e fresh : Engine MemoryStore γ} {history : List Event}
    (built : build (some (MemoryStore.after {} seed)) config sandbox surroundings
      (shared.map .new) pool = .ok e)
    (rebuilt : build (some (e.after history).store) config sandbox surroundings
      (shared.map .new) pool = .ok fresh)
    {orders orders' : MapOrders} {caller : Caller} {envelope : Envelope}
    {scope : Option ScopeState} {extra : List PublicKey}
    (alike : (e.after history).WritesAlike orders orders' caller envelope)
    (unique : ∀ w ∈ (e.after history).visit? (.call orders caller envelope scope extra),
      ∀ v ∈ e.visits history, v.plan.key = w.plan.key → v.SameArchives w.toAttempt)
    (compatible : ∀ w ∈ (e.after history).visit? (.call orders caller envelope scope extra),
      ∀ v ∈ e.visits history, v.place = w.place → v.Compatible e.surroundings w.toAttempt) :
    ((e.after history).handle orders caller envelope scope extra).1 =
      (fresh.handle orders' caller envelope scope extra).1 := by
  obtain ⟨here, runs, options, capacity, cache⟩ := parts_of_build built
  obtain ⟨there, runs', options', capacity', cache'⟩ := parts_of_build rebuilt
  have isPublic : (e.after history).store.ArchivesPublic :=
    archivesPublic_after
      (here ▸ MemoryStore.archivesPublic_after MemoryStore.archivesPublic_empty seed) history
  have sound := sound_after (sound_of_no_contexts (by rw [cache]; rfl)) history
  have assigned := assigned_after (assigned_new cache) history
  obtain ⟨same, runsOn⟩ := e.settings_after history
  rw [handle_of_writesAlike alike scope extra]
  have ready : ∀ w ∈ (e.after history).visit? (.call orders caller envelope scope extra),
      w.Ready (e.after history).surroundings ((e.after history).cache.context w.place) := by
    intro w visit
    have store : w.store = (e.after history).store := (parts_of_visit visit).1
    refine sound w.place w.toAttempt ?_ ?_ ?_
    · rw [store]
      exact .refl _
    · rw [store]
      exact isPublic
    · intro v member place
      have key := key_eq_of_place_eq assigned visit member place
      rw [List.nil_append] at member
      rw [same]
      exact ⟨unique w visit v member key, compatible w visit v member place⟩
  exact handle_eq_of_ready there (by rw [same, options, options']) (by rw [runsOn, runs, runs'])
    (by rw [cache']; rfl) isPublic ready

/-! ### An archive that is missing for one caller -/

namespace Misplaced

/-- A record that stands where an archive belongs. -/
def record : Bytes := [1]

/-- A specification whose output names the record as its archive. -/
def specification : ContractSpecification := {
  definition := some { resourceLocation := some { classname := "m" } }
  functionSpecs := [{
    outputSpec := some {
      spec := some { resourceLocation := some (.new "" (contentHash record)) } } }] }

/-- The caller who may read the record. -/
def holder : Caller := ⟨⟨.zero⟩, ⟨.zero⟩⟩

/-- A caller who does not find it. -/
def stranger : Caller := ⟨⟨⟨List.replicate 32 1, rfl⟩⟩, ⟨.zero⟩⟩

/-- The specification is public. -/
def seeds : List MemoryStore.Step := [
  .insertRecord "ContractSpecification" (Wire.encode specification),
  .insertPrivateRecord "acme.Asset" record (.ofList [holder.encryption.publicKey])]

/-- A contract of the specification. -/
def contract : Contract := {
  spec := some (.new "spec" (.new "ContractSpecification"
    (contentHash (Wire.encode specification)))) }

def envelope : Envelope := { contract := some contract }

/-- The host has the module of the specification, which is no module. -/
def hosted : Context.Surroundings := { host := { modules := [("m", [])] } }

def plan : Plan where
  contract := contract
  specification := specification
  definition := { resourceLocation := some { classname := "m" } }
  output := some { resourceLocation := some (.new "" (contentHash record)) }

theorem objects_seeds :
    (MemoryStore.after {} seeds).objects[contentHash (Wire.encode specification)]? =
        some ⟨.record "ContractSpecification", Wire.encode specification, .everyone, none⟩ ∧
      (MemoryStore.after {} seeds).objects[contentHash record]? =
        some ⟨.record "acme.Asset", record, .only (.ofList [holder.encryption.publicKey]),
          none⟩ := by
  have different : contentHash record ≠ contentHash (Wire.encode specification) := by
    decide +kernel
  constructor
  · rw [MemoryStore.objects_after]
    simp [seeds, MemoryStore.writesOf, MemoryStore.Step.written?, MemoryStore.mergeAll,
      MemoryStore.merge, different]
  · rw [MemoryStore.objects_after]
    simp [seeds, MemoryStore.writesOf, MemoryStore.Step.written?, MemoryStore.mergeAll,
      MemoryStore.merge, different.symm]

theorem planned_of_seeds {e : Engine MemoryStore Guest.Instance}
    (objects : e.store.objects = (MemoryStore.after {} seeds).objects) (caller : Caller) :
    e.planned caller contract = (.ok plan, { e.store with reads := e.store.reads + 1 }) :=
  planned_of_published rfl (objects ▸ objects_seeds.1) (by decide +kernel)

/-- What becomes of the module. -/
def refusal : Guest.LoadFault := .guest (.refused (.notCompiled "malformed module"))

theorem loadContract_module : Guest.interpreter.loadContract [] = .error refusal := by
  rfl

/-- With the module at hand, the execution ends where it is loaded. -/
theorem runOn_rest (orders : MapOrders) (caller : Caller) (w : Workspace MemoryStore) :
    (rest hosted ⟨Guest.interpreter, orders⟩ caller none [] plan []).runOn w =
      (.error (.definition (.unloadableContract "m" refusal)), w) := by
  have fits : validate plan.contract plan.specification = .ok () := by
    simp [validate, recitalsMatch, factsSupplied, sorted, plan, contract, specification]
  have picked : (pickModule hosted plan [] : Action MemoryStore Bytes) = pure [] := by
    unfold pickModule
    rw [fits]
    rfl
  simp only [rest, picked, pure_bind, callFunctions, loadContract_module, Action.runOn_refuse]
  rfl

/-- The context is asked for the archive, and if there is none, for nothing else. -/
theorem executed_of_answer (orders : MapOrders) (caller : Caller) {w : Workspace MemoryStore}
    (module : w.context.answer hosted "m" = .ok ⟨"m", .parent, .module []⟩) :
    let got := fetched hosted w.store caller.encryption.publicKey
      (Attempt.tolerated hosted) (some (contentHash record)) w.context.registered
    let ran := (execute hosted ⟨Guest.interpreter, orders⟩ caller none [] plan).runOn w
    (∀ f, got = .error f → ran.1 = .error f) ∧
      ∀ r, got = .ok r →
        ran.1 = .error (.definition (.unloadableContract "m" refusal)) ∧
          ran.2.store.objects = w.store.objects ∧
          ran.2.context = { (w.context.resolve hosted "m").2 with registered := r } := by
  intro got ran
  let a : Attempt := ⟨w.store, caller.encryption.publicKey, plan⟩
  have definition : a.definition = none := rfl
  have output : a.output = some (contentHash record) := by
    simp [Attempt.output, a, plan, DefinitionSpec.contentHash?, DefinitionSpec.hashBytes,
      Location.new]
  have opened : (a.opening hosted).runOn w = (a.later hosted).runOn w := by
    rw [Attempt.runOn_opening]
    rfl
  obtain ⟨w', later, same, outcome⟩ := Attempt.runOn_later (s := hosted) a (w := w) rfl
    (by simp [definition])
  have answered : (a.opening hosted).runOn w = (got.map fun _ => [], w') := by
    rw [opened, later, output, show a.module = "m" from rfl, module]
    rfl
  have steps : execute hosted ⟨Guest.interpreter, orders⟩ caller none [] plan =
      a.opening hosted >>= rest hosted ⟨Guest.interpreter, orders⟩ caller none [] plan :=
    execute_eq a rfl
  constructor
  · intro f refused
    have ended : ran = (.error f, w') := by
      simp only [ran, steps, Action.runOn_bind, answered, refused, Except.map]
    rw [ended]
  · intro r obtained
    have ended : ran = (.error (.definition (.unloadableContract "m" refusal)), w') := by
      simp only [ran, steps, Action.runOn_bind, answered, obtained, Except.map, runOn_rest]
    rw [ended]
    refine ⟨rfl, same, ?_⟩
    rcases outcome with ⟨failed, -⟩ | ⟨x, r', -, got', context⟩
    · have answered' : ((a.later hosted).runOn w).1 = .ok [] := by
        rw [← opened, answered, obtained]
        rfl
      exact absurd answered' (failed [])
    · rw [output] at got'
      obtain rfl : r = r' := Except.ok.inj (obtained.symm.trans got')
      exact context

/-- Maps are written as they were read. -/
def asRead : MapOrders := fun _ => .asRead

/-- A call with the contract. -/
def call (caller : Caller) : Event := .call asRead caller envelope none []

/-- The answer to a call, and the context behind it. -/
theorem handled_of_context {e : Engine MemoryStore Guest.Instance} {c : Context}
    (objects : e.store.objects = (MemoryStore.after {} seeds).objects)
    (around : e.surroundings = hosted) (runs : e.sandbox = Guest.interpreter)
    (context : e.cache.context (e.cache.request plan.key).1 = c)
    (module : c.answer hosted "m" = .ok ⟨"m", .parent, .module []⟩) (caller : Caller) :
    let got := fetched hosted e.store caller.encryption.publicKey (Attempt.tolerated hosted)
      (some (contentHash record)) c.registered
    let answer := (e.handle asRead caller envelope none []).1
    (∀ f, got = .error f → answer = .error f) ∧
      ∀ r, got = .ok r →
        answer = .error (.definition (.unloadableContract "m" refusal)) ∧
          (e.apply (call caller)).store.objects = e.store.objects ∧
          (e.apply (call caller)).cache =
            (e.cache.request plan.key).2.2.setContext (e.cache.request plan.key).1
              { (c.resolve hosted "m").2 with registered := r } := by
  have here : (e.workspace { e.store with reads := e.store.reads + 1 } plan.key).context = c :=
    (Context.ContextCache.context_request e.cache plan.key _).trans context
  have outcome := executed_of_answer asRead caller
    (w := e.workspace { e.store with reads := e.store.reads + 1 } plan.key) (here ▸ module)
  rw [here] at outcome
  have submitted : envelope.contract = some contract := rfl
  have answered := handle_eq e asRead caller none [] submitted
  rw [planned_of_seeds objects caller] at answered
  simp only [Engine.executed, runtime, around, runs] at answered
  constructor
  · intro f refused
    rw [answered, outcome.1 f refused]
    rfl
  · intro r obtained
    obtain ⟨ended, same, left⟩ := outcome.2 r obtained
    simp only [call, apply, answered, ended, left]
    exact ⟨rfl, same, trivial⟩

/-- Without the archive, nothing but its hash is registered. -/
def left : Context :=
  { (Context.empty.resolve hosted "m").2 with registered := { hashes := [contentHash record] } }

theorem answers :
    Context.empty.answer hosted "m" = .ok ⟨"m", .parent, .module []⟩ ∧
      left.answer hosted "m" = .ok ⟨"m", .parent, .module []⟩ := by
  constructor <;> rfl

/-- Only the holder is told that the record is no archive. -/
theorem lookup_record (store : MemoryStore)
    (objects : store.objects = (MemoryStore.after {} seeds).objects) :
    store.lookup (contentHash record) stranger.encryption.publicKey .archive =
        .error (.notFound (contentHash record)) ∧
      store.lookup (contentHash record) holder.encryption.publicKey .archive =
        .error (.typeMismatch (contentHash record) .archive (.record "acme.Asset")) := by
  have distinct : stranger.encryption.publicKey ≠ holder.encryption.publicKey := by
    decide +kernel
  have stored := objects_seeds.2
  rw [← objects] at stored
  constructor
  · simp [MemoryStore.lookup, stored, Store.Audience.admits, distinct]
  · simp [MemoryStore.lookup, stored, Store.Audience.admits]

/-- A new engine over a store. -/
def built (store : MemoryStore) : Except Fault (Engine MemoryStore Guest.Instance) :=
  build (some store) {} Guest.interpreter hosted none none

/-- What it starts with. -/
theorem parts_of_hosted {store : MemoryStore} {e : Engine MemoryStore Guest.Instance}
    (new : built store = .ok e) :
    e.store = store ∧ e.surroundings = hosted ∧ e.sandbox = Guest.interpreter ∧
      e.cache = .new 100 := by
  cases new
  exact ⟨rfl, rfl, rfl, rfl⟩

theorem context_new {e : Engine MemoryStore Guest.Instance} (cache : e.cache = .new 100) :
    e.cache.context (e.cache.request plan.key).1 = .empty := by
  rw [cache]
  rfl

/-- What is left by a call of the stranger on a new engine. -/
theorem after_stranger {e : Engine MemoryStore Guest.Instance}
    (new : built (MemoryStore.after {} seeds) = .ok e) :
    (e.after [call stranger]).store.objects = (MemoryStore.after {} seeds).objects ∧
      (e.after [call stranger]).surroundings = hosted ∧
      (e.after [call stranger]).sandbox = Guest.interpreter ∧
      (e.after [call stranger]).cache.context
        ((e.after [call stranger]).cache.request plan.key).1 = left := by
  obtain ⟨store, around, runs, cache⟩ := parts_of_hosted new
  have objects : e.store.objects = (MemoryStore.after {} seeds).objects := by rw [store]
  have got : fetched hosted e.store stranger.encryption.publicKey (Attempt.tolerated hosted)
      (some (contentHash record)) Context.empty.registered =
        .ok { hashes := [contentHash record] } := by
    rw [fetched_some, (lookup_record e.store objects).1]
    rfl
  obtain ⟨-, same, kept⟩ :=
    (handled_of_context objects around runs (context_new cache) answers.1 stranger).2 _ got
  obtain ⟨around', runs'⟩ := e.settings_after [call stranger]
  refine ⟨same.trans objects, around'.trans around, runs'.trans runs, ?_⟩
  have caches : (e.after [call stranger]).cache = (e.apply (call stranger)).cache := rfl
  rw [caches, kept, cache]
  exact Context.ContextCache.context_setContext_new 100 plan.key left

end Misplaced

open Misplaced in
/-- A caller for whom the archive is still missing is answered as by a new engine. -/
theorem stranger_called_again :
    ∃ e fresh : Engine MemoryStore Guest.Instance,
      built (MemoryStore.after {} seeds) = .ok e ∧
      built (e.after [call stranger]).store = .ok fresh ∧
      e.visits [call stranger] ≠ [] ∧
      ((e.after [call stranger]).handle asRead stranger envelope none []).1 =
        (fresh.handle asRead stranger envelope none []).1 := by
  obtain ⟨e, new⟩ : ∃ e, built (MemoryStore.after {} seeds) = .ok e := ⟨_, rfl⟩
  obtain ⟨fresh, renewed⟩ : ∃ fresh, built (e.after [call stranger]).store = .ok fresh := ⟨_, rfl⟩
  -- Neither engine shares a cache.
  have own : build (some (MemoryStore.after {} seeds)) {} Guest.interpreter hosted
      (Option.map .new none) none = .ok e := new
  have own' : build (some (e.after [call stranger]).store) {} Guest.interpreter hosted
      (Option.map .new none) none = .ok fresh := renewed
  obtain ⟨store, -⟩ := parts_of_hosted new
  obtain ⟨objects, -⟩ := after_stranger new
  have before : e.planned stranger contract = _ := planned_of_seeds (by rw [store]) stranger
  have later := planned_of_seeds objects stranger
  have first : ∀ v ∈ e.visits [call stranger],
      v.toAttempt = ⟨e.store, stranger.encryption.publicKey, plan⟩ := by
    intro v member
    exact toAttempt_of_visit rfl before (by simpa [visits, call] using member)
  have alike := (e.after [call stranger]).writesAlike_refl asRead stranger envelope
  refine ⟨e, fresh, new, renewed, ?_, handle_after_eq_new own own' alike ?_ ?_⟩
  · simp [visits, visit?, call, envelope, before]
  · intro w visit v member _
    rw [first v member, toAttempt_of_visit rfl later visit]
    exact ⟨rfl, rfl⟩
  · intro w visit v member _
    have second := toAttempt_of_visit rfl later visit
    constructor
    · left
      rw [first v member, second]
      rfl
    · intro h asked registered refused
      rw [first v member] at refused
      rw [second, ← refused]
      exact MemoryStore.lookup_congr (by rw [objects, store]) h _ _

open Misplaced in
/-- An archive that was missing for one caller is not fetched for the next one. -/
theorem missing_archive_is_not_fetched_again :
    ∃ e fresh : Engine MemoryStore Guest.Instance,
      built (MemoryStore.after {} seeds) = .ok e ∧
      built (e.after [call stranger]).store = .ok fresh ∧
      ((e.after [call stranger]).handle asRead holder envelope none []).1 =
        .error (.definition (.unloadableContract "m" refusal)) ∧
      (fresh.handle asRead holder envelope none []).1 =
        .error (.store (.typeMismatch (contentHash record) .archive (.record "acme.Asset"))) := by
  obtain ⟨e, new⟩ : ∃ e, built (MemoryStore.after {} seeds) = .ok e := ⟨_, rfl⟩
  obtain ⟨fresh, renewed⟩ : ∃ fresh, built (e.after [call stranger]).store = .ok fresh := ⟨_, rfl⟩
  obtain ⟨objects, around, runs, context⟩ := after_stranger new
  refine ⟨e, fresh, new, renewed, ?_, ?_⟩
  · have got : fetched hosted (e.after [call stranger]).store holder.encryption.publicKey
        (Attempt.tolerated hosted) (some (contentHash record)) left.registered =
          .ok left.registered :=
      fetched_of_contains (by simp [left])
    exact ((handled_of_context objects around runs context answers.2 holder).2 _ got).1
  · obtain ⟨store, around', runs', cache⟩ := parts_of_hosted renewed
    have objects' : fresh.store.objects = (MemoryStore.after {} seeds).objects := store ▸ objects
    have got : fetched hosted fresh.store holder.encryption.publicKey (Attempt.tolerated hosted)
        (some (contentHash record)) Context.empty.registered =
          .error (.store (.typeMismatch (contentHash record) .archive (.record "acme.Asset"))) := by
      rw [store, fetched_some, (lookup_record _ objects).2]
      rfl
    exact (handled_of_context objects' around' runs' (context_new cache) answers.1 holder).1 _ got

end Notary.Engine
