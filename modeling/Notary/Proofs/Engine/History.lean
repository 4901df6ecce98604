/-
Histories of an engine.

Calls with the same key share a context as long as the cache keeps it. What such a context holds
depends on the calls that were made on it.

* `Event`, `after`, `visits` — calls and what else happens to the store, and the calls that were
  made on each context.
* `Visit.Compatible` — an earlier call goes together with a later one.
* `apply_cases` — an event at most adds to the store, or executes a plan on the context of its key.
* `Sound`, `sound_after` — every context is ready for the attempts with which all calls on it go
  together.
* `Assigned`, `key_eq_of_place_eq` — calls on one context have one key.
-/

import Notary.Proofs.Context.Places
import Notary.Proofs.Engine.Handle
import Notary.Proofs.Engine.Reuse

namespace Notary.Engine

open Notary.Contract
open Notary.Store (MemoryStore)

variable {γ : Type}

/-! ### Histories -/

/-- A call of the engine, or something that happens to its store otherwise. -/
inductive Event where
  | call (orders : MapOrders) (caller : Caller) (envelope : Envelope) (scope : Option ScopeState)
    (extra : List PublicKey)
  | store (step : MemoryStore.Step)

/-- The engine after an event. -/
def apply (e : Engine MemoryStore γ) : Event → Engine MemoryStore γ
  | .call orders caller envelope scope extra => (e.handle orders caller envelope scope extra).2
  | .store step => { e with store := step.apply e.store }

/-- The engine that a history leaves. -/
def after (e : Engine MemoryStore γ) (history : List Event) : Engine MemoryStore γ :=
  history.foldl apply e

/-- A call that came to be executed: the attempt, the place of its context, and how it left that. -/
structure Visit extends Attempt where
  place : Nat
  left : Context

/-- The execution that an event comes to. -/
def visit? (e : Engine MemoryStore γ) : Event → Option Visit
  | .store _ => none
  | .call orders caller envelope scope extra =>
    match envelope.contract with
    | none => none
    | some c =>
      match e.planned caller c with
      | (.error _, _) => none
      | (.ok p, store) => some {
          store := e.store
          reader := caller.encryption.publicKey
          plan := p
          place := (e.cache.request p.key).1
          left := (e.executed orders caller scope extra p store).2.context }

/-- The executions of a history. -/
def visits (e : Engine MemoryStore γ) : List Event → List Visit
  | [] => []
  | event :: rest => (e.visit? event).toList ++ visits (e.apply event) rest

/-- The earlier execution goes together with a later attempt on its context: it asked for the same
module, or for one that resolves alike with and without the output's archive, as the later one does;
and an archive that it had to do without is still missing. -/
structure Visit.Compatible (s : Context.Surroundings) (v : Visit) (b : Attempt) : Prop where
  module : v.module = b.module ∨ b.Stable s v.module ∧ b.Stable s b.module
  missing : ∀ h ∈ v.output, v.left.isRegistered h = true →
    v.store.lookup h v.reader .archive = .error (.notFound h) →
    b.store.lookup h b.reader .archive = .error (.notFound h)

/-- Two attempts ask for the same archives. -/
def Attempt.SameArchives (a b : Attempt) : Prop := a.definition = b.definition ∧ a.output = b.output

/-! ### Executions of calls -/

/-- The attempt behind the execution of a call. -/
theorem toAttempt_of_visit {e : Engine MemoryStore γ} {orders : MapOrders} {caller : Caller}
    {envelope : Envelope} {scope : Option ScopeState} {extra : List PublicKey} {c : Contract}
    {p : Plan} {store : MemoryStore} {v : Visit} (submitted : envelope.contract = some c)
    (plans : e.planned caller c = (.ok p, store))
    (visit : v ∈ e.visit? (.call orders caller envelope scope extra)) :
    v.toAttempt = ⟨e.store, caller.encryption.publicKey, p⟩ := by
  simp only [visit?, submitted, plans, Option.mem_some_iff] at visit
  rw [← visit]

/-- Executing a plan takes nothing from the store, and gives no archive an audience. -/
theorem grown_executed {e : Engine MemoryStore γ} {store : MemoryStore}
    (same : store.objects = e.store.objects) (orders : MapOrders) (caller : Caller)
    (scope : Option ScopeState) (extra : List PublicKey) (p : Plan) :
    e.store.Extends (e.executed orders caller scope extra p store).2.store ∧
      (e.store.ArchivesPublic →
        (e.executed orders caller scope extra p store).2.store.ArchivesPublic) := by
  have kept : Action.Frame.grown.rel (e.workspace store p.key)
      (e.executed orders caller scope extra p store).2 := keeps_grown_execute p _
  constructor
  · exact (MemoryStore.extends_of_objects_eq same).trans kept.1
  · intro isPublic
    exact kept.2 (MemoryStore.archivesPublic_congr same.symm isPublic)

/-- What an event comes to. Either nothing is executed and the store at most grows, or a plan is
executed on the context of its key, and the cache keeps what that becomes. -/
theorem apply_cases (e : Engine MemoryStore γ) (event : Event) :
    (∃ store, e.store.Extends store ∧ (e.store.ArchivesPublic → store.ArchivesPublic) ∧
        e.visit? event = none ∧ e.apply event = { e with store }) ∨
      ∃ orders caller scope extra p store, store.objects = e.store.objects ∧
        e.visit? event = some {
          store := e.store
          reader := caller.encryption.publicKey
          plan := p
          place := (e.cache.request p.key).1
          left := (e.executed orders caller scope extra p store).2.context } ∧
        e.apply event = { e with
          store := (e.executed orders caller scope extra p store).2.store
          cache := (e.cache.request p.key).2.2.setContext (e.cache.request p.key).1
            (e.executed orders caller scope extra p store).2.context } := by
  cases event with
  | store step =>
    left
    exact ⟨step.apply e.store, step.apply_extends e.store, step.archivesPublic_apply, rfl, rfl⟩
  | call orders caller envelope scope extra =>
    cases submitted : envelope.contract with
    | none =>
      left
      refine ⟨e.store, .refl e.store, id, ?_, ?_⟩
      · simp only [visit?, submitted]
      · simp only [apply, handle, submitted]
    | some c =>
      have handled := handle_eq e orders caller scope extra submitted
      have same := e.objects_planned caller c
      rcases plans : e.planned caller c with ⟨answer, store⟩
      rw [plans] at handled same
      cases answer with
      | error f =>
        left
        refine ⟨store, MemoryStore.extends_of_objects_eq same,
          MemoryStore.archivesPublic_congr same.symm, ?_, congrArg Prod.snd handled⟩
        simp only [visit?, submitted, plans]
      | ok p =>
        right
        refine ⟨orders, caller, scope, extra, p, store, same, ?_, congrArg Prod.snd handled⟩
        simp only [visit?, submitted, plans]

/-- An execution starts from the store of its engine, on the context of its key. -/
theorem parts_of_visit {e : Engine MemoryStore γ} {event : Event} {v : Visit}
    (visit : v ∈ e.visit? event) :
    v.store = e.store ∧ v.place = (e.cache.request v.plan.key).1 := by
  rcases apply_cases e event with ⟨_, -, -, idle, -⟩ | ⟨_, _, _, _, _, _, -, visited, -⟩
  · rw [idle] at visit
    cases visit
  · rw [visited] at visit
    cases visit
    exact ⟨rfl, rfl⟩

/-! ### The invariant -/

/-- Every context is ready for every later attempt that asks for the same archives as all executions
on it, and with which they go together. -/
def Sound (e : Engine MemoryStore γ) (vs : List Visit) : Prop :=
  ∀ (i : Nat) (b : Attempt), e.store.Extends b.store → b.store.ArchivesPublic →
    (∀ v ∈ vs, v.place = i → v.SameArchives b ∧ v.Compatible e.surroundings b) →
    b.Ready e.surroundings (e.cache.context i)

theorem sound_of_no_contexts {e : Engine MemoryStore γ} (none : e.cache.contexts = []) :
    Sound e [] := by
  intro i b _ _ _
  have empty : e.cache.context i = .empty := by simp [Context.ContextCache.context, none]
  rw [empty]
  exact .new

/-- A store that has grown does no harm. -/
theorem Sound.grown {e : Engine MemoryStore γ} {vs : List Visit} (sound : Sound e vs)
    {store : MemoryStore} (grown : e.store.Extends store) :
    Sound { e with store } vs := by
  intro i b later isPublic compatible
  exact sound i b (grown.trans later) isPublic compatible

/-! ### One event -/

theorem sound_apply {e : Engine MemoryStore γ} {vs : List Visit} (sound : Sound e vs)
    (event : Event) : Sound (e.apply event) (vs ++ (e.visit? event).toList) := by
  rcases apply_cases e event with ⟨store, grown, -, idle, changed⟩ |
    ⟨orders, caller, scope, extra, p, store, same, visited, changed⟩
  · rw [idle, changed, Option.toList_none, List.append_nil]
    exact sound.grown grown
  · rw [visited, changed]
    have before := (grown_executed same orders caller scope extra p).1
    intro i b grown isPublic compatible
    have earlier : b.Ready e.surroundings (e.cache.context i) := by
      refine sound i b (before.trans grown) isPublic ?_
      intro v member
      exact compatible v (List.mem_append_left _ member)
    rcases Context.ContextCache.context_setContext (e.cache.request p.key).2.2
      (e.cache.request p.key).1 i (e.executed orders caller scope extra p store).2.context with
      other | ⟨rfl, own⟩
    · simp only [other, Context.ContextCache.context_request]
      exact earlier
    · -- The context of the execution: it was ready for the later attempt, and stays so.
      have place : (e.workspace store p.key).context =
          e.cache.context (e.cache.request p.key).1 :=
        Context.ContextCache.context_request e.cache p.key _
      obtain ⟨archives, goes⟩ :=
        compatible _ (List.mem_append_right vs (List.mem_singleton.mpr rfl)) rfl
      have suits : Attempt.Suits e.surroundings ⟨e.store, caller.encryption.publicKey, p⟩ b :=
        ⟨⟨before.trans grown, isPublic, archives.1, archives.2⟩, goes.module⟩
      simp only [own]
      exact Attempt.ready_execute suits rfl same (place ▸ earlier) goes.missing

/-! ### Keys -/

/-- The places of contexts have owners, and executions were made on the context of their key. -/
def Assigned (e : Engine MemoryStore γ) (vs : List Visit) : Prop :=
  ∃ owner, e.cache.Owned owner ∧
    ∀ v ∈ vs, v.place < e.cache.contexts.length ∧ owner v.place = v.plan.key

theorem assigned_new {e : Engine MemoryStore γ} {capacity : Nat} (cache : e.cache = .new capacity) :
    Assigned e [] := by
  refine ⟨fun _ => ⟨.zero⟩, ?_, ?_⟩
  · intro entry member
    rw [cache] at member
    cases member
  · intro v member
    cases member

theorem assigned_apply {e : Engine MemoryStore γ} {vs : List Visit} (assigned : Assigned e vs)
    (event : Event) : Assigned (e.apply event) (vs ++ (e.visit? event).toList) := by
  rcases apply_cases e event with ⟨store, -, -, idle, changed⟩ |
    ⟨orders, caller, scope, extra, p, store, -, visited, changed⟩
  · rw [idle, changed, Option.toList_none, List.append_nil]
    exact assigned
  · rw [visited, changed]
    obtain ⟨owner, owned, executions⟩ := assigned
    obtain ⟨owner', owned', own, inside, more, others⟩ :=
      Context.ContextCache.owned_request owned p.key
    refine ⟨owner', owned'.setContext _ _, ?_⟩
    intro v member
    have room : ((e.cache.request p.key).2.2.setContext (e.cache.request p.key).1
        (e.executed orders caller scope extra p store).2.context).contexts.length =
          (e.cache.request p.key).2.2.contexts.length := by
      simp [Context.ContextCache.setContext]
    rw [room]
    rcases List.mem_append.mp member with old | new
    · obtain ⟨known, owns⟩ := executions v old
      exact ⟨Nat.lt_of_lt_of_le known more, (others _ known).trans owns⟩
    · obtain rfl := List.mem_singleton.mp new
      exact ⟨inside, own⟩

theorem key_eq_of_place_eq {e : Engine MemoryStore γ} {vs : List Visit} (assigned : Assigned e vs)
    {event : Event} {w : Visit} (visit : w ∈ e.visit? event) {v : Visit} (member : v ∈ vs)
    (place : v.place = w.place) : v.plan.key = w.plan.key := by
  obtain ⟨owner, owned, executions⟩ := assigned
  obtain ⟨owner', -, own, -, -, others⟩ :=
    Context.ContextCache.owned_request owned w.plan.key
  obtain ⟨known, owns⟩ := executions v member
  rw [← owns, ← others _ known, place, (parts_of_visit visit).2, own]

/-! ### All events -/

/-- An engine keeps its surroundings, and what runs its guests. -/
theorem settings_after (e : Engine MemoryStore γ) (history : List Event) :
    (e.after history).surroundings = e.surroundings ∧ (e.after history).sandbox = e.sandbox := by
  induction history generalizing e with
  | nil => exact ⟨rfl, rfl⟩
  | cons event rest ih =>
    have here : (e.apply event).surroundings = e.surroundings ∧
        (e.apply event).sandbox = e.sandbox := by
      rcases apply_cases e event with ⟨_, -, -, -, changed⟩ | ⟨_, _, _, _, _, _, -, -, changed⟩ <;>
        simp only [changed, and_self]
    exact ⟨(ih (e.apply event)).1.trans here.1, (ih (e.apply event)).2.trans here.2⟩

theorem archivesPublic_apply {e : Engine MemoryStore γ} (isPublic : e.store.ArchivesPublic)
    (event : Event) : (e.apply event).store.ArchivesPublic := by
  rcases apply_cases e event with ⟨_, -, kept, -, changed⟩ |
    ⟨orders, caller, scope, extra, p, store, same, -, changed⟩
  · rw [changed]
    exact kept isPublic
  · rw [changed]
    exact (grown_executed same orders caller scope extra p).2 isPublic

theorem archivesPublic_after {e : Engine MemoryStore γ} (isPublic : e.store.ArchivesPublic)
    (history : List Event) : (e.after history).store.ArchivesPublic := by
  induction history generalizing e with
  | nil => exact isPublic
  | cons event rest ih => exact ih (archivesPublic_apply isPublic event)

theorem assigned_after {e : Engine MemoryStore γ} {vs : List Visit} (assigned : Assigned e vs)
    (history : List Event) : Assigned (e.after history) (vs ++ e.visits history) := by
  induction history generalizing e vs with
  | nil => simpa [visits, after] using assigned
  | cons event rest ih =>
    rw [visits, ← List.append_assoc]
    exact ih (assigned_apply assigned event)

theorem sound_after {e : Engine MemoryStore γ} {vs : List Visit} (sound : Sound e vs)
    (history : List Event) : Sound (e.after history) (vs ++ e.visits history) := by
  induction history generalizing e vs with
  | nil => simpa [visits, after] using sound
  | cons event rest ih =>
    rw [visits, ← List.append_assoc]
    exact ih (sound_apply sound event)

end Notary.Engine
