/-
What a caller cannot read does not matter.

All reads of a call are made on behalf of the caller's key, and the writes behind the last of them
are answered with hashes of their own bytes. So two stores that show the caller the same give one
answer to a call. This holds for one call: what it writes may meet an object that was hidden so far,
and from then on the caller is shown that object.

* `Workspace.Indistinct` — the workspaces have one context, and the reader cannot tell their stores
  apart.
* `respects_indistinct` — steps in front of the storing of outputs cannot either.
* `answer_of_indistinct` — a call on a newly built engine has the same answer on both stores.
-/

import Notary.Proofs.Engine.Written
import Notary.Proofs.Store.Shown

namespace Notary.Engine

open Notary.Contract
open Notary.Engine.Action
open Notary.Store (MemoryStore)

/-- The context is the same, and the stores show the reader the same. -/
structure Workspace.Indistinct (reader : PublicKey) (w w' : Workspace MemoryStore) : Prop where
  store : MemoryStore.Indistinct reader w.store w'.store
  context : w.context = w'.context

variable {γ : Type} {s : Context.Surroundings} {reader : PublicKey}

/-! ### Steps -/

theorem respects_basic {α : Type} {act : Action MemoryStore α}
    (basic : Preparation s reader α act) : Respects (Workspace.Indistinct reader) act := by
  rintro ⟨store, context⟩ ⟨store', -⟩ ⟨same, rfl⟩
  cases basic with
  | lookup looks =>
    cases looks with
    | resolve name => exact ⟨rfl, same, rfl⟩
    | record type hash => exact ⟨congrArg Except.ok (same.lookup_eq hash _), same, rfl⟩
  | inspect f => exact ⟨rfl, same, rfl⟩
  | archive hash => exact ⟨congrArg Except.ok (same.lookup_eq hash _), same, rfl⟩
  | register hash bytes => exact ⟨rfl, same, rfl⟩

theorem respects_indistinct {α : Type} {act : Action MemoryStore α}
    (prepares : Prepares s reader act) : Respects (Workspace.Indistinct reader) act :=
  prepares.respects fun _ _ basic => respects_basic basic

/-- Storing outputs tells nothing about the store, so what is answered is decided before. -/
theorem execute_of_indistinct (r : Runtime γ) {caller : Caller} (scope : Option ScopeState)
    (extra : List PublicKey) (p : Plan) {w w' : Workspace MemoryStore}
    (same : Workspace.Indistinct caller.encryption.publicKey w w') :
    ((execute s r caller scope extra p).runOn w).1 =
      ((execute s r caller scope extra p).runOn w').1 := by
  have answers := (respects_indistinct (prepares_runContract s r _ p) w w' same).1
  rw [runOn_execute, runOn_execute]
  generalize (runContract s r caller.encryption.publicKey p).runOn w = left at answers
  generalize (runContract s r caller.encryption.publicKey p).runOn w' = right at answers
  obtain ⟨answer, w₁⟩ := left
  obtain ⟨answer', w₁'⟩ := right
  obtain rfl : answer = answer' := answers
  cases answer <;> rfl

/-! ### Calls -/

section Calls

variable {e : Engine MemoryStore γ} {caller : Caller} {store : MemoryStore}

theorem planned_of_indistinct
    (same : MemoryStore.Indistinct caller.encryption.publicKey e.store store) (c : Contract) :
    (e.planned caller c).1 = ({ e with store }.planned caller c).1 ∧
      MemoryStore.Indistinct caller.encryption.publicKey (e.planned caller c).2
        ({ e with store }.planned caller c).2 := by
  have prepares : Prepares e.surroundings caller.encryption.publicKey
      (loadSpecification c caller.encryption.publicKey : Action MemoryStore _) :=
    (looks_loadSpecification c).prepares
  obtain ⟨answers, stores⟩ :=
    respects_indistinct prepares ⟨e.store, .empty⟩ ⟨store, .empty⟩ ⟨same, rfl⟩
  unfold planned
  generalize (loadSpecification c caller.encryption.publicKey).runOn ⟨e.store, .empty⟩ = left
    at answers stores
  generalize (loadSpecification c caller.encryption.publicKey).runOn ⟨store, .empty⟩ = right
    at answers stores
  obtain ⟨answer, w₁⟩ := left
  obtain ⟨answer', w₁'⟩ := right
  obtain rfl : answer = answer' := answers
  cases answer <;> exact ⟨rfl, stores.store⟩

theorem handle_of_indistinct
    (same : MemoryStore.Indistinct caller.encryption.publicKey e.store store) (orders : MapOrders)
    (envelope : Envelope) (scope : Option ScopeState) (extra : List PublicKey) :
    (e.handle orders caller envelope scope extra).1 =
      ({ e with store }.handle orders caller envelope scope extra).1 := by
  cases submitted : envelope.contract with
  | none => simp only [handle, submitted]
  | some c =>
    rw [handle_eq e orders caller scope extra submitted,
      handle_eq _ orders caller scope extra submitted]
    obtain ⟨answers, stores⟩ := planned_of_indistinct same c
    generalize e.planned caller c = left at answers stores
    generalize { e with store }.planned caller c = right at answers stores
    obtain ⟨answer, store₁⟩ := left
    obtain ⟨answer', store₁'⟩ := right
    obtain rfl : answer = answer' := answers
    cases answer with
    | error f => rfl
    | ok p =>
      have executes : (e.executed orders caller scope extra p store₁).1 =
          ({ e with store }.executed orders caller scope extra p store₁').1 :=
        execute_of_indistinct _ scope extra p ⟨stores, rfl⟩
      simp only [executes]

end Calls

/-- Two stores may differ in all objects that the caller's key cannot read, and in which of these
there are. As long as they agree on the kind and the bytes of every object that it can read, engines
that are built over them give the same answer to every call: the same envelope or the same fault.
This holds for every order in which maps are written. Two calls that write them in different orders
give the same answer too, when the messages of the call come out alike in both, such as those
without a map of two entries. -/
theorem answer_of_indistinct {store store' : MemoryStore} {config : EngineConfig}
    {sandbox : Guest.Executor γ} {surroundings : Context.Surroundings}
    {cache : Option Context.ContextCache} {pool : Option Nat} {e e' : Engine MemoryStore γ}
    {caller : Caller} (same : MemoryStore.Indistinct caller.encryption.publicKey store store')
    (built : build (some store) config sandbox surroundings cache pool = .ok e)
    (built' : build (some store') config sandbox surroundings cache pool = .ok e')
    (envelope : Envelope) (scope : Option ScopeState) (extra : List PublicKey) :
    (∀ orders, (e.handle orders caller envelope scope extra).1 =
        (e'.handle orders caller envelope scope extra).1) ∧
      ∀ orders orders', e.WritesAlike orders orders' caller envelope →
        (e.handle orders caller envelope scope extra).1 =
          (e'.handle orders' caller envelope scope extra).1 := by
  have answers (orders : MapOrders) : (e.handle orders caller envelope scope extra).1 =
      (e'.handle orders caller envelope scope extra).1 := by
    cases built
    cases built'
    exact handle_of_indistinct same orders envelope scope extra
  refine ⟨answers, ?_⟩
  intro orders orders' alike
  rw [handle_of_writesAlike alike scope extra]
  exact answers orders'

namespace Sample

/-- Somebody else has stored the very bytes that the function is going to give, as another type. -/
def beside : List MemoryStore.Step := [.insertPrivateRecord "Other" output (.ofList [])]

theorem getElem?_seeds :
    (MemoryStore.after {} seeds).objects[contentHash output]? = none := by
  have other : contentHash (Wire.encode specification) ≠ contentHash output := by
    decide +kernel
  rw [MemoryStore.objects_after]
  simp [seeds, MemoryStore.writesOf, MemoryStore.Step.written?, MemoryStore.mergeAll, other]

theorem getElem?_beside :
    (MemoryStore.after {} (seeds ++ beside)).objects[contentHash output]? =
      some ⟨.record "Other", output, .only (.ofList []), none⟩ := by
  rw [MemoryStore.after_append, MemoryStore.objects_after, getElem?_seeds]
  simp [beside, MemoryStore.writesOf, MemoryStore.Step.written?, MemoryStore.mergeAll,
    MemoryStore.merge]

end Sample

open Sample in
/-- An output that is stored over a hidden object, by a call that writes maps in another order. -/
theorem answer_beside_hidden_object :
    ∃ e e' : Engine MemoryStore Guest.Instance,
      built (MemoryStore.after {} seeds) = .ok e ∧
      built (MemoryStore.after {} (seeds ++ beside)) = .ok e' ∧
      e.store.objects[contentHash output]? = none ∧
      e'.store.objects[contentHash output]? =
        some ⟨.record "Other", output, .only (.ofList []), none⟩ ∧
      MemoryStore.Indistinct caller.encryption.publicKey e.store e'.store ∧
      e.WritesAlike (fun _ => .asRead) (fun _ => .backwards) caller envelope ∧
      ∃ out, (e.handle (fun _ => .asRead) caller envelope none []).1 = .ok out ∧
        (e'.handle (fun _ => .backwards) caller envelope none []).1 = .ok out := by
  obtain ⟨e, new⟩ : ∃ e, built (MemoryStore.after {} seeds) = .ok e := ⟨_, rfl⟩
  obtain ⟨e', new'⟩ : ∃ e', built (MemoryStore.after {} (seeds ++ beside)) = .ok e' := ⟨_, rfl⟩
  have same : MemoryStore.Indistinct caller.encryption.publicKey (MemoryStore.after {} seeds)
      (MemoryStore.after {} (seeds ++ beside)) := by
    rw [MemoryStore.after_append]
    refine MemoryStore.indistinct_after _ ?_
    simp [beside, MemoryStore.Step.written?, Store.Audience.admits]
  have alike := writesAlike new (fun _ => .asRead) (fun _ => .backwards)
  obtain ⟨e₁, handled⟩ := handle_eq_answer (fun _ => .asRead) new none
  have answers := (answer_of_indistinct same new new' envelope none []).2 _ _ alike
  refine ⟨e, e', new, new', ?_, ?_, ?_, alike, _, by rw [handled], by rw [← answers, handled]⟩
  · cases new
    exact getElem?_seeds
  · cases new'
    exact getElem?_beside
  · cases new
    cases new'
    exact same

end Notary.Engine
