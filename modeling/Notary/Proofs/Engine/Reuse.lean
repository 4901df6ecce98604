/-
Executing a plan on a context that was used before.

Once both archives are registered, an execution only looks names up, reads records, and stores
outputs. It neither depends on which names the context keeps, nor changes what the context answers.

* `ready_execute` — an execution leaves its context ready for a later one that suits it.
* `execute_eq_new` — an execution on a context that is ready for it is answered as on a new one.
-/

import Notary.Proofs.Engine.Execution
import Notary.Proofs.Engine.Ready

namespace Notary.Engine

open Notary.Contract
open Notary.Store (MemoryStore)
open Notary.Engine.Action

variable {γ : Type} {s : Context.Surroundings} {r : Runtime γ} {caller : Caller}
  {scope : Option ScopeState} {extra : List PublicKey}

/-! ### Storing outputs -/

/-- What the context answers stays as it is. -/
def Action.Frame.context (s : Context.Surroundings) : Frame MemoryStore where
  rel w w' := w'.context.registered = w.context.registered ∧
    ∀ name, w'.context.answer s name = w.context.answer s name
  refl _ := ⟨rfl, fun _ => rfl⟩
  trans first second := ⟨second.1.trans first.1, fun name => (second.2 name).trans (first.2 name)⟩

/-- The store only grows. -/
def Action.Frame.grown : Frame MemoryStore where
  rel w w' := w.store.Extends w'.store ∧ (w.store.ArchivesPublic → w'.store.ArchivesPublic)
  refl w := ⟨.refl w.store, id⟩
  trans first second := ⟨first.1.trans second.1, second.2 ∘ first.2⟩

theorem Action.Keeps.grown_of_objects {α : Type} {act : Action MemoryStore α}
    (kept : Keeps Frame.objects act) : Keeps Frame.grown act := by
  refine kept.mono ?_
  intro w w' same
  exact ⟨MemoryStore.extends_of_objects_eq same.symm, MemoryStore.archivesPublic_congr same⟩

theorem Action.Steady.keeps_context {α : Type} {act : Action MemoryStore α}
    (steady : Steady s act) : Keeps (Frame.context s) act :=
  steady.keeps.mono fun _ _ alike =>
    ⟨alike.registered.symm, fun name => (alike.answers name).symm⟩

theorem respects_conclude (c : Contract) (performed : List Prepared × GuestRun) :
    Respects (Workspace.Alike s) (conclude caller scope extra c performed) := by
  intro w w' alike
  rw [runOn_conclude, runOn_conclude]
  exact ⟨rfl, MemoryStore.objects_after_congr alike.objects _, alike.registered, alike.answers⟩

theorem keeps_context_conclude (c : Contract) (performed : List Prepared × GuestRun) :
    Keeps (Frame.context s) (conclude caller scope extra c performed) := by
  intro w
  rw [runOn_conclude]
  exact ⟨rfl, fun _ => rfl⟩

theorem keeps_grown_conclude (c : Contract) (performed : List Prepared × GuestRun) :
    Keeps Frame.grown (conclude caller scope extra c performed) := by
  intro w
  rw [runOn_conclude]
  constructor
  · exact MemoryStore.after_extends w.store _
  · intro isPublic
    exact MemoryStore.archivesPublic_after isPublic _

/-! ### Behind the archives -/

/-- All that follows the archives. -/
def rest (s : Context.Surroundings) (r : Runtime γ) (caller : Caller) (scope : Option ScopeState)
    (extra : List PublicKey) (p : Plan) (code : Bytes) : Action MemoryStore Contract :=
  pickModule s p code >>= callFunctions s r caller scope extra p

theorem execute_eq (a : Attempt) (reads : caller.encryption.publicKey = a.reader) :
    execute s r caller scope extra a.plan =
      a.opening s >>= rest s r caller scope extra a.plan := by
  have prepares := Attempt.prepareModule_eq_opening s a
  have split : execute s r caller scope extra a.plan =
      prepareModule s a.plan caller.encryption.publicKey >>=
        callFunctions s r caller scope extra a.plan := rfl
  rw [split, reads, prepares, bind_assoc]
  rfl

theorem respects_rest (p : Plan) (code : Bytes) :
    Respects (Workspace.Alike s) (rest s r caller scope extra p code) := by
  refine (names_pickModule p code).steady.respects.bind ?_
  intro code
  rw [callFunctions_eq]
  exact (looks_runFunctions s r _ p code).steady.respects.bind fun performed =>
    respects_conclude p.contract _

/-- What steps that look things up leave as it is, and the storing of outputs too. -/
theorem keeps_rest {F : Frame MemoryStore}
    (looks : ∀ {α : Type} {act : Action MemoryStore α}, Steady s act → Keeps F act)
    (concludes : ∀ c performed, Keeps F (conclude caller scope extra c performed)) (p : Plan)
    (code : Bytes) : Keeps F (rest s r caller scope extra p code) := by
  refine (looks (names_pickModule p code).steady).bind ?_
  intro code
  rw [callFunctions_eq]
  exact (looks (looks_runFunctions s r _ p code).steady).bind fun performed =>
    concludes p.contract _

theorem keeps_context_rest (p : Plan) (code : Bytes) :
    Keeps (Frame.context s) (rest s r caller scope extra p code) :=
  keeps_rest (fun steady => steady.keeps_context) keeps_context_conclude p code

/-- An execution takes nothing from the store. -/
theorem keeps_grown_execute (p : Plan) :
    Keeps Frame.grown (execute s r caller scope extra p) := by
  rw [execute_eq_conclude]
  refine (prepares_runContract s r _ p).keeps_objects.grown_of_objects.bind fun performed => ?_
  exact keeps_grown_conclude p.contract _

/-! ### Executions on one context -/

namespace Attempt

variable {a b : Attempt}

/-- An execution that suits a later one leaves its context ready for that. An archive that it had to
do without must still be missing. -/
theorem ready_execute (suits : a.Suits s b) (reads : caller.encryption.publicKey = a.reader)
    {w : Workspace MemoryStore} (objects : w.store.objects = a.store.objects)
    (ready : b.Ready s w.context)
    (missing : ∀ h ∈ a.output,
      ((execute s r caller scope extra a.plan).runOn w).2.context.isRegistered h = true →
      a.store.lookup h a.reader .archive = .error (.notFound h) →
      b.store.lookup h b.reader .archive = .error (.notFound h)) :
    b.Ready s ((execute s r caller scope extra a.plan).runOn w).2.context := by
  rw [execute_eq a reads, Action.runOn_bind] at missing ⊢
  have opened := ready_opening suits objects ready
  generalize (a.opening s).runOn w = ran at missing opened ⊢
  obtain ⟨answer, w₁⟩ := ran
  cases answer with
  | error e => exact (opened missing).1
  | ok code =>
    have kept : (Frame.context s).rel w₁ ((rest s r caller scope extra a.plan code).runOn w₁).2 :=
      keeps_context_rest a.plan code w₁
    have missing' : ∀ h ∈ a.output, w₁.context.isRegistered h = true →
        a.store.lookup h a.reader .archive = .error (.notFound h) →
        b.store.lookup h b.reader .archive = .error (.notFound h) := by
      intro h member known
      refine missing h member ?_
      rw [Context.isRegistered] at known ⊢
      exact kept.1 ▸ known
    obtain ⟨r, r', complete⟩ := (opened missing').2 code rfl
    exact .complete (complete.congr kept.1 kept.2)

/-- An execution on a context that is ready for it is answered as on a new one. -/
theorem execute_eq_new (isPublic : a.store.ArchivesPublic)
    (reads : caller.encryption.publicKey = a.reader) {w : Workspace MemoryStore}
    (objects : w.store.objects = a.store.objects) (ready : a.Ready s w.context) :
    ((execute s r caller scope extra a.plan).runOn w).1 =
      ((execute s r caller scope extra a.plan).runOn ⟨w.store, .empty⟩).1 := by
  have suits : a.Suits s a := ⟨.refl isPublic, .inl rfl⟩
  have here := opening_eq isPublic objects ready
  have there := opening_eq (w := ⟨w.store, .empty⟩) isPublic objects (.new (s := s))
  have stage := ready_opening suits objects ready fun _ _ _ refused => refused
  have stage' := ready_opening (w := ⟨w.store, .empty⟩) suits objects .new
    fun _ _ _ refused => refused
  have kept := (prepares_opening (s := s) (a := a)).keeps_objects w
  have kept' := (prepares_opening (s := s) (a := a)).keeps_objects ⟨w.store, .empty⟩
  rw [execute_eq a reads, Action.runOn_bind, Action.runOn_bind]
  generalize (a.opening s).runOn w = ran at here stage kept
  generalize (a.opening s).runOn ⟨w.store, .empty⟩ = ran' at there stage' kept'
  obtain ⟨answer, w₁⟩ := ran
  obtain ⟨answer', w₁'⟩ := ran'
  obtain rfl : answer = answer' := here.trans there.symm
  cases answer with
  | error e => rfl
  | ok code =>
    obtain ⟨r, r', complete⟩ := stage.2 code rfl
    obtain ⟨q, q', complete'⟩ := stage'.2 code rfl
    have alike := complete.alike complete' (kept.symm.trans kept')
    exact (respects_rest a.plan code w₁ w₁' alike).1

end Attempt

end Notary.Engine
