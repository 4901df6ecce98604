/-
Laws of the steps of an execution.

* `runOn_bind_eq_ok_iff`, `runOn_all_cons_eq_ok_iff` — a chain of steps ends well when each of them
  does.
* `Respects` — run from two related workspaces, a step gives the same answer twice and leaves
  related workspaces. Steps made of such steps are such steps.
* `Keeps` — a step changes workspaces in a certain way only.
* `Made` — a step is made of basic steps of some kind, so it has what they have in common.
* `Names`, `Looks`, `Prepares` — the kinds of steps that there are in front of the storing of
  outputs: they resolve names, read records, and register archives.
* `Steady` — the answer of a step that only looks things up depends on what can be looked up.
* `Prepares.unwritten` — no step in front of the storing of outputs writes.
-/

import Notary.Engine.Execution
import Notary.Proofs.Context.Answers
import Notary.Proofs.Store.History

namespace Notary.Engine

namespace Action

variable {σ α β : Type}

/-! ### Steps that end well -/

theorem runOn_bind_eq_ok_iff {act : Action σ α} {next : α → Action σ β} {w w' : Workspace σ}
    {b : β} :
    (act >>= next).runOn w = (.ok b, w') ↔
      ∃ a w₁, act.runOn w = (.ok a, w₁) ∧ (next a).runOn w₁ = (.ok b, w') := by
  rw [runOn_bind]
  rcases act.runOn w with ⟨answer, w₁⟩
  cases answer with
  | error e => simp
  | ok a =>
    constructor
    · intro h
      exact ⟨a, w₁, rfl, h⟩
    · rintro ⟨_, _, ⟨rfl, rfl⟩, h⟩
      exact h

/-- Steps that do the same behind whatever a first step gives. -/
theorem runOn_bind_congr {act : Action σ α} {next next' : α → Action σ β} {w : Workspace σ}
    (same : ∀ a w', act.runOn w = (.ok a, w') → (next a).runOn w' = (next' a).runOn w') :
    (act >>= next).runOn w = (act >>= next').runOn w := by
  rw [runOn_bind, runOn_bind]
  rcases ran : act.runOn w with ⟨answer, w'⟩
  cases answer with
  | error e => rfl
  | ok a => exact same a w' ran

/-- Steps on the pool all run, so they end well together when each of them does. -/
theorem runOn_all_cons_eq_ok_iff {step : Action σ α} {rest : List (Action σ α)} {as : List α}
    {w w' : Workspace σ} :
    (all (step :: rest)).runOn w = (.ok as, w') ↔
      ∃ a as' w₁, step.runOn w = (.ok a, w₁) ∧ (all rest).runOn w₁ = (.ok as', w') ∧
        as = a :: as' := by
  simp only [runOn_all, List.map_cons, Pool.runAll, Pool.runEach]
  rcases step.runOn w with ⟨answer, w₁⟩
  cases answer with
  | error e => simp [Pool.inOrder]
  | ok a =>
    cases gathered : Pool.inOrder (Pool.runEach (rest.map runOn) w₁).1 with
    | error e =>
      simp only [Pool.inOrder, gathered, Prod.mk.injEq, reduceCtorEq, false_and, false_iff]
      rintro ⟨_, as', _, ⟨-, rfl⟩, ⟨h, -⟩, -⟩
      simp [gathered] at h
    | ok as' =>
      simp only [Pool.inOrder, gathered, Prod.mk.injEq, Except.ok.injEq]
      constructor
      · rintro ⟨rfl, rfl⟩
        exact ⟨a, as', w₁, ⟨rfl, rfl⟩, ⟨gathered, rfl⟩, rfl⟩
      · rintro ⟨_, as'', _, ⟨rfl, rfl⟩, ⟨h, rfl⟩, rfl⟩
        obtain rfl : as' = as'' := by simpa [gathered] using h
        exact ⟨rfl, rfl⟩

/-- A step that is alone on the pool. -/
theorem runOn_all_singleton (step : Action σ α) (w : Workspace σ) :
    (all [step]).runOn w =
      ((step.runOn w).1.map fun a => [a], (step.runOn w).2) := by
  simp only [runOn_all, List.map_cons, List.map_nil, Pool.runAll, Pool.runEach]
  rcases step.runOn w with ⟨answer, w'⟩
  cases answer <;> rfl

/-! ### Steps on related workspaces -/

/-- Run from two related workspaces, the step gives the same answer and leaves related ones. -/
def Respects (R : Workspace σ → Workspace σ → Prop) (act : Action σ α) : Prop :=
  ∀ w w', R w w' →
    (act.runOn w).1 = (act.runOn w').1 ∧ R (act.runOn w).2 (act.runOn w').2

namespace Respects

variable {R : Workspace σ → Workspace σ → Prop}

theorem ofExcept (r : Except Fault α) : Respects R (ofExcept r) := by
  intro w w' related
  exact ⟨rfl, related⟩

protected theorem pure (a : α) : Respects R (pure a : Action σ α) := by
  intro w w' related
  exact ⟨rfl, related⟩

theorem bind {act : Action σ α} {next : α → Action σ β} (first : Respects R act)
    (later : ∀ a, Respects R (next a)) : Respects R (act >>= next) := by
  intro w w' related
  obtain ⟨same, related'⟩ := first w w' related
  rw [runOn_bind, runOn_bind]
  generalize act.runOn w = left at same related'
  generalize act.runOn w' = right at same related'
  obtain ⟨answer, w₁⟩ := left
  obtain ⟨answer', w₁'⟩ := right
  obtain rfl : answer = answer' := same
  cases answer with
  | error e => exact ⟨rfl, related'⟩
  | ok a => exact later a w₁ w₁' related'

theorem all {steps : List (Action σ α)} (each : ∀ step ∈ steps, Respects R step) :
    Respects R (all steps) := by
  have every : ∀ w w', R w w' →
      (Pool.runEach (steps.map runOn) w).1 = (Pool.runEach (steps.map runOn) w').1 ∧
        R (Pool.runEach (steps.map runOn) w).2 (Pool.runEach (steps.map runOn) w').2 := by
    induction steps with
    | nil =>
      intro w w' related
      exact ⟨rfl, related⟩
    | cons step rest ih =>
      intro w w' related
      have others : ∀ step ∈ rest, Respects R step := by
        intro step member
        exact each step (List.mem_cons_of_mem _ member)
      obtain ⟨same, related'⟩ := each step List.mem_cons_self w w' related
      obtain ⟨same', related''⟩ := ih others _ _ related'
      simp only [List.map_cons, Pool.runEach]
      exact ⟨by rw [same, same'], related''⟩
  intro w w' related
  obtain ⟨same, related'⟩ := every w w' related
  simp only [runOn_all, Pool.runAll]
  exact ⟨by rw [same], related'⟩

end Respects

/-! ### What steps leave as it is -/

/-- A way in which a workspace may change on the way through an execution. -/
structure Frame (σ : Type) where
  rel : Workspace σ → Workspace σ → Prop
  refl : ∀ w, rel w w
  trans : ∀ {w w' w''}, rel w w' → rel w' w'' → rel w w''

/-- The step changes workspaces only in this way, whatever its answer is. -/
def Keeps (F : Frame σ) (act : Action σ α) : Prop := ∀ w, F.rel w (act.runOn w).2

namespace Keeps

variable {F F' : Frame σ}

theorem mono {act : Action σ α} (kept : Keeps F act)
    (weaker : ∀ w w', F.rel w w' → F'.rel w w') : Keeps F' act := by
  intro w
  exact weaker _ _ (kept w)

theorem ofExcept (r : Except Fault α) : Keeps F (ofExcept r) := fun w => F.refl w

protected theorem pure (a : α) : Keeps F (pure a : Action σ α) := fun w => F.refl w

theorem bind {act : Action σ α} {next : α → Action σ β} (first : Keeps F act)
    (later : ∀ a, Keeps F (next a)) : Keeps F (act >>= next) := by
  intro w
  have kept := first w
  rw [runOn_bind]
  generalize act.runOn w = ran at kept
  obtain ⟨answer, w₁⟩ := ran
  cases answer with
  | error e => exact kept
  | ok a => exact F.trans kept (later a w₁)

theorem all {steps : List (Action σ α)} (each : ∀ step ∈ steps, Keeps F step) :
    Keeps F (all steps) := by
  have every : ∀ w, F.rel w (Pool.runEach (steps.map runOn) w).2 := by
    induction steps with
    | nil => exact F.refl
    | cons step rest ih =>
      intro w
      have others : ∀ step ∈ rest, Keeps F step := by
        intro step member
        exact each step (List.mem_cons_of_mem _ member)
      exact F.trans (each step List.mem_cons_self w) (ih others _)
  exact every

end Keeps

/-! ### Steps that are made of steps -/

/-- The step is made of steps of a kind, one behind the other or side by side on the pool. -/
inductive Made (kind : (β : Type) → Action σ β → Prop) : {α : Type} → Action σ α → Prop where
  | basic {α : Type} {act : Action σ α} (of : kind α act) : Made kind act
  | ofExcept {α : Type} (r : Except Fault α) : Made kind (Action.ofExcept r)
  | bind {α β : Type} {act : Action σ α} {next : α → Action σ β} (first : Made kind act)
      (later : ∀ a, Made kind (next a)) : Made kind (act >>= next)
  | all {α : Type} {steps : List (Action σ α)} (each : ∀ step ∈ steps, Made kind step) :
      Made kind (Action.all steps)

namespace Made

variable {kind kind' : (β : Type) → Action σ β → Prop}

protected theorem pure (a : α) : Made kind (pure a : Action σ α) := .ofExcept (.ok a)

protected theorem throw (e : Fault) : Made kind (throw e : Action σ α) := .ofExcept (.error e)

theorem refuse (fault : DefinitionFault) : Made kind (refuse fault : Action σ α) :=
  .throw (.definition fault)

theorem mono (wider : ∀ (β : Type) (act : Action σ β), kind β act → kind' β act)
    {act : Action σ α} (made : Made kind act) : Made kind' act := by
  induction made with
  | basic of => exact .basic (wider _ _ of)
  | ofExcept r => exact .ofExcept r
  | bind _ _ first later => exact .bind first later
  | all _ each => exact .all each

theorem respects {R : Workspace σ → Workspace σ → Prop}
    (basic : ∀ (β : Type) (act : Action σ β), kind β act → Respects R act)
    {act : Action σ α} (made : Made kind act) : Respects R act := by
  induction made with
  | basic of => exact basic _ _ of
  | ofExcept r => exact .ofExcept r
  | bind _ _ first later => exact first.bind later
  | all _ each => exact .all each

theorem keeps {F : Frame σ} (basic : ∀ (β : Type) (act : Action σ β), kind β act → Keeps F act)
    {act : Action σ α} (made : Made kind act) : Keeps F act := by
  induction made with
  | basic of => exact basic _ _ of
  | ofExcept r => exact .ofExcept r
  | bind _ _ first later => exact first.bind later
  | all _ each => exact .all each

end Made

/-- Names are resolved. -/
inductive Naming (s : Context.Surroundings) : (β : Type) → Action σ β → Prop where
  | resolve (name : String) : Naming s _ (resolve s name)

section Store

variable [Store.ObjectStore σ]

/-- Names are resolved, and records are read for a reader. -/
inductive Lookup (s : Context.Surroundings) (reader : PublicKey) :
    (β : Type) → Action σ β → Prop where
  | resolve (name : String) : Lookup s reader _ (resolve s name)
  | record (type : String) (hash : Hash) :
      Lookup s reader _ (read (Store.ObjectStore.getRecord type hash reader))

/-- Beside such lookups, archives are read for the reader and registered with the context. -/
inductive Preparation (s : Context.Surroundings) (reader : PublicKey) :
    (β : Type) → Action σ β → Prop where
  | lookup {β : Type} {act : Action σ β} (looks : Lookup s reader β act) :
      Preparation s reader β act
  | inspect {β : Type} (f : Context → β) : Preparation s reader β (inspect fun w => f w.context)
  | archive (hash : Hash) :
      Preparation s reader _ (read (Store.ObjectStore.getArchive hash reader))
  | register (hash : Hash) (bytes : Bytes) : Preparation s reader _ (register s hash bytes)

end Store

/-- The step only resolves names. -/
abbrev Names (s : Context.Surroundings) (act : Action σ α) : Prop := Made (Naming s) act

/-- The step only looks things up. -/
abbrev Looks [Store.ObjectStore σ] (s : Context.Surroundings) (reader : PublicKey)
    (act : Action σ α) : Prop :=
  Made (Lookup s reader) act

/-- The step may also register archives. It reads the store on behalf of one key, and never writes
to it. -/
abbrev Prepares [Store.ObjectStore σ] (s : Context.Surroundings) (reader : PublicKey)
    (act : Action σ α) : Prop :=
  Made (Preparation s reader) act

theorem Names.looks [Store.ObjectStore σ] {s : Context.Surroundings} {act : Action σ α}
    (names : Names s act) (reader : PublicKey) : Looks s reader act := by
  refine names.mono ?_
  rintro β act ⟨name⟩
  exact .resolve name

theorem Looks.prepares [Store.ObjectStore σ] {s : Context.Surroundings} {reader : PublicKey}
    {act : Action σ α} (looks : Looks s reader act) : Prepares s reader act :=
  looks.mono fun _ _ => .lookup

end Action

/-! ### Steps that only look things up -/

/-- The workspaces hold the same objects and archives, and answer every name alike. -/
structure Workspace.Alike (s : Context.Surroundings) (w w' : Workspace Store.MemoryStore) :
    Prop where
  objects : w.store.objects = w'.store.objects
  registered : w.context.registered = w'.context.registered
  answers : ∀ name, w.context.answer s name = w'.context.answer s name

namespace Action

/-- Nothing that can be looked up changes. -/
def Frame.alike (s : Context.Surroundings) : Frame Store.MemoryStore where
  rel := Workspace.Alike s
  refl _ := ⟨rfl, rfl, fun _ => rfl⟩
  trans first second :=
    ⟨first.objects.trans second.objects, first.registered.trans second.registered,
      fun name => (first.answers name).trans (second.answers name)⟩

/-- The step succeeds with this answer. -/
def Gives (act : Action σ α) (w : Workspace σ) (a : α) : Prop := (act.runOn w).1 = .ok a

/-- The answer of the step depends only on what can be looked up in the workspace, and the step does
not change that. -/
structure Steady (s : Context.Surroundings) (act : Action Store.MemoryStore α) : Prop where
  respects : Respects (Workspace.Alike s) act
  keeps : Keeps (Frame.alike s) act

namespace Steady

variable {s : Context.Surroundings}

protected theorem pure (a : α) : Steady s (pure a : Action Store.MemoryStore α) :=
  ⟨.pure a, .pure a⟩

theorem bind {act : Action Store.MemoryStore α} {next : α → Action Store.MemoryStore β}
    (first : Steady s act) (later : ∀ a, Steady s (next a)) : Steady s (act >>= next) :=
  ⟨first.respects.bind fun a => (later a).respects, first.keeps.bind fun a => (later a).keeps⟩

/-- A step behind a steady one may as well run where that one started. -/
theorem gives_bind_iff {act : Action Store.MemoryStore α} {next : α → Action Store.MemoryStore β}
    (first : Steady s act) (later : ∀ a, Steady s (next a)) {w : Workspace Store.MemoryStore}
    {b : β} : (act >>= next).Gives w b ↔ ∃ a, act.Gives w a ∧ (next a).Gives w b := by
  have kept := first.keeps w
  unfold Gives
  rw [runOn_bind]
  generalize act.runOn w = ran at kept
  obtain ⟨answer, w₁⟩ := ran
  cases answer with
  | error e => simp
  | ok a =>
    have same := ((later a).respects w w₁ kept).1
    simp [same]

/-- What is answered behind a steady step is what is answered where that one started. -/
theorem answer_bind {act : Action Store.MemoryStore α} {next : α → Action Store.MemoryStore β}
    (first : Steady s act) (later : ∀ a, Steady s (next a)) {w : Workspace Store.MemoryStore}
    {a : α} (given : act.Gives w a) : ((act >>= next).runOn w).1 = ((next a).runOn w).1 := by
  have kept := first.keeps w
  rw [runOn_bind]
  unfold Gives at given
  generalize act.runOn w = ran at kept given
  obtain ⟨answer, w₁⟩ := ran
  cases given
  exact ((later a).respects w w₁ kept).1.symm

/-- The same of a step that has run on a workspace that is like another. -/
theorem gives_of_runOn {act : Action Store.MemoryStore α} (steady : Steady s act)
    {w w₁ w₂ : Workspace Store.MemoryStore} (alike : Workspace.Alike s w w₁) {a : α}
    (ran : act.runOn w₁ = (.ok a, w₂)) : act.Gives w a ∧ Workspace.Alike s w w₂ := by
  have kept := steady.keeps w₁
  rw [ran] at kept
  refine ⟨?_, (Frame.alike s).trans alike kept⟩
  rw [Gives, (steady.respects w w₁ alike).1, ran]

end Steady

theorem Lookup.steady {s : Context.Surroundings} {reader : PublicKey} {β : Type}
    {act : Action Store.MemoryStore β} (looks : Lookup s reader β act) : Steady s act := by
  cases looks with
  | resolve name =>
    constructor
    · intro w w' alike
      refine ⟨congrArg Except.ok (alike.answers name), alike.objects, ?_, ?_⟩
      · simp only [runOn_resolve, Context.registered_resolve, alike.registered]
      · intro other
        simp only [runOn_resolve, Context.answer_resolve, alike.answers]
    · intro w
      refine ⟨rfl, ?_, ?_⟩
      · simp only [runOn_resolve, Context.registered_resolve]
      · intro other
        simp only [runOn_resolve, Context.answer_resolve]
  | record type hash =>
    constructor
    · intro w w' alike
      have same : w.store.lookup hash reader (.record type) =
          w'.store.lookup hash reader (.record type) := by
        simp only [Store.MemoryStore.lookup, alike.objects]
      exact ⟨congrArg Except.ok same, alike.objects, alike.registered, alike.answers⟩
    · intro w
      exact ⟨rfl, rfl, fun _ => rfl⟩

theorem Looks.steady {s : Context.Surroundings} {reader : PublicKey}
    {act : Action Store.MemoryStore α} (looks : Looks s reader act) : Steady s act :=
  ⟨looks.respects fun _ _ basic => basic.steady.respects,
    looks.keeps fun _ _ basic => basic.steady.keeps⟩

theorem Names.steady {s : Context.Surroundings} {act : Action Store.MemoryStore α}
    (names : Names s act) : Steady s act :=
  (names.looks .zero).steady

/-- Nothing is written to the store. -/
def Frame.unwritten : Frame Store.MemoryStore where
  rel w w' := w.store.Unwritten w'.store
  refl w := .refl w.store
  trans := Store.MemoryStore.Unwritten.trans

theorem Prepares.unwritten {s : Context.Surroundings} {reader : PublicKey}
    {act : Action Store.MemoryStore α} (prepares : Prepares s reader act) :
    Keeps Frame.unwritten act := by
  refine prepares.keeps ?_
  intro β act basic w
  cases basic with
  | lookup looks => cases looks <;> exact ⟨rfl, rfl⟩
  | inspect f => exact ⟨rfl, rfl⟩
  | archive hash => exact ⟨rfl, rfl⟩
  | register hash bytes => exact ⟨rfl, rfl⟩

end Action

/-! ### Reads of records and resolutions of names -/

section Looks

open Notary.Engine.Action

variable {σ : Type} {s : Context.Surroundings} {reader : PublicKey}

theorem names_resolve (name : String) : Names s (resolve s name : Action σ _) :=
  .basic (.resolve name)

theorem names_messageType (name : String) : Names s (messageType s name : Action σ _) := by
  refine (names_resolve name).bind ?_
  intro found
  cases found with
  | error e => cases e <;> first | exact .refuse _ | exact .throw _
  | ok r =>
    cases target : r.target with
    | module code => simpa [target] using .refuse _
    | message pool type => simpa [target] using .pure _

theorem names_readOutput (m : Metadata.ContractMetadata) (p : Prepared) (output : Bytes) :
    Names s (readOutput s m p output : Action σ _) := by
  unfold readOutput
  split
  · exact .refuse _
  · refine (names_messageType _).bind ?_
    rintro ⟨pool, type⟩
    cases read : pool.decode type output <;> simpa [read] using .pure _

theorem names_runGuest {γ : Type} (r : Runtime γ) (m : Metadata.ContractMetadata)
    (ps : List Prepared) (g : γ) : Names s (runGuest s r m ps g : Action σ _) := by
  induction ps generalizing g with
  | nil => exact .pure _
  | cons p rest ih =>
    unfold runGuest
    split
    · exact .pure _
    · refine (names_readOutput m p _).bind ?_
      intro answer
      cases answer with
      | error detail => exact .pure _
      | ok message =>
        refine (ih _).bind ?_
        intro run
        cases run <;> exact .pure _

variable [Store.ObjectStore σ]

theorem looks_fetch (type : String) (hash : Hash) :
    Looks s reader (fetch (Store.ObjectStore.getRecord type hash reader) : Action σ Bytes) := by
  refine Made.bind (.basic (.record type hash)) ?_
  intro found
  cases found with
  | error e => exact .throw _
  | ok bytes => exact .pure _

theorem looks_loadSpecification (c : Contract) :
    Looks s reader (loadSpecification c reader : Action σ _) := by
  unfold loadSpecification
  cases c.spec with
  | none => exact .refuse _
  | some record =>
    cases located : record.contentHash? with
    | none => simpa [located] using .refuse _
    | some hash =>
      simp only [located]
      refine (looks_fetch record.classname hash).bind ?_
      intro bytes
      cases read : (Wire.decode bytes : Except Wire.Fault Contract.ContractSpecification) with
      | error fault => exact .refuse _
      | ok spec => exact .pure _

theorem looks_fetchRecord (l : Located) :
    Looks s reader (fetchRecord s reader l : Action σ _) := by
  refine (looks_fetch l.classname l.hash).bind ?_
  intro bytes
  refine ((names_messageType l.classname).looks reader).bind ?_
  rintro ⟨pool, type⟩
  cases read : pool.decode type bytes with
  | error c => simpa [read] using .refuse _
  | ok m => simpa [read] using .pure m

theorem looks_fetchAll (ls : List Located) :
    Looks s reader (fetchAll s reader ls : Action σ _) := by
  refine Made.bind (.all ?_) fun messages => .pure _
  intro step member
  obtain ⟨l, -, rfl⟩ := List.mem_map.mp member
  exact looks_fetchRecord l

theorem looks_loadExisting (inputs : List Contract.Record) :
    Looks s reader (loadExisting s reader inputs : Action σ _) :=
  .bind (.ofExcept _) fun located => (looks_fetchAll located).bind fun _ => .ofExcept _

theorem looks_loadProposed (c : Contract.Consideration) (f : Metadata.FunctionDescriptor) :
    Looks s reader (loadProposed s reader c f : Action σ _) :=
  .bind (.ofExcept _) fun located => (looks_fetchAll located).bind fun _ => .ofExcept _

theorem looks_prepare (m : Metadata.ContractMetadata) (existing : RecordPool)
    (c : Contract.Consideration) (index : Nat) :
    Looks s reader (prepare s reader m existing c index : Action σ _) := by
  unfold prepare
  cases m.function? c.considerationName with
  | none => exact .refuse _
  | some f => exact (looks_loadProposed c f).bind fun _ => .pure _

theorem looks_partitionFrom (m : Metadata.ContractMetadata) (existing : RecordPool)
    (cs : List Contract.Consideration) (index : Nat) :
    Looks s reader (partitionFrom s reader m existing index cs : Action σ _) := by
  induction cs generalizing index with
  | nil => exact .pure _
  | cons c rest ih =>
    unfold partitionFrom
    split
    · refine (looks_prepare m existing c index).bind fun (p, runs) => (ih (index + 1)).bind ?_
      intro later
      cases runs <;> exact .pure _
    · exact ih (index + 1)

end Looks

end Notary.Engine
