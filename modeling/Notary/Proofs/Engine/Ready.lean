/-
Contexts that earlier attempts left behind.

An attempt that finds a context registers what is missing and resolves the module of its plan. A
context on its way goes through two stages: with the archive of the definition alone, and with both
archives. What is resolved in the first stage keeps its answer in the second.

* `Attempt.Opened`, `Attempt.Complete`, `Attempt.Ready` — the stages, as a later attempt sees them.
* `ready_opening` — attempts that go together with a later one leave its context ready for it.
* `opening_eq` — an attempt that finds its context ready is answered as on a new one.
-/

import Notary.Proofs.Engine.Archives

namespace Notary.Engine

open Notary.Contract
open Notary.Context (Registered)
open Notary.Store (MemoryStore)

/-- What a name resolves to in a new context with these archives. -/
def soughtIn (s : Context.Surroundings) (r : Registered) (name : String) :
    Except Context.Fault Symbol.Resolved :=
  Context.sought { registered := r } s name

theorem sought_eq (c : Context) (s : Context.Surroundings) (name : String) :
    c.sought s name = soughtIn s c.registered name := by
  have same : c.registered = ({ registered := c.registered } : Context).registered := rfl
  exact Context.sought_congr same s name

/-! ### The module of a definition -/

/-- What becomes of an attempt when its module resolves to this. -/
def moduleAnswer (d : DefinitionSpec) (reader : PublicKey) :
    Except Context.Fault Symbol.Resolved → Except Fault Bytes
  | .ok r =>
    match r.target with
    | .module code => .ok code
    | .message _ _ => .error (.definition (.notAModule d.classname))
  | .error (.notFound _) => .error (notBootstrapped d reader)
  | .error e => .error (.context e)

theorem runOn_moduleOf {σ : Type} [Store.ObjectStore σ] (s : Context.Surroundings)
    (d : DefinitionSpec) (reader : PublicKey) (w : Workspace σ) :
    (moduleOf s d reader).runOn w =
      (moduleAnswer d reader (w.context.answer s d.classname),
        { w with context := (w.context.resolve s d.classname).2 }) := by
  unfold moduleOf resolveModule
  rw [Action.runOn_bind, Action.runOn_bind, Action.runOn_resolve]
  change _ = (moduleAnswer d reader (w.context.resolve s d.classname).1.result, _)
  cases (w.context.resolve s d.classname).1.result with
  | error e => cases e <;> rfl
  | ok r =>
    simp only [moduleAnswer]
    cases r.target <;> simp

namespace Attempt

variable {s : Context.Surroundings} {a b : Attempt} {c : Context} {r r' : Registered}

/-! ### The stages -/

/-- The name resolves alike without and with the archive of the output. -/
def Stable (s : Context.Surroundings) (a : Attempt) (name : String) : Prop :=
  ∀ r r', a.bare s = .ok r → a.full s r = .ok r' → soughtIn s r name = soughtIn s r' name

/-- The context has the archive of the definition. -/
structure Opened (s : Context.Surroundings) (a : Attempt) (r : Registered) (c : Context) :
    Prop where
  bare : a.bare s = .ok r
  registered : c.registered = r
  answers : ∀ name, c.answer s name = soughtIn s r name
  kept : ∀ name, (c.recalled? name).isSome = true → name = a.module ∨ a.Stable s name

/-- The context has both archives. The module is that of the first stage. -/
structure Complete (s : Context.Surroundings) (a : Attempt) (r r' : Registered) (c : Context) :
    Prop where
  bare : a.bare s = .ok r
  full : a.full s r = .ok r'
  registered : c.registered = r'
  module : c.answer s a.module = soughtIn s r a.module
  others : ∀ name, name ≠ a.module → c.answer s name = soughtIn s r' name

/-- The attempt can use the context. -/
inductive Ready (s : Context.Surroundings) (a : Attempt) : Context → Prop where
  | new : Ready s a .empty
  | opened {r : Registered} {c : Context} (stage : Opened s a r c) : Ready s a c
  | complete {r r' : Registered} {c : Context} (stage : Complete s a r r' c) : Ready s a c

/-- A context with archives that was asked nothing yet. -/
theorem opened_new (got : a.bare s = .ok r) : Opened s a r { registered := r } := by
  refine ⟨got, rfl, ?_, ?_⟩
  · intro name
    rw [Context.answer_eq]
    rfl
  · intro name kept
    cases kept

theorem Opened.resolve (opened : Opened s a r c) {name : String}
    (named : name = a.module ∨ a.Stable s name) : Opened s a r (c.resolve s name).2 := by
  refine ⟨opened.bare, ?_, ?_, ?_⟩
  · rw [Context.registered_resolve, opened.registered]
  · intro other
    rw [Context.answer_resolve, opened.answers]
  · intro other kept
    rw [Context.recalled?_resolve] at kept
    cases before : c.recalled? other with
    | some x => exact opened.kept other (by rw [before]; rfl)
    | none =>
      by_cases same : name = other
      · exact same ▸ named
      · simp [before, same] at kept

theorem Complete.congr (complete : Complete s a r r' c) {c' : Context}
    (registered : c'.registered = c.registered)
    (answers : ∀ name, c'.answer s name = c.answer s name) : Complete s a r r' c' where
  bare := complete.bare
  full := complete.full
  registered := registered.trans complete.registered
  module := (answers _).trans complete.module
  others name other := (answers name).trans (complete.others name other)

theorem Complete.resolve (complete : Complete s a r r' c) (name : String) :
    Complete s a r r' (c.resolve s name).2 :=
  complete.congr (Context.registered_resolve c s name) (Context.answer_resolve c s name)

/-- Two contexts in the last stage cannot be told apart. -/
theorem Complete.alike {q q' : Registered} {w w' : Workspace MemoryStore}
    (left : Complete s a r r' w.context) (right : Complete s a q q' w'.context)
    (objects : w.store.objects = w'.store.objects) : w.Alike s w' := by
  obtain rfl : r = q := Except.ok.inj (left.bare.symm.trans right.bare)
  obtain rfl : r' = q' := Except.ok.inj (left.full.symm.trans right.full)
  refine ⟨objects, left.registered.trans right.registered.symm, ?_⟩
  intro name
  by_cases same : name = a.module
  · rw [same, left.module, right.module]
  · rw [left.others name same, right.others name same]

/-- The archive of the output is registered. The module was resolved before, or another that
resolves alike in both stages. -/
theorem Opened.complete (opened : Opened s a r c) (got : a.full s r = .ok r')
    (asked : (c.recalled? a.module).isSome = true ∨ a.Stable s a.module) :
    Complete s a r r' { c with registered := r' } := by
  -- An answer of the first stage is given again when it was kept, and else is sought anew.
  have given (name : String) (x : Symbol.Resolved) (kept : c.recalled? name = some x) :
      Context.answer { c with registered := r' } s name = .ok x := by
    rw [Context.answer_eq, show Context.recalled? { c with registered := r' } name = some x from kept]
  have anew (name : String) (kept : c.recalled? name = none) :
      Context.answer { c with registered := r' } s name = soughtIn s r' name := by
    rw [Context.answer_eq, sought_eq,
      show Context.recalled? { c with registered := r' } name = none from kept]
  have before (name : String) (x : Symbol.Resolved) (kept : c.recalled? name = some x) :
      soughtIn s r name = .ok x := by
    rw [← opened.answers, Context.answer_eq, kept]
  refine ⟨opened.bare, got, rfl, ?_, ?_⟩
  · cases kept : c.recalled? a.module with
    | some x => rw [given _ x kept, before _ x kept]
    | none =>
      rw [anew _ kept]
      rcases asked with asked | stable
      · simp [kept] at asked
      · exact (stable r r' opened.bare got).symm
  · intro name other
    cases kept : c.recalled? name with
    | none => exact anew name kept
    | some x =>
      rw [given name x kept]
      rcases opened.kept name (by rw [kept]; rfl) with same | stable
      · exact absurd same other
      · rw [← stable r r' opened.bare got, before name x kept]

/-! ### Steps -/

theorem runOn_bootstrap (a : Attempt) {w : Workspace MemoryStore}
    (objects : w.store.objects = a.store.objects) :
    ∃ store, store.objects = a.store.objects ∧
      (bootstrap s a.plan.definition a.reader).runOn w =
        settle { w with store }
          (fetched s a.store a.reader a.required a.definition w.context.registered) := by
  have settles (h : Hash) (w : Workspace MemoryStore) :
      (throw (notBootstrapped a.plan.definition a.reader) : Action MemoryStore Unit).runOn w =
        settle w (a.required h w.context.registered) := rfl
  obtain ⟨store, same, ran⟩ :=
    runOn_obtainArchive s a.reader settles a.definition w
  refine ⟨store, same.trans objects, ?_⟩
  rw [← fetched_congr objects]
  exact ran

theorem runOn_preloadOutput (a : Attempt) {w : Workspace MemoryStore}
    (objects : w.store.objects = a.store.objects) :
    ∃ store, store.objects = a.store.objects ∧
      (preloadOutput s a.reader a.output).runOn w =
        settle { w with store }
          (fetched s a.store a.reader (tolerated s) a.output w.context.registered) := by
  have settles (h : Hash) (w : Workspace MemoryStore) :
      (Action.register s h []).runOn w = settle w (tolerated s h w.context.registered) :=
    runOn_register_eq_settle h [] w
  obtain ⟨store, same, ran⟩ := runOn_obtainArchive s a.reader settles a.output w
  refine ⟨store, same.trans objects, ?_⟩
  rw [← fetched_congr objects]
  exact ran

/-- The module and the archive of the output, for a context with the archive of the definition. -/
def later (s : Context.Surroundings) (a : Attempt) : Action MemoryStore Bytes :=
  moduleOf s a.plan.definition a.reader >>= fun code =>
    preload s (a.plan.definition :: a.plan.output.toList) a.reader >>= fun _ => pure code

/-- Both archives and the module. -/
def opening (s : Context.Surroundings) (a : Attempt) : Action MemoryStore Bytes :=
  bootstrap s a.plan.definition a.reader >>= fun _ => later s a

theorem prepareModule_eq_opening (s : Context.Surroundings) (a : Attempt) :
    prepareModule s a.plan a.reader = opening s a >>= pickModule s a.plan := by
  rw [prepareModule_eq, opening, bind_assoc]
  simp only [later, bind_assoc, pure_bind]

theorem runOn_opening (s : Context.Surroundings) (a : Attempt) (w : Workspace MemoryStore) :
    (opening s a).runOn w =
      match (bootstrap s a.plan.definition a.reader).runOn w with
      | (.ok _, w') => (later s a).runOn w'
      | (.error e, w') => (.error e, w') := by
  rw [opening, Action.runOn_bind]
  rcases (bootstrap s a.plan.definition a.reader).runOn w with ⟨answer, w'⟩
  cases answer <;> rfl

/-- The answer on a context whose module resolves to this, when this comes of the archive of the
output. -/
def laterAnswer (a : Attempt) (found : Except Context.Fault Symbol.Resolved)
    (got : Except Fault Registered) : Except Fault Bytes :=
  match moduleAnswer a.plan.definition a.reader found with
  | .error e => .error e
  | .ok code => got.map fun _ => code

/-- What the module and the archive of the output make of a context: the module is asked for, and if
it is there and so is the archive, the archive is registered. -/
theorem runOn_later (a : Attempt) {w : Workspace MemoryStore}
    (objects : w.store.objects = a.store.objects)
    (loaded : ∀ h ∈ a.definition, w.context.registered.hashes.contains h = true) :
    ∃ w', (later s a).runOn w =
        (laterAnswer a (w.context.answer s a.module)
          (fetched s a.store a.reader (tolerated s) a.output w.context.registered), w') ∧
      w'.store.objects = a.store.objects ∧
      ((∀ code, ((later s a).runOn w).1 ≠ .ok code) ∧
          w'.context = (w.context.resolve s a.module).2 ∨
        ∃ x r, w.context.answer s a.module = .ok x ∧
          fetched s a.store a.reader (tolerated s) a.output w.context.registered = .ok r ∧
          w'.context = { (w.context.resolve s a.module).2 with registered := r }) := by
  have registered := Context.registered_resolve w.context s a.module
  have loaded' : ∀ h ∈ a.plan.definition.contentHash?,
      (w.context.resolve s a.module).2.isRegistered h = true := by
    intro h member
    rw [Context.isRegistered, registered]
    exact loaded h member
  have asked : (moduleOf s a.plan.definition a.reader).runOn w =
      (moduleAnswer a.plan.definition a.reader (w.context.answer s a.module),
        ⟨w.store, (w.context.resolve s a.module).2⟩) := runOn_moduleOf s _ _ w
  cases found : moduleAnswer a.plan.definition a.reader (w.context.answer s a.module) with
  | error e =>
    have ran : (later s a).runOn w = (.error e, ⟨w.store, (w.context.resolve s a.module).2⟩) := by
      unfold later
      rw [Action.runOn_bind, asked, found]
    rw [ran]
    refine ⟨⟨w.store, (w.context.resolve s a.module).2⟩, ?_, objects, .inl ⟨by simp, rfl⟩⟩
    simp only [laterAnswer, found]
  | ok code =>
    obtain ⟨store, same, preloaded⟩ := runOn_preloadOutput (s := s) a
      (w := ⟨w.store, (w.context.resolve s a.module).2⟩) objects
    simp only [registered] at preloaded
    have ran : (later s a).runOn w =
        let ended := settle ⟨store, (w.context.resolve s a.module).2⟩
          (fetched s a.store a.reader (tolerated s) a.output w.context.registered)
        (ended.1.map fun _ => code, ended.2) := by
      unfold later
      rw [Action.runOn_bind, asked, found]
      dsimp only
      rw [Action.runOn_bind, runOn_preload s a.plan.definition a.plan.output a.reader loaded']
      rw [show a.plan.output.bind (·.contentHash?) = a.output from rfl, preloaded]
      cases fetched s a.store a.reader (tolerated s) a.output w.context.registered <;> rfl
    obtain ⟨x, resolved⟩ : ∃ x, w.context.answer s a.module = .ok x := by
      cases answered : w.context.answer s a.module with
      | ok x => exact ⟨x, rfl⟩
      | error e =>
        rw [answered] at found
        cases e <;> cases found
    rw [ran, laterAnswer, found]
    cases got : fetched s a.store a.reader (tolerated s) a.output w.context.registered with
    | error e => exact ⟨_, rfl, same, .inl ⟨by simp [settle, Except.map], rfl⟩⟩
    | ok r => exact ⟨_, rfl, same, .inr ⟨x, r, resolved, rfl, rfl⟩⟩

/-! ### Attempts that go together -/

/-- An earlier attempt that asked for the same archives, and for the same module or for one that
resolves alike in both stages, as the later one's does. -/
structure Suits (s : Context.Surroundings) (a b : Attempt) : Prop extends a.Precedes b where
  module : a.module = b.module ∨ b.Stable s a.module ∧ b.Stable s b.module

/-- The archive of the definition is there now, or the attempt ends. -/
theorem bootstrap_of_ready (before : a.Precedes b) {w : Workspace MemoryStore}
    (objects : w.store.objects = a.store.objects) (ready : b.Ready s w.context) :
    ∃ w', w'.store.objects = a.store.objects ∧
      ((∃ e, (bootstrap s a.plan.definition a.reader).runOn w = (.error e, w') ∧
          a.bare s = .error e ∧ w'.context = w.context) ∨
        (bootstrap s a.plan.definition a.reader).runOn w = (.ok (), w') ∧
          ((∃ r, b.Opened s r w'.context) ∨ ∃ r r', b.Complete s r r' w'.context)) := by
  obtain ⟨store, same, ran⟩ := runOn_bootstrap (s := s) a objects
  obtain ⟨old, c⟩ := w
  -- A context behind the first stage has the archive, so nothing happens to it.
  have unchanged (known : ∀ h ∈ b.definition, c.registered.hashes.contains h = true) :
      (bootstrap s a.plan.definition a.reader).runOn ⟨old, c⟩ = (.ok (), ⟨store, c⟩) := by
    rw [ran, fetched_of_contains (before.definition ▸ known)]
    rfl
  cases ready with
  | new =>
    rw [ran]
    change ∃ w', _ ∧ ((∃ e, settle _ (a.bare s) = _ ∧ _) ∨ settle _ (a.bare s) = _ ∧ _)
    cases got : a.bare s with
    | error e => exact ⟨⟨store, .empty⟩, same, .inl ⟨e, rfl, rfl, rfl⟩⟩
    | ok r =>
      exact ⟨⟨store, { registered := r }⟩, same,
        .inr ⟨rfl, .inl ⟨r, opened_new (bare_mono before got)⟩⟩⟩
  | opened stage =>
    refine ⟨⟨store, c⟩, same, .inr ⟨unchanged ?_, .inl ⟨_, stage⟩⟩⟩
    exact stage.registered ▸ contains_of_bare stage.bare
  | complete stage =>
    refine ⟨⟨store, c⟩, same, .inr ⟨unchanged ?_, .inr ⟨_, _, stage⟩⟩⟩
    intro h member
    rw [stage.registered]
    exact (contains_of_full stage.full).2 h (contains_of_bare stage.bare h member)

/-- The module and the output's archive behind the first stage. -/
theorem later_of_opened (suits : a.Suits s b) {w : Workspace MemoryStore}
    (objects : w.store.objects = a.store.objects) (opened : b.Opened s r w.context) :
    ∃ w', (later s a).runOn w =
        (laterAnswer a (soughtIn s r a.module) (a.full s r), w') ∧
      w'.store.objects = a.store.objects ∧
      ((∀ code, ((later s a).runOn w).1 ≠ .ok code) ∧ b.Opened s r w'.context ∨
        ∃ r', a.full s r = .ok r' ∧ w'.context.registered = r' ∧
          (b.full s r = .ok r' → b.Complete s r r' w'.context)) := by
  have known : ∀ h ∈ a.definition, w.context.registered.hashes.contains h = true := by
    rw [suits.definition, opened.registered]
    exact contains_of_bare opened.bare
  have named : a.module = b.module ∨ b.Stable s a.module := suits.module.imp_right And.left
  obtain ⟨w', ran, same, outcome⟩ := runOn_later (s := s) a objects known
  rw [opened.registered, opened.answers] at ran
  refine ⟨w', ran, same, ?_⟩
  rcases outcome with ⟨failed, context⟩ | ⟨x, r', found, got, context⟩
  · exact .inl ⟨failed, context ▸ opened.resolve named⟩
  · rw [opened.registered] at got
    right
    refine ⟨r', got, by rw [context], ?_⟩
    intro got'
    rw [context]
    refine (opened.resolve named).complete got' ?_
    rcases suits.module with same | ⟨-, stable⟩
    · rw [← same, Context.recalled?_resolve, found]
      left
      simp [Except.toOption]
    · exact .inr stable

/-- The same behind the second stage. -/
theorem later_of_complete (before : a.Precedes b) {w : Workspace MemoryStore}
    (objects : w.store.objects = a.store.objects) (complete : b.Complete s r r' w.context) :
    ∃ w', (later s a).runOn w = (laterAnswer a (w.context.answer s a.module) (.ok r'), w') ∧
      w'.store.objects = a.store.objects ∧ b.Complete s r r' w'.context := by
  obtain ⟨outputs, grown⟩ := contains_of_full complete.full
  have known : ∀ h ∈ a.definition, w.context.registered.hashes.contains h = true := by
    rw [before.definition, complete.registered]
    exact fun h member => grown h (contains_of_bare complete.bare h member)
  have got : fetched s a.store a.reader (tolerated s) a.output w.context.registered = .ok r' := by
    rw [complete.registered]
    exact fetched_of_contains (before.output ▸ outputs)
  obtain ⟨w', ran, same, outcome⟩ := runOn_later (s := s) a objects known
  rw [got] at ran
  refine ⟨w', ran, same, ?_⟩
  rcases outcome with ⟨-, context⟩ | ⟨x, q, -, got', context⟩
  · exact context ▸ complete.resolve a.module
  · obtain rfl : r' = q := Except.ok.inj (got.symm.trans got')
    have resolved := complete.resolve a.module
    have unchanged : ({ (w.context.resolve s a.module).2 with registered := r' } : Context) =
        (w.context.resolve s a.module).2 := by rw [← resolved.registered]
    rw [context, unchanged]
    exact resolved

/-- An attempt that goes together with a later one leaves the context ready for it, with both
archives if it gets so far. An archive that it had to do without must still be missing. -/
theorem ready_opening (suits : a.Suits s b) {w : Workspace MemoryStore}
    (objects : w.store.objects = a.store.objects) (ready : b.Ready s w.context)
    (missing : ∀ h ∈ a.output, ((opening s a).runOn w).2.context.isRegistered h = true →
      a.store.lookup h a.reader .archive = .error (.notFound h) →
      b.store.lookup h b.reader .archive = .error (.notFound h)) :
    b.Ready s ((opening s a).runOn w).2.context ∧
      ∀ code, ((opening s a).runOn w).1 = .ok code →
        ∃ r r', b.Complete s r r' ((opening s a).runOn w).2.context := by
  have opens := runOn_opening s a w
  obtain ⟨w₁, objects₁, ⟨e, booted, -, same⟩ | ⟨booted, stage⟩⟩ :=
    bootstrap_of_ready suits.toPrecedes objects ready
  · rw [opens, booted]
    refine ⟨same ▸ ready, ?_⟩
    intro code answered
    cases answered
  · rw [booted] at opens
    simp only [opens] at missing ⊢
    rcases stage with ⟨r, opened⟩ | ⟨r, r', complete⟩
    · obtain ⟨w', ran, -, outcome⟩ := later_of_opened suits objects₁ opened
      rcases outcome with ⟨failed, opened'⟩ | ⟨r', got, registered, complete⟩
      · rw [ran] at failed ⊢
        refine ⟨.opened opened', ?_⟩
        intro code answered
        exact absurd answered (failed code)
      · rw [ran] at missing ⊢
        have got' : b.full s r = .ok r' := by
          refine full_mono suits.toPrecedes ?_ got
          intro h member _ refused
          refine missing h member ?_ refused
          rw [Context.isRegistered, registered]
          exact (contains_of_full got).1 h member
        exact ⟨.complete (complete got'), fun _ _ => ⟨r, r', complete got'⟩⟩
    · obtain ⟨w', ran, -, complete'⟩ := later_of_complete suits.toPrecedes objects₁ complete
      rw [ran]
      exact ⟨.complete complete', fun _ _ => ⟨r, r', complete'⟩⟩

/-- What an attempt is answered on a new context. -/
def openingAnswer (s : Context.Surroundings) (a : Attempt) : Except Fault Bytes :=
  match a.bare s with
  | .error e => .error e
  | .ok r => laterAnswer a (soughtIn s r a.module) (a.full s r)

/-- An attempt that finds its context ready is answered as on a new one. -/
theorem opening_eq (isPublic : a.store.ArchivesPublic) {w : Workspace MemoryStore}
    (objects : w.store.objects = a.store.objects) (ready : a.Ready s w.context) :
    ((opening s a).runOn w).1 = openingAnswer s a := by
  have suits : a.Suits s a := ⟨.refl isPublic, .inl rfl⟩
  have opens := runOn_opening s a w
  unfold openingAnswer
  obtain ⟨w₁, objects₁, ⟨e, booted, fails, -⟩ | ⟨booted, stage⟩⟩ :=
    bootstrap_of_ready suits.toPrecedes objects ready
  · rw [opens, booted, fails]
  · rw [opens, booted]
    rcases stage with ⟨r, opened⟩ | ⟨r, r', complete⟩
    · obtain ⟨w', ran, -⟩ := later_of_opened suits objects₁ opened
      simp only [ran, opened.bare]
    · obtain ⟨w', ran, -⟩ := later_of_complete suits.toPrecedes objects₁ complete
      simp only [ran, complete.bare, complete.full, complete.module]

theorem prepares_opening : Action.Prepares s a.reader (opening s a) := by
  refine (prepares_bootstrap a.plan.definition).bind ?_
  intro _
  refine ((names_moduleOf a.plan.definition).looks a.reader).prepares.bind ?_
  intro code
  exact (prepares_preload _).bind fun _ => .pure code

end Attempt

end Notary.Engine
