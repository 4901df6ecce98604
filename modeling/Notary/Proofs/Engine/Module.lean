/-
Loading the module of a contract.

An archive is registered unless it is registered already; what happens to one that is not there
depends on whose archive it is. The archive of the definition comes first, then the module is
resolved, then comes the archive of the output.

* `obtainArchive`, `runOn_obtainArchive` — one archive, and what it makes of a context.
* `loadModule_eq`, `runOn_preload` — the archives of a definition and of an output.
* `prepareModule_eq`, `prepares_prepareModule` — all steps in front of the first function.
* `Action.Prepares.keeps_objects` — none of them changes an object.
-/

import Notary.Proofs.Engine.Action

namespace Notary.Engine

open Notary.Contract
open Notary.Context (Registered)

section Store

variable {σ : Type} [Store.ObjectStore σ]

/-- Registers an archive unless there is none to register or it is registered already. -/
def obtainArchive (s : Context.Surroundings) (reader : PublicKey) (absent : Hash → Action σ Unit) :
    Option Hash → Action σ Unit
  | none => pure ()
  | some hash => do
    if ← Action.inspect (·.context.isRegistered hash) then return ()
    else
      match ← Action.read (Store.ObjectStore.getArchive hash reader) with
      | .ok bytes => Action.register s hash bytes
      | .error (.notFound _) => absent hash
      | .error e => throw (.store e)

/-- The fault of a definition whose archive or module is not there. -/
def notBootstrapped (d : DefinitionSpec) (reader : PublicKey) : Fault :=
  .notBootstrapped d.classname reader d.hashBytes

/-- Registers the archive of a definition, which must be there. -/
def bootstrap (s : Context.Surroundings) (d : DefinitionSpec) (reader : PublicKey) :
    Action σ Unit :=
  obtainArchive s reader (fun _ => throw (notBootstrapped d reader)) d.contentHash?

/-- Resolves the module of a definition. -/
def moduleOf (s : Context.Surroundings) (d : DefinitionSpec) (reader : PublicKey) :
    Action σ Bytes := do
  match ← resolveModule s d.classname with
  | .ok code => return code
  | .error (.notFound _) => throw (notBootstrapped d reader)
  | .error e => throw (.context e)

/-- Registers the archive of an output, without content when it is not there. -/
def preloadOutput (s : Context.Surroundings) (reader : PublicKey) (hash? : Option Hash) :
    Action σ Unit :=
  obtainArchive s reader (fun hash => Action.register s hash []) hash?

theorem loadModule_eq (s : Context.Surroundings) (d : DefinitionSpec) (reader : PublicKey) :
    (loadModule s d reader : Action σ Bytes) =
      bootstrap s d reader >>= fun _ => moduleOf s d reader := by
  unfold loadModule bootstrap moduleOf
  cases d.contentHash? with
  | none =>
    simp only [obtainArchive, pure_bind]
    rfl
  | some hash =>
    simp only [obtainArchive, bind_assoc]
    congr 1
    funext registered
    cases registered with
    | true => rfl
    | false =>
      simp only [Bool.false_eq_true, if_false, bind_assoc]
      congr 1
      funext found
      cases found with
      | ok bytes => rfl
      | error e => cases e <;> rfl

/-- Behind the archive of the definition, only that of the output is registered. -/
theorem runOn_preload (s : Context.Surroundings) (d : DefinitionSpec)
    (output : Option DefinitionSpec) (reader : PublicKey) {w : Workspace σ}
    (loaded : ∀ h ∈ d.contentHash?, w.context.isRegistered h = true) :
    (preload s (d :: output.toList) reader).runOn w =
      (preloadOutput s reader (output.bind (·.contentHash?))).runOn w := by
  have left : ((d :: output.toList).filterMap (·.contentHash?)).filter
      (fun h => !w.context.isRegistered h) =
        ((output.bind (·.contentHash?)).toList).filter fun h => !w.context.isRegistered h := by
    have rest : output.toList.filterMap (·.contentHash?) =
        (output.bind (·.contentHash?)).toList := by
      cases output with
      | none => rfl
      | some o => cases known : o.contentHash? <;> simp [known]
    rw [List.filterMap_cons, ← rest]
    cases known : d.contentHash? with
    | none => rfl
    | some h => simp [loaded h known]
  unfold preload preloadOutput
  rw [Action.runOn_bind, Action.runOn_inspect]
  simp only [left]
  cases output.bind (·.contentHash?) with
  | none => rfl
  | some h =>
    unfold obtainArchive
    rw [Action.runOn_bind (Action.inspect _), Action.runOn_inspect]
    cases known : w.context.isRegistered h with
    | true =>
      simp only [Option.toList_some, known, List.filter_cons, Bool.not_true, Bool.false_eq_true,
        if_false, List.filter_nil, if_true]
      rfl
    | false =>
      simp only [Option.toList_some, known, List.filter_cons, Bool.not_false, if_true,
        List.filter_nil, dropRepeats, List.map_cons, List.map_nil, Bool.false_eq_true, if_false]
      rw [Action.runOn_bind, Action.runOn_all_singleton]
      change _ = (preloadOne s reader h).runOn w
      rcases (preloadOne s reader h).runOn w with ⟨answer, w'⟩
      cases answer <;> rfl

/-- What is left to do for a plan behind the registration of archives. -/
def pickModule (s : Context.Surroundings) (p : Plan) (code : Bytes) : Action σ Bytes :=
  match validate p.contract p.specification with
  | .error e => throw (.validation e)
  | .ok () =>
    match p.ownModule? with
    | none => pure code
    | some name => do
      match ← resolveModule s name with
      | .ok code => return code
      | .error e => throw (.context e)

theorem prepareModule_eq (s : Context.Surroundings) (p : Plan) (reader : PublicKey) :
    (prepareModule s p reader : Action σ Bytes) =
      bootstrap s p.definition reader >>= fun _ => moduleOf s p.definition reader >>= fun code =>
        preload s (p.definition :: p.output.toList) reader >>= fun _ => pickModule s p code := by
  unfold prepareModule
  rw [loadModule_eq, bind_assoc]
  rfl

end Store

/-! ### The steps -/

section Steps

open Notary.Engine.Action

variable {σ : Type} {s : Context.Surroundings} {reader : PublicKey}

theorem names_resolveModule (name : String) : Names s (resolveModule s name : Action σ _) := by
  refine (names_resolve name).bind ?_
  intro found
  cases found with
  | error e => exact .pure _
  | ok r =>
    cases target : r.target with
    | module code => simpa [target] using .pure _
    | message pool type => simpa [target] using .refuse _

theorem names_moduleOf (d : DefinitionSpec) : Names s (moduleOf s d reader : Action σ _) := by
  refine (names_resolveModule d.classname).bind ?_
  intro found
  cases found with
  | ok code => exact .pure _
  | error e => cases e <;> exact .throw _

theorem names_pickModule (p : Plan) (code : Bytes) :
    Names s (pickModule s p code : Action σ _) := by
  unfold pickModule
  split
  · exact .throw _
  · cases p.ownModule? with
    | none => exact .pure _
    | some name =>
      refine (names_resolveModule name).bind ?_
      intro found
      cases found with
      | ok code => exact .pure _
      | error e => exact .throw _

variable [Store.ObjectStore σ]

theorem prepares_register (hash : Hash) (bytes : Bytes) :
    Prepares s reader (register s hash bytes : Action σ Unit) :=
  .basic (.register hash bytes)

theorem prepares_getArchive (hash : Hash) :
    Prepares s reader (read (Store.ObjectStore.getArchive hash reader) : Action σ _) :=
  .basic (.archive hash)

theorem prepares_obtainArchive {absent : Hash → Action σ Unit}
    (prepares : ∀ h, Prepares s reader (absent h)) (hash? : Option Hash) :
    Prepares s reader (obtainArchive s reader absent hash?) := by
  cases hash? with
  | none => exact .pure ()
  | some hash =>
    refine Made.bind (.basic (.inspect fun context => context.isRegistered hash)) ?_
    intro known
    cases known with
    | true => exact .pure ()
    | false =>
      refine (prepares_getArchive hash).bind ?_
      intro found
      cases found with
      | ok bytes => exact prepares_register hash bytes
      | error e =>
        cases e with
        | notFound h => exact prepares hash
        | typeMismatch h expected actual => exact .throw _

theorem prepares_bootstrap (d : DefinitionSpec) :
    Prepares s reader (bootstrap s d reader : Action σ _) :=
  prepares_obtainArchive (fun _ => .throw _) d.contentHash?

theorem prepares_preload (ds : List DefinitionSpec) :
    Prepares s reader (preload s ds reader : Action σ _) := by
  refine Made.bind (.basic (.inspect fun context =>
    (ds.filterMap (·.contentHash?)).filter fun h => !context.isRegistered h)) ?_
  intro hashes
  refine Made.bind (.all ?_) fun _ => .pure _
  intro step member
  obtain ⟨hash, -, rfl⟩ := List.mem_map.mp member
  refine (prepares_getArchive hash).bind ?_
  intro found
  cases found with
  | ok bytes => exact prepares_register hash bytes
  | error e =>
    cases e with
    | notFound h => exact prepares_register hash []
    | typeMismatch h expected actual => exact .throw _

theorem prepares_prepareModule (p : Plan) :
    Prepares s reader (prepareModule s p reader : Action σ _) := by
  rw [prepareModule_eq]
  refine (prepares_bootstrap p.definition).bind ?_
  intro _
  refine ((names_moduleOf p.definition).looks reader).prepares.bind ?_
  intro code
  refine (prepares_preload _).bind ?_
  intro _
  exact ((names_pickModule p code).looks reader).prepares

end Steps

/-! ### Archives of contexts -/

/-- What a context has registered once it was asked to have an archive. -/
def fetched (s : Context.Surroundings) (store : Store.MemoryStore) (reader : PublicKey)
    (absent : Hash → Registered → Except Fault Registered) :
    Option Hash → Registered → Except Fault Registered
  | none, r => .ok r
  | some hash, r =>
    if r.hashes.contains hash then .ok r
    else
      match store.lookup hash reader .archive with
      | .ok bytes => (r.add s hash bytes).mapError .context
      | .error (.notFound _) => absent hash r
      | .error e => .error (.store e)

/-- What is registered replaces what was; a fault leaves the context as it is. -/
def settle {σ : Type} (w : Workspace σ) :
    Except Fault Registered → Except Fault Unit × Workspace σ
  | .ok r => (.ok (), { w with context := { w.context with registered := r } })
  | .error e => (.error e, w)

variable {s : Context.Surroundings} {reader : PublicKey}

theorem runOn_register_eq_settle {σ : Type} (hash : Hash) (bytes : Bytes) (w : Workspace σ) :
    (Action.register s hash bytes).runOn w =
      settle w ((w.context.registered.add s hash bytes).mapError .context) := by
  rw [Action.runOn_register, Context.register]
  cases w.context.registered.add s hash bytes <;> rfl

/-- A context gets what is registered from the store; of the store, only the count of reads
changes. -/
theorem runOn_obtainArchive (s : Context.Surroundings) (reader : PublicKey)
    {absent : Hash → Action Store.MemoryStore Unit}
    {absent' : Hash → Registered → Except Fault Registered}
    (settles : ∀ h w, (absent h).runOn w = settle w (absent' h w.context.registered))
    (hash? : Option Hash) (w : Workspace Store.MemoryStore) :
    ∃ store, store.objects = w.store.objects ∧
      (obtainArchive s reader absent hash?).runOn w =
        settle { w with store } (fetched s w.store reader absent' hash? w.context.registered) := by
  cases hash? with
  | none => exact ⟨w.store, rfl, rfl⟩
  | some hash =>
    simp only [obtainArchive, fetched]
    rw [Action.runOn_bind, Action.runOn_inspect]
    cases known : w.context.isRegistered hash with
    | true =>
      rw [Context.isRegistered] at known
      refine ⟨w.store, rfl, ?_⟩
      rw [known]
      rfl
    | false =>
      rw [Context.isRegistered] at known
      refine ⟨{ w.store with reads := w.store.reads + 1 }, rfl, ?_⟩
      rw [known]
      change (Action.runOn (do
        match ← Action.read (Store.ObjectStore.getArchive hash reader) with
        | .ok bytes => Action.register s hash bytes
        | .error (.notFound _) => absent hash
        | .error e => throw (.store e)) w) = _
      rw [Action.runOn_bind, Action.read, Action.runOn_ofStore]
      have answer : (Store.ObjectStore.getArchive hash reader w.store).1 =
          w.store.lookup hash reader .archive := rfl
      have counted : (Store.ObjectStore.getArchive hash reader w.store).2 =
          { w.store with reads := w.store.reads + 1 } := rfl
      rw [answer, counted]
      cases w.store.lookup hash reader .archive with
      | ok bytes => exact runOn_register_eq_settle hash bytes _
      | error e =>
        cases e with
        | notFound h => exact settles hash _
        | typeMismatch h expected actual => rfl

/-! ### Stores -/

open Notary.Engine.Action

/-- The objects of the store stay as they are. -/
def Action.Frame.objects : Frame Store.MemoryStore where
  rel w w' := w.store.objects = w'.store.objects
  refl _ := rfl
  trans := Eq.trans

theorem Action.Prepares.keeps_objects {α : Type} {act : Action Store.MemoryStore α}
    (prepares : Prepares s reader act) : Keeps Frame.objects act :=
  prepares.unwritten.mono fun _ _ kept => kept.objects.symm

end Notary.Engine
