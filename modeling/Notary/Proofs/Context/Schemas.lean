/-
The message types that a context resolves.

A message type comes from the host, from the schemas of the context's own archives or from the types
that everybody shares. All of these are pools that were made by adding files, so a type that is
resolved, at whatever point of a history, is one of such a pool.

* `Surroundings.Made` — the pools around a context were made by adding files.
* `made_registered` — so was the pool of the context's archives.
* `made_of_answer` — and the pool of every message type that a name resolves to.
-/

import Notary.Proofs.Context.Resolution
import Notary.Proofs.Schema.Pools

namespace Notary.Context

open Notary.Symbol

variable {s : Surroundings} {history : List Step} {name : String} {pool : Schema.Pool}
  {type : Schema.MessageType}

/-- The pools of the host and of the shared types were made by adding files. -/
structure Surroundings.Made (s : Surroundings) : Prop where
  host : s.host.pool.Made
  global : s.global.pool.Made

theorem made_shared : Scope.shared.pool.Made := by
  unfold Scope.shared
  dsimp only
  exact Schema.Pool.made_sharedPool

theorem Surroundings.made_of_host (host : s.host.pool.Made) (shared : s.global = .shared) :
    s.Made where
  host := host
  global := shared ▸ made_shared

/-- A target that is a message type is the one that a pool has of a name, and the pool was made by
adding files. -/
def MadeTarget (name : String) (target : Target) : Prop :=
  ∀ pool type, target = .message pool type → pool.Made ∧ pool.type? (withoutDot name) = some type

theorem madeTarget_ofPool? {target : Target} (made : pool.Made)
    (found : ofPool? pool name = some target) : MadeTarget name target := by
  obtain ⟨type, named, rfl⟩ := Option.map_eq_some_iff.mp found
  intro pool' type' same
  cases same
  exact ⟨made, named⟩

theorem madeTarget_module (code : Bytes) : MadeTarget name (.module code) := by
  intro pool type same
  cases same

/-! ### Pools of archives -/

theorem Registered.made_poolOf? {schemas : List (String × Bytes)} {pool pool' : Schema.Pool}
    (made : pool.Made) (added : poolOf? pool schemas = some pool') : pool'.Made := by
  induction schemas generalizing pool with
  | nil =>
    cases added
    exact made
  | cons entry rest ih =>
    rw [poolOf?, List.foldlM_cons, Option.bind_eq_bind, Option.bind_eq_some_iff] at added
    obtain ⟨pool₁, here, later⟩ := added
    exact ih (made.addSet? here) later

/-- The schemas of archives are files that are added to an empty pool. -/
theorem made_registered (s : Surroundings) (history : List Step) :
    (Context.empty.after s history).registered.pool.Made := by
  have searches := searches_after (s := s) (c := .empty) Registered.searches_empty history
  exact Registered.made_poolOf? .empty searches.pool_eq

/-! ### Searches -/

theorem Registered.madeTarget_find {r : Registered} (made : r.pool.Made) {target : Target}
    (found : r.find name = .ok (some target)) : MadeTarget name target := by
  unfold find at found
  split at found
  · exact madeTarget_ofPool? made (Except.ok.inj found)
  · split at found
    · cases found
    · split at found
      · cases found
      · cases found
        exact madeTarget_module _

theorem madeTarget_findScope {scope : Scope} (made : scope.pool.Made) {target : Target}
    (found : scope.find? name = some target) : MadeTarget name target := by
  unfold Scope.find? at found
  split at found
  · cases found
    exact madeTarget_module _
  · exact madeTarget_ofPool? made found

theorem madeTarget_search (made : s.Made) {c : Context} (registered : c.registered.pool.Made)
    {origins : List Origin} {r : Resolved} (found : (c.search s name origins).result = .ok r) :
    MadeTarget name r.target := by
  induction origins with
  | nil => cases found
  | cons origin rest ih =>
    unfold search at found
    cases here : c.findIn s name origin with
    | error e => simp [here] at found
    | ok held =>
      cases held with
      | none => exact ih (by simpa [here] using found)
      | some target =>
        obtain rfl : ⟨name, origin, target⟩ = r := by simpa [here] using found
        cases origin with
        | isolated => exact Registered.madeTarget_find registered here
        | parent => exact madeTarget_findScope made.host (Except.ok.inj here)
        | global => exact madeTarget_findScope made.global (Except.ok.inj here)

/-! ### Histories -/

theorem exists_prefix_of_mem_calls {c call : Context} (member : call ∈ calls s name c history) :
    ∃ before, call = c.after s before := by
  induction history generalizing c with
  | nil => cases member
  | cons step rest ih =>
    rw [calls] at member
    rcases List.mem_append.mp member with here | later
    · split at here
      · exact ⟨[], List.mem_singleton.mp here⟩
      · cases here
    · obtain ⟨before, rfl⟩ := ih later
      exact ⟨step :: before, rfl⟩

/-- Every message type that a name resolves to is the one that a pool has of the name, and the pool
was made by adding files. -/
theorem made_of_answer (made : s.Made) {r : Resolved}
    (answered : (Context.empty.after s history).answer s name = .ok r)
    (message : r.target = .message pool type) :
    pool.Made ∧ pool.type? (withoutDot name) = some type := by
  have sought (before : List Step) {r : Resolved}
      (found : (Context.empty.after s before).sought s name = .ok r) :
      MadeTarget name r.target :=
    madeTarget_search made (made_registered s before) found
  have target : MadeTarget name r.target := by
    rw [answer_after] at answered
    split at answered
    · rename_i kept found
      cases answered
      have first : (calls s name .empty history).findSome? (fun call =>
          (call.sought s name).toOption) = some r := found
      obtain ⟨call, member, here⟩ := List.exists_of_findSome?_eq_some first
      obtain ⟨before, rfl⟩ := exists_prefix_of_mem_calls member
      refine sought before (r := r) ?_
      cases searched : (Context.empty.after s before).sought s name with
      | error e =>
        rw [searched] at here
        cases here
      | ok r' =>
        rw [searched] at here
        cases here
        rfl
    · exact sought history answered
  exact target pool type message

end Notary.Context
