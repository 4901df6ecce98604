/-
The order in which outputs are stored.

The outputs of an execution are stored on the worker pool, so it is not said which of them comes
first. The records that are made of them do not tell the order, and neither do the audience and the
signer of what is stored: all outputs are stored by one caller for the same readers. The type of an
object does tell it, though. Outputs of different types may have the same bytes, and so meet in one
object, which takes its type from the one that comes first.

* `storeInTurns`, `storeInTurns_zipIdx` — outputs stored in some order; in their own order this is
  what an execution does.
* `Disputed` — a hash for which the order counts.
* `stored_alike_iff` — what is the same in every order.
* `order_decides_type` — two outputs with one content.
-/

import Notary.Proofs.Engine.Effects
import Notary.Proofs.Pool.Orders

namespace Notary.Engine

open Notary.Contract
open Notary.Store (MemoryStore ObjectKind Readers StoredObject)

/-! ### Outputs in the order of their turns -/

/-- The task of storing an output. -/
def storeTask (caller : Caller) (readers : Readers) (scope : Option ScopeState) (o : Output) :
    Pool.Task (Workspace MemoryStore) Fault (Nat × ExecutionResult) :=
  (storeOutput caller readers scope o).runOn

/-- Stores outputs on the worker pool in the order of their turns, each with its place among the
outputs that were handed in. -/
def storeInTurns (caller : Caller) (readers : Readers) (scope : Option ScopeState)
    (turns : List (Output × Nat)) : Action MemoryStore (List (Nat × ExecutionResult)) :=
  ExceptT.mk (Pool.runInTurns (turns.map fun t => (storeTask caller readers scope t.1, t.2)))

section Turns

variable {caller : Caller} {readers : Readers} {scope : Option ScopeState}

/-- An execution stores its outputs in their own order. -/
theorem storeInTurns_zipIdx (outputs : List Output) :
    storeInTurns caller readers scope outputs.zipIdx =
      Action.all (outputs.map (storeOutput caller readers scope)) := by
  have tasks : (outputs.zipIdx.map fun t => (storeTask caller readers scope t.1, t.2)) =
      (outputs.map (storeTask caller readers scope)).zipIdx := by
    rw [List.zipIdx_map]
    rfl
  have steps : outputs.map (storeTask caller readers scope) =
      (outputs.map (storeOutput caller readers scope)).map Action.runOn := by
    rw [List.map_map]
    rfl
  rw [storeInTurns, tasks]
  refine congrArg ExceptT.mk ?_
  funext w
  rw [Pool.runInTurns_zipIdx, steps]

/-- The store behind signed writes of outputs. -/
theorem foldl_outputWrite (outputs : List Output) (w : Workspace MemoryStore) :
    outputs.foldl (fun w o => { w with store := (outputWrite caller readers o).apply w.store }) w =
      { w with store := w.store.after (outputs.map (outputWrite caller readers)) } := by
  induction outputs generalizing w with
  | nil => rfl
  | cons o rest ih => exact ih _

/-- In whatever order the turns come, each output has its result at its own place, and the writes
are made in the order of the turns. -/
theorem runOn_storeInTurns {turns : List (Output × Nat)} {outputs : List Output}
    (order : turns.Perm outputs.zipIdx) (w : Workspace MemoryStore) :
    (storeInTurns caller readers scope turns).runOn w =
      (.ok (outputs.map fun o => (o.index, passResult scope o)),
        { w with
          store := w.store.after ((turns.map (·.1)).map (outputWrite caller readers)) }) := by
  have fixed (o : Output) (w : Workspace MemoryStore) : storeTask caller readers scope o w =
      (.ok (o.index, passResult scope o),
        { w with store := (outputWrite caller readers o).apply w.store }) :=
    runOn_storeOutput_eq readers o w
  refine (Pool.runInTurns_of_fixed fixed order w).trans ?_
  rw [foldl_outputWrite, Pool.inOrder_map_ok]

end Turns

/-! ### What the order decides -/

/-- Nothing is stored under the hash yet, and two outputs that have it differ. -/
def Disputed (old : MemoryStore) (outputs : List Output) (h : Hash) : Prop :=
  old.objects[h]? = none ∧ ∃ o ∈ outputs, ∃ o' ∈ outputs,
    contentHash o.message.bytes = h ∧ contentHash o'.message.bytes = h ∧
      (o.message.type ≠ o'.message.type ∨ o.message.bytes ≠ o'.message.bytes)

theorem Disputed.perm {old : MemoryStore} {os os' : List Output} {h : Hash} (order : os.Perm os')
    (disputed : Disputed old os h) : Disputed old os' h := by
  obtain ⟨absent, o, member, o', member', differ⟩ := disputed
  exact ⟨absent, o, order.mem_iff.mp member, o', order.mem_iff.mp member', differ⟩

section Stores

variable (caller : Caller) (extra : List PublicKey) (c : Contract) (old : MemoryStore)

/-- What lies under a hash when outputs have been stored in this order. -/
def objectLeft (os : List Output) (h : Hash) : Option StoredObject :=
  (old.after (os.map (outputWrite caller (audience c extra)))).objects[h]?

/-- Two orders leave the same object under a hash, unless each of them leaves what some output with
this hash makes of it. -/
theorem objects_of_orders {os os' : List Output} (order : os.Perm os') (h : Hash) :
    objectLeft caller extra c old os h = objectLeft caller extra c old os' h ∨
      ∃ o ∈ os, ∃ o' ∈ os, contentHash o.message.bytes = h ∧ contentHash o'.message.bytes = h ∧
        objectLeft caller extra c old os h =
          some (MemoryStore.merge old.objects[h]? (outputObject caller extra c o)) ∧
        objectLeft caller extra c old os' h =
          some (MemoryStore.merge old.objects[h]? (outputObject caller extra c o')) := by
  rcases objects_after_outputs caller extra c os old h with ⟨none, stays⟩ |
    ⟨o, member, bears, stored⟩
  · rcases objects_after_outputs caller extra c os' old h with ⟨-, stays'⟩ |
      ⟨o', member', bears', -⟩
    · exact .inl (stays.trans stays'.symm)
    · exact absurd bears' (none o' (order.mem_iff.mpr member'))
  · rcases objects_after_outputs caller extra c os' old h with ⟨none', -⟩ |
      ⟨o', member', bears', stored'⟩
    · exact absurd bears (none' o (order.mem_iff.mp member))
    · exact .inr ⟨o, member, o', order.mem_iff.mpr member', bears, bears', stored, stored'⟩

/-- All outputs are stored for the same readers by one signer. -/
theorem access_of_orders {os os' : List Output} (order : os.Perm os') (h : Hash) :
    (objectLeft caller extra c old os h).map (fun o => (o.audience, o.signer)) =
      (objectLeft caller extra c old os' h).map fun o => (o.audience, o.signer) := by
  rcases objects_of_orders caller extra c old order h with same |
    ⟨o, -, o', -, -, -, stored, stored'⟩
  · rw [same]
  · rw [stored, stored']
    cases old.objects[h]? <;> rfl

/-- The order does not show in an object that was there before, nor in one that all outputs of its
hash agree on. -/
theorem objects_of_undisputed {os os' : List Output} (order : os.Perm os') {h : Hash}
    (undisputed : ¬ Disputed old os h) :
    objectLeft caller extra c old os h = objectLeft caller extra c old os' h := by
  rcases objects_of_orders caller extra c old order h with same |
    ⟨o, member, o', member', bears, bears', stored, stored'⟩
  · exact same
  · rw [stored, stored']
    cases there : old.objects[h]? with
    | some p => rfl
    | none =>
      have agree : o.message.type = o'.message.type ∧ o.message.bytes = o'.message.bytes := by
        refine Classical.not_not.mp fun differ => undisputed ?_
        exact ⟨there, o, member, o', member', bears, bears',
          Classical.not_and_iff_not_or_not.mp differ⟩
      simp only [MemoryStore.merge, outputObject, agree]

/-- The output whose turn comes first fixes the object under its hash. -/
theorem objects_of_first {o : Output} {h : Hash} (bears : contentHash o.message.bytes = h)
    (rest : List Output) :
    objectLeft caller extra c old (o :: rest) h =
      some (MemoryStore.merge old.objects[h]? (outputObject caller extra c o)) := by
  have first : ((outputWrite caller (audience c extra) o).apply old).objects[h]? =
      some (MemoryStore.merge old.objects[h]? (outputObject caller extra c o)) := by
    rw [MemoryStore.Step.objects_apply, written?_outputWrite]
    exact (MemoryStore.objects_insert old _ h).trans (if_pos bears)
  rw [objectLeft, List.map_cons, MemoryStore.after_cons]
  rcases objects_after_outputs caller extra c rest
    ((outputWrite caller (audience c extra) o).apply old) h with ⟨-, stays⟩ | ⟨o', -, -, merged⟩
  · rw [stays, first]
  · have absorbed : MemoryStore.merge
        (some (MemoryStore.merge old.objects[h]? (outputObject caller extra c o)))
        (outputObject caller extra c o') =
        MemoryStore.merge old.objects[h]? (outputObject caller extra c o) :=
      MemoryStore.merge_merge _ rfl
    rw [merged, first, absorbed]

end Stores

/-- Under a hash that is not there yet, the output whose turn comes first leaves its own object. -/
theorem stored_of_first (caller : Caller) (extra : List PublicKey) (c : Contract)
    {scope : Option ScopeState} {w : Workspace MemoryStore} {o : Output}
    {h : Hash} (absent : w.store.objects[h]? = none) (bears : contentHash o.message.bytes = h)
    {place : Nat} {rest : List (Output × Nat)} {outputs : List Output}
    (order : ((o, place) :: rest).Perm outputs.zipIdx) :
    ((storeInTurns caller (audience c extra) scope ((o, place) :: rest)).runOn
        w).2.store.objects[h]? = some (outputObject caller extra c o) := by
  have stored := objects_of_first caller extra c w.store bears (rest.map (·.1))
  rw [absent] at stored
  rw [runOn_storeInTurns order]
  exact stored

/-- However the turns of the outputs come, they have the same results, and what is stored under a
hash has the same audience and the same signer. It is the same object in every order exactly when it
was there before, or all outputs that have the hash agree on type and bytes; the order in which an
execution hands its outputs in is one of them. -/
theorem stored_alike_iff (caller : Caller) (extra : List PublicKey) (c : Contract)
    (scope : Option ScopeState) (outputs : List Output) (w : Workspace MemoryStore) :
    let store := fun turns => storeInTurns caller (audience c extra) scope turns
    store outputs.zipIdx = Action.all (outputs.map (storeOutput caller (audience c extra) scope)) ∧
      (∀ turns, turns.Perm outputs.zipIdx → ((store turns).runOn w).1 =
        .ok (outputs.map fun o => (o.index, passResult scope o))) ∧
      (∀ turns turns', turns.Perm outputs.zipIdx → turns'.Perm outputs.zipIdx → ∀ h : Hash,
        ((store turns).runOn w).2.store.objects[h]?.map (fun o => (o.audience, o.signer)) =
          ((store turns').runOn w).2.store.objects[h]?.map fun o => (o.audience, o.signer)) ∧
      ∀ h : Hash, (∀ turns turns', turns.Perm outputs.zipIdx → turns'.Perm outputs.zipIdx →
          ((store turns).runOn w).2.store.objects[h]? =
            ((store turns').runOn w).2.store.objects[h]?) ↔
        ¬ Disputed w.store outputs h := by
  intro store
  have ran {turns : List (Output × Nat)} (order : turns.Perm outputs.zipIdx) :=
    @runOn_storeInTurns caller (audience c extra) scope turns outputs order w
  have shuffled {turns : List (Output × Nat)} (order : turns.Perm outputs.zipIdx) :
      (turns.map (·.1)).Perm outputs := by
    have firsts := order.map Prod.fst
    rwa [List.zipIdx_map_fst] at firsts
  refine ⟨storeInTurns_zipIdx outputs, ?_, ?_, ?_⟩
  · intro turns order
    rw [ran order]
  · intro turns turns' order order' h
    rw [ran order, ran order']
    exact access_of_orders caller extra c w.store
      ((shuffled order).trans (shuffled order').symm) h
  · intro h
    constructor
    · rintro same ⟨absent, o, member, o', member', bears, bears', differ⟩
      obtain ⟨place, rest, order⟩ := Pool.exists_first_turn member
      obtain ⟨place', rest', order'⟩ := Pool.exists_first_turn member'
      have agree := same _ _ order order'
      rw [stored_of_first caller extra c absent bears order,
        stored_of_first caller extra c absent bears' order'] at agree
      simp only [outputObject, Option.some.injEq, StoredObject.mk.injEq,
        ObjectKind.record.injEq] at agree
      rcases differ with types | bytes
      · exact types agree.1
      · exact bytes agree.2.1
    · intro undisputed turns turns' order order'
      rw [ran order, ran order']
      refine objects_of_undisputed caller extra c w.store
        ((shuffled order).trans (shuffled order').symm) ?_
      intro disputed
      exact undisputed (disputed.perm (shuffled order))

/-- An output of a type, with one field that the type does not name. -/
def unnamed (index : Nat) (type : String) : Output :=
  ⟨index, "asset", .mk type [] [.blob 1 [97]]⟩

theorem bytes_unnamed (index : Nat) (type : String) :
    (unnamed index type).message.bytes = [10, 1, 97] := by
  change Schema.arrange [] [(1, (Schema.Unknown.blob 1 [97]).bytes)] = _
  decide +kernel

/-- Two outputs of different types with the same bytes: the one that is stored first decides on the
type of the object. -/
theorem order_decides_type :
    let asset := unnamed 0 "acme.Asset"
    let lien := unnamed 1 "acme.Lien"
    let store := fun turns => ((storeInTurns ⟨⟨.zero⟩, ⟨.zero⟩⟩ (audience {} []) none turns).runOn
      ⟨{}, {}⟩).2.store
    [(asset, 0), (lien, 1)].Perm [asset, lien].zipIdx ∧
      [(lien, 1), (asset, 0)].Perm [asset, lien].zipIdx ∧
      (store [(asset, 0), (lien, 1)]).objects[contentHash [10, 1, 97]]?.map (·.kind) =
        some (.record "acme.Asset") ∧
      (store [(lien, 1), (asset, 0)]).objects[contentHash [10, 1, 97]]?.map (·.kind) =
        some (.record "acme.Lien") := by
  intro asset lien store
  have order : [(asset, 0), (lien, 1)].Perm [asset, lien].zipIdx := .refl _
  have order' : [(lien, 1), (asset, 0)].Perm [asset, lien].zipIdx := .swap _ _ _
  have bears (index : Nat) (type : String) : contentHash (unnamed index type).message.bytes =
      contentHash [10, 1, 97] := by rw [bytes_unnamed]
  refine ⟨order, order', ?_, ?_⟩
  · simp only [store]
    rw [stored_of_first _ [] {} (by simp) (bears 0 "acme.Asset") order]
    rfl
  · simp only [store]
    rw [stored_of_first _ [] {} (by simp) (bears 1 "acme.Lien") order']
    rfl

end Notary.Engine
