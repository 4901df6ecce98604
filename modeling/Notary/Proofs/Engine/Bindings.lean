/-
Which functions run.

Every pending consideration is bound to a function and to the records that it proposes itself. The
function runs when each of its parameters finds a record of its name and type, and no record makes
it superfluous.

* `Binding`, `Binding.Runs` — a bound consideration, and whether its function runs.
* `canExecute_iff` — counting the records of a function decides just that.
* `runOn_partitionFrom`, `gives_partitionFrom` — the pending considerations are split by it, each
  with its own records.
-/

import Mathlib.Data.List.Nodup
import Notary.Proofs.Engine.Records

namespace Notary.Engine

open Notary.Contract
open Notary.Metadata

/-- A pending consideration with its function and the records that it proposes. -/
structure Binding where
  index : Nat
  consideration : Consideration
  function : FunctionDescriptor
  proposed : RecordPool

/-- The records among which a parameter is looked for. -/
def RecordKind.pool (existing proposed : RecordPool) : RecordKind → RecordPool
  | .existing => existing
  | .proposed => proposed

/-- There is a record of the parameter's name, and it is of the parameter's type. -/
def Resolved (existing proposed : RecordPool) (p : Parameter) : Prop :=
  ∃ r, (RecordKind.pool existing proposed p.recordType).get? p.name = some r ∧ r.type = p.typeName

namespace Binding

/-- The function with its arguments. -/
def prepared (existing : RecordPool) (b : Binding) : Prepared :=
  ⟨b.index, b.function, matchParameters b.function existing b.proposed⟩

/-- All parameters are resolved, and the record that would make the function superfluous is not
there. -/
def Runs (existing : RecordPool) (b : Binding) : Prop :=
  (∀ p ∈ b.function.parameters, Resolved existing b.proposed p) ∧
    ∀ name ∈ b.function.skipIfRecordExists, ∀ r ∈ existing, r.name ≠ name

end Binding

/-! ### Records of parameters -/

theorem matchParameter_eq_some_iff {existing proposed : RecordPool} {p : Parameter}
    {r : LoadedRecord} :
    matchParameter existing proposed p = some r ↔
      (RecordKind.pool existing proposed p.recordType).get? p.name = some r ∧
        r.type = p.typeName := by
  have among : matchParameter existing proposed p =
      ((RecordKind.pool existing proposed p.recordType).get? p.name).filter
        fun r => r.type == p.typeName := by
    unfold matchParameter
    cases p.recordType <;> rfl
  rw [among, Option.filter_eq_some_iff, beq_iff_eq]

theorem isSome_matchParameter_iff {existing proposed : RecordPool} {p : Parameter} :
    (matchParameter existing proposed p).isSome ↔ Resolved existing proposed p := by
  simp only [Option.isSome_iff_exists, matchParameter_eq_some_iff, Resolved]

theorem recordExists_iff {f : FunctionDescriptor} {existing : RecordPool} :
    recordExists f existing = true ↔
      ∃ name ∈ f.skipIfRecordExists, ∃ r ∈ existing, r.name = name := by
  unfold recordExists RecordPool.contains
  cases f.skipIfRecordExists with
  | none => simp
  | some name =>
    simp only [Option.any_some, List.any_eq_true, beq_iff_eq, Option.mem_some_iff,
      exists_eq_left']

/-- As many records as parameters, and no record that makes the function superfluous. -/
theorem canExecute_iff (existing : RecordPool) (b : Binding) :
    canExecute b.function (b.prepared existing).arguments.length existing = true ↔
      b.Runs existing := by
  have all : (b.prepared existing).arguments.length = b.function.parameters.length ↔
      ∀ p ∈ b.function.parameters, Resolved existing b.proposed p := by
    rw [Binding.prepared, matchParameters, List.filterMap_length_eq_length]
    simp only [isSome_matchParameter_iff]
  have absent : recordExists b.function existing = false ↔
      ∀ name ∈ b.function.skipIfRecordExists, ∀ r ∈ existing, r.name ≠ name := by
    rw [← Bool.not_eq_true, recordExists_iff]
    grind
  unfold canExecute Binding.Runs
  rw [Bool.and_eq_true, beq_iff_eq, Bool.not_eq_true', all, absent]

instance (existing : RecordPool) (b : Binding) : Decidable (b.Runs existing) :=
  decidable_of_iff _ (canExecute_iff existing b)

theorem canExecute_eq (existing : RecordPool) (b : Binding) :
    canExecute b.function (b.prepared existing).arguments.length existing =
      decide (b.Runs existing) :=
  Bool.eq_iff_iff.mpr ((canExecute_iff existing b).trans decide_eq_true_iff.symm)

/-! ### Splitting the considerations -/

/-- The considerations without a result, with their places. -/
def pendingFrom (index : Nat) (cs : List Consideration) : List (Consideration × Nat) :=
  (cs.zipIdx index).filter (·.1.isPending)

theorem mem_pendingFrom_iff {cs : List Consideration} {k : Consideration} {i : Nat} :
    (k, i) ∈ pendingFrom 0 cs ↔ cs[i]? = some k ∧ k.isPending = true := by
  rw [pendingFrom, List.mem_filter, List.mk_mem_zipIdx_iff_getElem?]

/-- The places of considerations rise. -/
theorem pairwise_pendingFrom (index : Nat) (cs : List Consideration) :
    ((pendingFrom index cs).map (·.2)).Pairwise (· < ·) := by
  have sub : ((pendingFrom index cs).map (·.2)).Sublist ((cs.zipIdx index).map (·.2)) :=
    List.filter_sublist.map _
  have places : (cs.zipIdx index).map (·.2) = List.range' index cs.length :=
    List.zipIdx_map_snd index cs
  rw [places] at sub
  exact List.Pairwise.sublist sub List.pairwise_lt_range'

/-- No two considerations have one place. -/
theorem nodup_pendingFrom (index : Nat) (cs : List Consideration) :
    ((pendingFrom index cs).map (·.2)).Nodup :=
  (pairwise_pendingFrom index cs).imp Nat.ne_of_lt

section Places

variable {cs : List Consideration} {bs : List Binding} {existing : RecordPool}

theorem exists_binding_iff_of_places
    (places : bs.map (fun b => (b.consideration, b.index)) = pendingFrom 0 cs)
    {k : Consideration} {i : Nat} :
    (∃ b ∈ bs, b.consideration = k ∧ b.index = i) ↔ cs[i]? = some k ∧ k.isPending = true := by
  rw [← mem_pendingFrom_iff, ← places]
  simp

theorem pairwise_index_of_places
    (places : bs.map (fun b => (b.consideration, b.index)) = pendingFrom 0 cs) :
    (bs.map (·.index)).Pairwise (· < ·) := by
  have rises := pairwise_pendingFrom 0 cs
  rwa [← places, List.map_map] at rises

/-- Some of the bindings, prepared, are in the order of the considerations. -/
theorem pairwise_prepared_of_places
    (places : bs.map (fun b => (b.consideration, b.index)) = pendingFrom 0 cs)
    (picks : Binding → Bool) :
    (((bs.filter picks).map (·.prepared existing)).map (·.index)).Pairwise (· < ·) := by
  rw [List.map_map]
  exact (pairwise_index_of_places places).sublist (List.filter_sublist.map _)

/-- No binding has the place of another, so whether one is picked shows in the places. -/
theorem index_mem_prepared_iff
    (places : bs.map (fun b => (b.consideration, b.index)) = pendingFrom 0 cs)
    (picks : Binding → Bool) {b : Binding} (member : b ∈ bs) :
    b.index ∈ ((bs.filter picks).map (·.prepared existing)).map (·.index) ↔ picks b = true := by
  have distinct := (pairwise_index_of_places places).imp Nat.ne_of_lt
  simp only [List.map_map, List.mem_map, List.mem_filter]
  constructor
  · rintro ⟨b', ⟨member', picked⟩, same⟩
    exact List.inj_on_of_nodup_map distinct member' member same ▸ picked
  · intro picked
    exact ⟨b, ⟨member, picked⟩, rfl⟩

end Places

/-- The bindings of an execution: each has the function that its consideration names, and the
records that are loaded for it. -/
structure Bound (s : Context.Surroundings) (reader : PublicKey) (m : ContractMetadata)
    (w : Workspace Store.MemoryStore) (bs : List Binding) : Prop where
  named : ∀ b ∈ bs, m.function? b.consideration.considerationName = some b.function
  loaded : ∀ b ∈ bs,
    (loadProposed s reader b.consideration b.function).Gives w b.proposed

/-- Bindings as `partition` makes them on any store: each has the function that its consideration
names, and the records that are loaded for it on a workspace on the way. -/
structure BoundOnTheWay {σ : Type} [Store.ObjectStore σ] (s : Context.Surroundings)
    (reader : PublicKey) (m : ContractMetadata) (w : Workspace σ) (bs : List Binding) : Prop where
  named : ∀ b ∈ bs, m.function? b.consideration.considerationName = some b.function
  loaded : ∀ b ∈ bs, ∃ u u', Reached s reader w u ∧
    (loadProposed s reader b.consideration b.function).runOn u = (.ok b.proposed, u')

variable {σ : Type} [Store.ObjectStore σ] {s : Context.Surroundings} {reader : PublicKey}
  {m : ContractMetadata} {existing : RecordPool} {w w' : Workspace σ}

/-- A consideration is prepared by binding it. -/
theorem runOn_prepare {k : Consideration} {index : Nat} {p : Prepared} {runs : Bool}
    (prepares : (prepare s reader m existing k index).runOn w = (.ok (p, runs), w')) :
    ∃ b : Binding, b.index = index ∧ b.consideration = k ∧
      m.function? k.considerationName = some b.function ∧
      (loadProposed s reader k b.function).runOn w = (.ok b.proposed, w') ∧
      p = b.prepared existing ∧ runs = decide (b.Runs existing) := by
  unfold prepare at prepares
  cases named : m.function? k.considerationName with
  | none =>
    rw [named] at prepares
    cases prepares
  | some f =>
    rw [named] at prepares
    obtain ⟨proposed, u, loaded, answered⟩ := Action.runOn_bind_eq_ok_iff.mp prepares
    cases answered
    exact ⟨⟨index, k, f, proposed⟩, rfl, rfl, rfl, loaded, rfl,
      canExecute_eq existing ⟨index, k, f, proposed⟩⟩

/-- The pending considerations are bound one by one, and split by whether their functions run. -/
theorem runOn_partitionFrom {index : Nat} {cs : List Consideration} {parts : Partition}
    (splits : (partitionFrom s reader m existing index cs).runOn w = (.ok parts, w')) :
    ∃ bs : List Binding, bs.map (fun b => (b.consideration, b.index)) = pendingFrom index cs ∧
      BoundOnTheWay s reader m w bs ∧
      parts.executable = (bs.filter (·.Runs existing)).map (·.prepared existing) ∧
      parts.skipped = (bs.filter (¬ ·.Runs existing)).map (·.prepared existing) := by
  induction cs generalizing index parts w w' with
  | nil =>
    cases splits
    exact ⟨[], rfl, ⟨by simp, by simp⟩, rfl, rfl⟩
  | cons k rest ih =>
    unfold partitionFrom at splits
    by_cases pending : k.isPending = true
    · rw [if_pos pending] at splits
      obtain ⟨⟨p, runs⟩, u, prepares, later⟩ := Action.runOn_bind_eq_ok_iff.mp splits
      obtain ⟨tail, u', splits', answered⟩ := Action.runOn_bind_eq_ok_iff.mp later
      obtain ⟨b, here, of, named, loaded, rfl, rfl⟩ := runOn_prepare prepares
      obtain ⟨bs, places, bound, executable, skipped⟩ := ih splits'
      have further : Reached s reader w u := (looks_loadProposed k b.function).reached loaded
      refine ⟨b :: bs, ?_, ⟨?_, ?_⟩, ?_⟩
      · simp [pendingFrom, pending, here, of] at places ⊢
        exact places
      · simpa [of, named] using bound.named
      · rw [List.forall_mem_cons]
        refine ⟨⟨w, u, .start, of ▸ loaded⟩, ?_⟩
        intro b' member
        obtain ⟨v, v', reached, loaded'⟩ := bound.loaded b' member
        exact ⟨v, v', further.trans reached, loaded'⟩
      · by_cases runs : b.Runs existing
        · simp only [runs, decide_true] at answered
          cases answered
          simp [runs, executable, skipped]
        · simp only [runs, decide_false] at answered
          cases answered
          simp [runs, executable, skipped]
    · rw [if_neg pending] at splits
      obtain ⟨bs, places, rest⟩ := ih splits
      refine ⟨bs, ?_, rest⟩
      rw [places]
      simp [pendingFrom, pending]

/-- The same on a memory store, where the records may as well be loaded at the start. -/
theorem gives_partitionFrom {w : Workspace Store.MemoryStore} {index : Nat}
    {cs : List Consideration} {parts : Partition}
    (splits : (partitionFrom s reader m existing index cs).Gives w parts) :
    ∃ bs : List Binding, bs.map (fun b => (b.consideration, b.index)) = pendingFrom index cs ∧
      Bound s reader m w bs ∧
      parts.executable = (bs.filter (·.Runs existing)).map (·.prepared existing) ∧
      parts.skipped = (bs.filter (¬ ·.Runs existing)).map (·.prepared existing) := by
  obtain ⟨bs, places, bound, parts⟩ := runOn_partitionFrom (Prod.ext splits rfl)
  refine ⟨bs, places, ⟨bound.named, ?_⟩, parts⟩
  intro b member
  obtain ⟨u, u', reached, loaded⟩ := bound.loaded b member
  exact ((looks_loadProposed _ _).steady.gives_of_runOn reached.alike loaded).1

/-- When all pending considerations can be bound, they are split. -/
theorem gives_partitionFrom_of_bound {w : Workspace Store.MemoryStore} {index : Nat}
    {cs : List Consideration} {bs : List Binding}
    (places : bs.map (fun b => (b.consideration, b.index)) = pendingFrom index cs)
    (bound : Bound s reader m w bs) :
    (partitionFrom s reader m existing index cs).Gives w
      ⟨(bs.filter (·.Runs existing)).map (·.prepared existing),
        (bs.filter (¬ ·.Runs existing)).map (·.prepared existing)⟩ := by
  induction cs generalizing index bs with
  | nil =>
    obtain rfl : bs = [] := List.map_eq_nil_iff.mp places
    rfl
  | cons k rest ih =>
    unfold partitionFrom
    by_cases pending : k.isPending = true
    · rw [if_pos pending]
      have cons : pendingFrom index (k :: rest) = (k, index) :: pendingFrom (index + 1) rest := by
        simp [pendingFrom, pending]
      rw [cons] at places
      obtain ⟨b, bs, rfl, here, others⟩ := List.map_eq_cons_iff.mp places
      obtain ⟨rfl, rfl⟩ := Prod.mk.inj here
      have named := bound.named b List.mem_cons_self
      have loaded := bound.loaded b List.mem_cons_self
      have prepares : (prepare s reader m existing b.consideration b.index).Gives w
          (b.prepared existing, decide (b.Runs existing)) := by
        unfold prepare
        rw [named]
        refine ((looks_loadProposed _ _).steady.gives_bind_iff fun _ => .pure _).mpr
          ⟨b.proposed, loaded, ?_⟩
        exact congrArg Except.ok (Prod.ext rfl (canExecute_eq existing b))
      have later := ih others ⟨fun b' member => bound.named b' (List.mem_cons_of_mem _ member),
        fun b' member => bound.loaded b' (List.mem_cons_of_mem _ member)⟩
      have steady : Action.Steady s (partitionFrom s reader m existing (b.index + 1) rest) :=
        (looks_partitionFrom m existing rest (b.index + 1)).steady
      refine ((looks_prepare m existing b.consideration b.index).steady.gives_bind_iff ?_).mpr
        ⟨_, prepares, (steady.gives_bind_iff ?_).mpr ⟨_, later, ?_⟩⟩
      · rintro ⟨p, runs⟩
        exact steady.bind fun tail => by cases runs <;> exact .pure _
      · intro tail
        split <;> exact .pure _
      · by_cases runs : b.Runs existing <;> simp [runs] <;> rfl
    · rw [if_neg pending]
      refine ih ?_ bound
      rw [places]
      simp [pendingFrom, pending]

end Notary.Engine
