/-
Tasks whose turns come in any order.

The workers of a pool share a state, and it is not said which of the tasks comes to it first. The
answers are given back by place all the same. So tasks that answer alike on every state have the
same answers in whatever order their turns come, and only the state that they leave may tell the
order.

* `runInTurns` — runs tasks in the order of their turns, and gathers their answers by place.
* `runInTurns_zipIdx` — tasks that run in their own order.
* `runInTurns_of_fixed` — tasks with fixed answers, in any order.
-/

import Notary.Pool.Basic

namespace Notary.Pool

variable {σ ε α ι : Type}

/-- What stands at each place, from the first place on. -/
def byPlace (results : List (Nat × α)) : List α :=
  (results.mergeSort fun a b => a.1 ≤ b.1).map (·.2)

/-- Runs tasks in the order of their turns, each with its place among those that were handed in. The
values come back by place, or the first error by place. -/
def runInTurns (turns : List (Task σ ε α × Nat)) (s : σ) : Except ε (List α) × σ :=
  let ran := runEach (turns.map (·.1)) s
  (inOrder (byPlace ((turns.map (·.2)).zip ran.1)), ran.2)

/-! ### Places -/

/-- The places in a list rise, and no two are the same. -/
theorem pairwise_zipIdx (values : List ι) (start : Nat) :
    (values.zipIdx start).Pairwise fun a b => a.2 < b.2 := by
  induction values generalizing start with
  | nil => exact .nil
  | cons v rest ih =>
    rw [List.zipIdx_cons, List.pairwise_cons]
    refine ⟨?_, ih (start + 1)⟩
    intro b member
    exact List.le_snd_of_mem_zipIdx member

/-- A place belongs to one value. -/
theorem eq_of_place_eq {values : List ι} {a b : ι × Nat} (left : a ∈ values.zipIdx)
    (right : b ∈ values.zipIdx) (same : a.2 = b.2) : a = b := by
  rw [List.mem_zipIdx_iff_getElem?] at left right
  rw [same, right] at left
  exact Prod.ext (Option.some.inj left).symm same

/-- Every item may have the first turn. -/
theorem exists_first_turn {items : List ι} {i : ι} (member : i ∈ items) :
    ∃ place rest, ((i, place) :: rest).Perm items.zipIdx := by
  obtain ⟨place, here⟩ := List.getElem?_of_mem member
  obtain ⟨before, after, split⟩ := List.append_of_mem (List.mk_mem_zipIdx_iff_getElem?.mpr here)
  exact ⟨place, before ++ after, split ▸ List.perm_middle.symm⟩

/-- What was shuffled together with its places is put back in order by them. -/
theorem byPlace_of_perm {turns : List (ι × Nat)} {values : List ι} (f : ι → α)
    (order : turns.Perm values.zipIdx) :
    byPlace (turns.map fun t => (t.2, f t.1)) = values.map f := by
  have shuffled : ((turns.map fun t => (t.2, f t.1)).mergeSort fun a b => a.1 ≤ b.1).Perm
      (values.zipIdx.map fun t => (t.2, f t.1)) :=
    (List.mergeSort_perm _ _).trans (order.map _)
  have rises : ((turns.map fun t => (t.2, f t.1)).mergeSort fun a b => a.1 ≤ b.1).Pairwise
      fun a b => decide (a.1 ≤ b.1) = true := by
    refine List.pairwise_mergeSort ?_ ?_ _
    · simp only [decide_eq_true_eq]
      omega
    · simp only [Bool.or_eq_true, decide_eq_true_eq]
      omega
  have sorted : (turns.map fun t => (t.2, f t.1)).mergeSort (fun a b => a.1 ≤ b.1) =
      values.zipIdx.map fun t => (t.2, f t.1) := by
    refine List.Perm.eq_of_pairwise ?_ rises ?_ shuffled
    · intro a b left right below above
      obtain ⟨a', here, rfl⟩ := List.mem_map.mp (shuffled.mem_iff.mp left)
      obtain ⟨b', there, rfl⟩ := List.mem_map.mp right
      have same := Nat.le_antisymm (of_decide_eq_true below) (of_decide_eq_true above)
      rw [eq_of_place_eq here there same]
    · rw [List.pairwise_map]
      refine (pairwise_zipIdx values 0).imp ?_
      intro a b before
      exact decide_eq_true (Nat.le_of_lt before)
  calc byPlace (turns.map fun t => (t.2, f t.1))
      = (values.zipIdx.map fun t => (t.2, f t.1)).map (·.2) := by rw [byPlace, sorted]
    _ = (values.zipIdx.map Prod.fst).map f := by simp only [List.map_map, Function.comp_def]
    _ = values.map f := by rw [List.zipIdx_map_fst]

/-! ### Orders -/

theorem inOrder_map_ok (f : ι → α) (items : List ι) :
    inOrder (items.map fun i => (.ok (f i) : Except ε α)) = .ok (items.map f) := by
  induction items with
  | nil => rfl
  | cons i rest ih => simp [inOrder, ih]

/-- Each of the tasks has an answer. -/
theorem length_runEach (tasks : List (Task σ ε α)) (s : σ) :
    (runEach tasks s).1.length = tasks.length := by
  induction tasks generalizing s with
  | nil => rfl
  | cons t rest ih => simp [runEach, ih]

/-- Tasks that run in their own order. -/
theorem runInTurns_zipIdx (tasks : List (Task σ ε α)) (s : σ) :
    runInTurns tasks.zipIdx s = runAll tasks s := by
  have own : ((tasks.zipIdx.map Prod.snd).zip (runEach tasks s).1) =
      (runEach tasks s).1.zipIdx.map fun t => (t.2, id t.1) := by
    rw [List.zipIdx_map_snd, ← length_runEach tasks s]
    refine List.ext_getElem (by simp) ?_
    intro i inside inside'
    simp
  simp only [runInTurns, List.zipIdx_map_fst, own, byPlace_of_perm id (.refl _), List.map_id]
  rfl

/-- The answers of tasks that answer alike on every state, and the state that they leave. -/
theorem runEach_of_fixed {task : ι → Task σ ε α} {answer : ι → Except ε α} {step : ι → σ → σ}
    (fixed : ∀ i s, task i s = (answer i, step i s)) (items : List ι) (s : σ) :
    runEach (items.map task) s = (items.map answer, items.foldl (fun s i => step i s) s) := by
  induction items generalizing s with
  | nil => rfl
  | cons i rest ih => simp [runEach, fixed, ih]

/-- Tasks that answer alike on every state answer alike in every order of their turns. -/
theorem runInTurns_of_fixed {task : ι → Task σ ε α} {answer : ι → Except ε α} {step : ι → σ → σ}
    (fixed : ∀ i s, task i s = (answer i, step i s)) {turns : List (ι × Nat)} {items : List ι}
    (order : turns.Perm items.zipIdx) (s : σ) :
    runInTurns (turns.map fun t => (task t.1, t.2)) s =
      (inOrder (items.map answer), (turns.map (·.1)).foldl (fun s i => step i s) s) := by
  have tasks : (turns.map fun t => (task t.1, t.2)).map (·.1) = (turns.map (·.1)).map task := by
    simp only [List.map_map, Function.comp_def]
  have places : (turns.map fun t => (task t.1, t.2)).map (·.2) = turns.map (·.2) := by
    simp only [List.map_map, Function.comp_def]
  have answers : (turns.map (·.2)).zip ((turns.map (·.1)).map answer) =
      turns.map fun t => (t.2, answer t.1) := by
    rw [List.map_map, List.zip_map']
    rfl
  simp only [runInTurns, tasks, places, runEach_of_fixed fixed, answers,
    byPlace_of_perm answer order]

end Notary.Pool
