/-
Results that keep their places.

Whatever the order in which tasks get their permits, work and end: a task works once, its result is
kept at its place, and a caller is answered with the results of the tasks that it handed in, in the
order in which it handed them in. A pool may serve several callers at once, so the tasks of one caller
are named by their places among all tasks.

* `Event.Changes`, `Step.changes` — what an event does to the task at its place, and to the others.
* `begun`, `ended` — the tasks whose work began, and those whose work ended with what result.
* `Past.begun`, `Past.ended` — no task works twice, and a finished task has worked.
* `Session.answer?` — what a caller is answered, once all of its tasks are finished.
* `Past.promised` — what a pool promises of every history.
-/

import Mathlib.Data.List.Forall2
import Notary.Proofs.Pool.Moves

namespace Notary.Pool

variable {ε α ι : Type}

/-! ### One task -/

namespace Event

/-- The place of the task. -/
def place : Event ε α → Nat
  | takes i => i
  | waits i => i
  | starts i => i
  | pauses i => i
  | ends i _ => i

/-- From which phase to which the task goes. -/
inductive Moves : Event ε α → Phase → Phase → Prop where
  | takes (i k : Nat) : Moves (.takes i) (.spawned k) (.active k)
  | waits (i k : Nat) : Moves (.waits i) (.spawned k) (.waiting k)
  | starts (i k : Nat) : Moves (.starts i) (.granted k) (.active k)
  | pauses (i k : Nat) : Moves (.pauses i) (.active (k + 1)) (.active k)
  | ends (i : Nat) (result : Except ε α) : Moves (.ends i result) (.active 0) .finished

/-- The event moves the task at its place. Of the others, some that waited may be given a permit. -/
structure Changes (e : Event ε α) (f f' : Floor) : Prop where
  own : ∃ p q, e.Moves p q ∧ f.phases[e.place]? = some p ∧ f'.phases[e.place]? = some q
  others : ∀ j, j ≠ e.place → f'.phases[j]? = f.phases[j]? ∨
    ∃ k, f.phases[j]? = some (.waiting k) ∧ f'.phases[j]? = some (.granted k)

theorem changes_move {e : Event ε α} {f f' : Floor} {p q : Phase} (moves : e.Moves p q)
    (here : f.phases[e.place]? = some p) (phases : f'.phases = (f.move e.place q).phases) :
    e.Changes f f' where
  own := ⟨p, q, moves, here, by rw [phases, Floor.phases_move here, if_pos rfl]⟩
  others j other := by rw [phases, Floor.phases_move here, if_neg (Ne.symm other)]; exact .inl rfl

/-- Another task that waited is given a permit. -/
theorem Changes.handed {e : Event ε α} {f f' f'' : Floor} {j k : Nat} (changes : e.Changes f f')
    (other : j ≠ e.place) (waits : f'.phases[j]? = some (.waiting k))
    (phases : f''.phases = (f'.move j (.granted k)).phases) : e.Changes f f'' where
  own := by
    obtain ⟨p, q, moves, here, after⟩ := changes.own
    exact ⟨p, q, moves, here, by rw [phases, Floor.phases_move waits, if_neg other, after]⟩
  others l distinct := by
    rw [phases, Floor.phases_move waits]
    by_cases first : j = l
    · subst first
      have before : f.phases[j]? = some (.waiting k) := by
        rcases changes.others j distinct with same | ⟨k', -, given⟩
        · exact same ▸ waits
        · simp [waits] at given
      exact .inr ⟨k, before, if_pos rfl⟩
    · rw [if_neg first]
      exact changes.others l distinct

/-- The task whose work begins. -/
def begun? : Event ε α → Option Nat
  | takes i => some i
  | starts i => some i
  | _ => none

/-- The task whose work ends, with its result. -/
def ended? : Event ε α → Option (Nat × Except ε α)
  | ends i result => some (i, result)
  | _ => none

end Event

namespace Session

variable {size : Nat} {pauses : List Nat} {events : List (Event ε α)} {s s' : Session ε α}
  {e : Event ε α}

theorem Step.changes (ordered : s.floor.Ordered) (step : s.Step e s') :
    e.Changes s.floor s'.floor := by
  cases step with
  | @takes i k asks free =>
    exact Event.changes_move (.takes i k) asks (by rw [Floor.arrive_of_free free]; rfl)
  | @waits i k asks taken =>
    exact Event.changes_move (.waits i k) asks (by rw [Floor.arrive_of_taken taken]; rfl)
  | @starts i k given => exact Event.changes_move (.starts i k) given rfl
  | @pauses i k works => exact Event.changes_move (.pauses i k) works rfl
  | @ends i works result =>
    have moved : (Event.ends i result).Changes s.floor (s.floor.move i .finished) :=
      Event.changes_move (.ends i result) works rfl
    rcases Floor.finish_cases ordered works with ⟨-, left⟩ | ⟨j, rest, k, -, other, waits, left⟩
    · exact Event.changes_move (.ends i result) works (by simp only [left]; rfl)
    · exact moved.handed other waits (by simp only [left])

/-- The work of the task at a place has begun. -/
def HasBegun (s : Session ε α) (i : Nat) : Prop :=
  ∃ p, s.floor.phases[i]? = some p ∧ p.hasBegun = true

/-- The task at a place is finished. -/
def IsFinished (s : Session ε α) (i : Nat) : Prop := s.floor.phases[i]? = some .finished

theorem Step.hasBegun_iff (ordered : s.floor.Ordered) (step : s.Step e s') (j : Nat) :
    (s'.HasBegun j ↔ s.HasBegun j ∨ e.begun? = some j) ∧
      (e.begun? = some j → ¬ s.HasBegun j) := by
  obtain ⟨⟨p, q, moves, before, after⟩, others⟩ := step.changes ordered
  by_cases own : j = e.place
  · subst own
    simp only [HasBegun, before, after, Option.some.injEq, exists_eq_left']
    cases moves <;> simp [Phase.hasBegun, Event.begun?, Event.place]
  · have not : e.begun? ≠ some j := by
      intro begins
      cases moves <;> simp_all [Event.begun?, Event.place]
    rcases others j own with same | ⟨k, waited, given⟩
    · simp [HasBegun, same, not]
    · simp [HasBegun, waited, given, not, Phase.hasBegun]

theorem Step.isFinished_iff (ordered : s.floor.Ordered) (step : s.Step e s') (j : Nat) :
    (s'.IsFinished j ↔ s.IsFinished j ∨ ∃ r, e.ended? = some (j, r)) ∧
      ∀ r, e.ended? = some (j, r) → ¬ s.IsFinished j := by
  obtain ⟨⟨p, q, moves, before, after⟩, others⟩ := step.changes ordered
  by_cases own : j = e.place
  · subst own
    simp only [IsFinished, before, after, Option.some.injEq]
    cases moves <;> simp [Event.ended?, Event.place]
  · have not (r : Except ε α) : e.ended? ≠ some (j, r) := by
      intro ends
      cases moves <;> simp_all [Event.ended?, Event.place]
    rcases others j own with same | ⟨k, waited, given⟩
    · simp [IsFinished, same, not]
    · simp [IsFinished, waited, given, not]

end Session

/-! ### Histories -/

/-- The tasks whose work began, in this order. -/
def begun (events : List (Event ε α)) : List Nat := events.filterMap Event.begun?

/-- The tasks whose work ended, in this order, with their results. -/
def ended (events : List (Event ε α)) : List (Nat × Except ε α) := events.filterMap Event.ended?

theorem mem_ended_iff {events : List (Event ε α)} {i : Nat} {r : Except ε α} :
    (i, r) ∈ ended events ↔ .ends i r ∈ events := by
  simp only [ended, List.mem_filterMap]
  constructor
  · rintro ⟨e, member, ends⟩
    cases e <;> simp [Event.ended?] at ends
    obtain ⟨rfl, rfl⟩ := ends
    exact member
  · intro member
    exact ⟨_, member, rfl⟩

namespace Session

variable {size : Nat} {pauses : List Nat} {events : List (Event ε α)} {s s' : Session ε α}
  {e : Event ε α}

/-- The work of a task begins once. -/
theorem Past.begun (past : Past size pauses events s) :
    (begun events).Nodup ∧ ∀ i, i ∈ begun events ↔ s.HasBegun i := by
  induction past with
  | nil =>
    refine ⟨List.nodup_nil, ?_⟩
    intro i
    simp [Pool.begun, HasBegun, new, Floor.new, Phase.hasBegun]
  | @snoc events s s' e before step ih =>
    obtain ⟨nodup, begun_iff⟩ := ih
    have append : Pool.begun (events ++ [e]) = Pool.begun events ++ e.begun?.toList := by
      cases first : e.begun? <;> simp [Pool.begun, first]
    have after (i : Nat) := step.hasBegun_iff before.ordered i
    rw [append]
    refine ⟨?_, ?_⟩
    · rw [List.nodup_append]
      refine ⟨nodup, by cases e.begun? <;> simp, ?_⟩
      rintro i member _ last rfl
      exact (after i).2 (Option.mem_toList.mp last) ((begun_iff i).mp member)
    · intro i
      rw [List.mem_append, begun_iff, Option.mem_toList, (after i).1]

/-- The work of a task ends once, and then it is finished. -/
theorem Past.ended (past : Past size pauses events s) :
    ((ended events).map (·.1)).Nodup ∧ ∀ i, i ∈ (ended events).map (·.1) ↔ s.IsFinished i := by
  induction past with
  | nil =>
    refine ⟨List.nodup_nil, ?_⟩
    intro i
    simp [Pool.ended, IsFinished, new, Floor.new]
  | @snoc events s s' e before step ih =>
    obtain ⟨nodup, ended_iff⟩ := ih
    have append : (Pool.ended (events ++ [e])).map (·.1) =
        (Pool.ended events).map (·.1) ++ (e.ended?.map (·.1)).toList := by
      cases last : e.ended? <;> simp [Pool.ended, last]
    have after (i : Nat) := step.isFinished_iff before.ordered i
    have place (i : Nat) : e.ended?.map (·.1) = some i ↔ ∃ r, e.ended? = some (i, r) := by
      cases e.ended? <;> simp [Prod.ext_iff]
    rw [append]
    refine ⟨?_, ?_⟩
    · rw [List.nodup_append]
      refine ⟨nodup, by cases e.ended? <;> simp, ?_⟩
      rintro i member _ last rfl
      obtain ⟨r, ends⟩ := (place i).mp (Option.mem_toList.mp last)
      exact (after i).2 r ends ((ended_iff i).mp member)
    · intro i
      rw [List.mem_append, ended_iff, Option.mem_toList, (after i).1]
      exact or_congr_right (place i)

/-- What an event makes of the results. -/
theorem Step.results_eq (step : s.Step e s') :
    s'.results = match e.ended? with
      | some (i, r) => s.results.set i (some r)
      | none => s.results := by
  cases step <;> rfl

theorem Step.length_eq (ordered : s.floor.Ordered) (step : s.Step e s') :
    s'.floor.phases.length = s.floor.phases.length ∧ s'.results.length = s.results.length := by
  have moved (i : Nat) (q : Phase) : (s.floor.move i q).phases.length = s.floor.phases.length :=
    List.length_set
  cases step with
  | @takes i k asks free => exact ⟨by rw [Floor.arrive_of_free free]; exact moved i _, rfl⟩
  | @waits i k asks taken => exact ⟨by rw [Floor.arrive_of_taken taken]; exact moved i _, rfl⟩
  | @starts i k given => exact ⟨moved i _, rfl⟩
  | @pauses i k works => exact ⟨moved i _, rfl⟩
  | @ends i works result =>
    refine ⟨?_, List.length_set⟩
    rcases Floor.finish_cases ordered works with ⟨-, left⟩ | ⟨j, rest, k, -, -, -, left⟩
    · simp only [left]
      exact moved i .finished
    · simp only [left]
      exact List.length_set.trans (moved i .finished)

/-- There is a place for the result of every task. -/
theorem Past.length_eq (past : Past size pauses events s) :
    s.floor.phases.length = pauses.length ∧ s.results.length = pauses.length := by
  induction past with
  | nil => exact ⟨List.length_map _, List.length_map _⟩
  | snoc before step ih =>
    obtain ⟨phases, results⟩ := step.length_eq before.ordered
    exact ⟨phases.trans ih.1, results.trans ih.2⟩

/-- The result with which a task ended is kept at its place. -/
theorem Past.results_iff (past : Past size pauses events s) (i : Nat) (r : Except ε α) :
    s.results[i]? = some (some r) ↔ .ends i r ∈ events := by
  induction past generalizing i r with
  | nil =>
    simp only [new, List.getElem?_map, List.not_mem_nil, iff_false]
    cases pauses[i]? <;> simp
  | @snoc events s s' e before step ih =>
    rw [step.results_eq, List.mem_append, List.mem_singleton, ← ih]
    cases ends : e.ended? with
    | none =>
      have other : .ends i r ≠ e := by
        rintro rfl
        cases ends
      simp [other]
    | some ended =>
      obtain ⟨j, result⟩ := ended
      obtain rfl : e = .ends j result := by
        cases e <;> simp [Event.ended?] at ends
        rw [ends.1, ends.2]
      have working : s.floor.phases[j]? = some (.active 0) := by
        cases step
        assumption
      have room : j < s.results.length := by
        rw [before.length_eq.2, ← before.length_eq.1]
        exact (List.getElem?_eq_some_iff.mp working).1
      have fresh (r : Except ε α) : s.results[j]? ≠ some (some r) := by
        intro kept
        have finished : s.IsFinished j := by
          rw [← before.ended.2, List.mem_map]
          exact ⟨(j, r), mem_ended_iff.mpr ((ih j r).mp kept), rfl⟩
        exact (step.isFinished_iff before.ordered j).2 result rfl finished
      simp only [List.getElem?_set]
      by_cases same : j = i
      · subst same
        rw [if_pos rfl, if_pos room]
        simp only [fresh, false_or, Option.some.injEq, Event.ends.injEq, true_and, eq_comm]
      · simp [same, Ne.symm same]

theorem Past.isFinished_iff (past : Past size pauses events s) (i : Nat) :
    s.IsFinished i ↔ ∃ r, .ends i r ∈ events := by
  rw [← past.ended.2, List.mem_map]
  constructor
  · rintro ⟨⟨_, r⟩, member, rfl⟩
    exact ⟨r, mem_ended_iff.mp member⟩
  · rintro ⟨r, member⟩
    exact ⟨(i, r), mem_ended_iff.mpr member, rfl⟩

/-! ### Answers -/

/-- What a caller is answered whose tasks have these places: nothing until all of them are
finished. -/
def answer? (s : Session ε α) (places : List Nat) : Option (Except (Failure ε) (List α)) :=
  (places.mapM fun i => s.results[i]?.join).map fun results => collect (results.map .ofExcept)

/-- The results of tasks, one after the other. -/
theorem Past.gathered_iff (past : Past size pauses events s) {places : List Nat}
    {results : List (Except ε α)} :
    places.mapM (fun i => s.results[i]?.join) = some results ↔
      List.Forall₂ (fun i r => .ends i r ∈ events) places results := by
  induction places generalizing results with
  | nil => cases results <;> simp
  | cons i rest ih =>
    simp only [List.mapM_cons, Option.bind_eq_bind, Option.bind_eq_some_iff, Option.pure_def,
      Option.some.injEq, Option.join_eq_some_iff, past.results_iff, ih]
    cases results with
    | nil => simp
    | cons r later => simp [List.forall₂_cons]

/-- The tasks with results are those that are finished. -/
theorem Past.exists_results_iff (past : Past size pauses events s) {places : List Nat} :
    (∃ results, List.Forall₂ (fun i r => .ends i r ∈ events) places results) ↔
      ∀ i ∈ places, s.IsFinished i := by
  induction places with
  | nil => simp
  | cons i rest ih =>
    rw [List.forall_mem_cons, ← ih, past.isFinished_iff]
    constructor
    · rintro ⟨_, ends⟩
      obtain ⟨r, results, here, later, rfl⟩ := List.forall₂_cons_left_iff.mp ends
      exact ⟨⟨r, here⟩, results, later⟩
    · rintro ⟨⟨r, here⟩, results, later⟩
      exact ⟨r :: results, .cons here later⟩

/-- The caller waits as long as one of its tasks is not finished. -/
theorem Past.answer?_eq_none_iff (past : Past size pauses events s) {places : List Nat} :
    s.answer? places = none ↔ ∃ i ∈ places, ¬ s.IsFinished i := by
  have gathers : (∃ answer, s.answer? places = some answer) ↔ ∀ i ∈ places, s.IsFinished i := by
    rw [← past.exists_results_iff]
    simp only [answer?, Option.map_eq_some_iff, ← past.gathered_iff]
    constructor
    · rintro ⟨_, results, gathered, -⟩
      exact ⟨results, gathered⟩
    · rintro ⟨results, gathered⟩
      exact ⟨_, results, gathered, rfl⟩
  rw [Option.eq_none_iff_forall_ne_some, ← not_exists, gathers]
  simp

theorem Past.answer?_eq (past : Past size pauses events s) {places : List Nat}
    {results : List (Except ε α)}
    (ends : List.Forall₂ (fun i r => .ends i r ∈ events) places results) :
    s.answer? places = some (collect (results.map .ofExcept)) := by
  rw [answer?, past.gathered_iff.mpr ends]
  rfl

/-- Values are answered when all results are values. -/
theorem eq_map_ok_of_collect {results : List (Except ε α)} {values : List α}
    (collected : collect (results.map .ofExcept) = .ok values) : results = values.map .ok := by
  have injective (r r' : Except ε α) (same : Ending.ofExcept r = Ending.ofExcept r') : r = r' := by
    cases r <;> cases r' <;> cases same <;> rfl
  have endings : results.map .ofExcept = (values.map .ok).map (Ending.ofExcept (ε := ε)) := by
    rw [collect_eq_ok_iff.mp collected, List.map_map]
    rfl
  exact (List.map_inj_right injective).mp endings

/-- The first error among results is answered. -/
theorem collect_of_error (before : List α) (e : ε) (after : List (Except ε α)) :
    collect ((before.map Except.ok ++ Except.error e :: after).map .ofExcept) =
      .error (.error e) := by
  induction before with
  | nil => rfl
  | cons v rest ih =>
    simp only [List.map_cons, List.cons_append, Ending.ofExcept, collect, ih]

/-- A caller that is answered with values has those of its own tasks. -/
theorem Past.ends_of_answer? (past : Past size pauses events s) {places : List Nat}
    {values : List α} (answered : s.answer? places = some (.ok values)) :
    List.Forall₂ (fun i v => .ends i (.ok v) ∈ events) places values := by
  obtain ⟨results, gathered, collected⟩ := Option.map_eq_some_iff.mp answered
  have ends := past.gathered_iff.mp gathered
  rwa [eq_map_ok_of_collect collected, List.forall₂_map_right_iff] at ends

/-- What the caller puts beside its values stands beside those of its own tasks. -/
theorem Past.getElem?_zip_iff (past : Past size pauses events s) {places : List Nat}
    {values : List α} (answered : s.answer? places = some (.ok values)) (items : List ι) {k : Nat}
    {x : ι} {v : α} :
    (items.zip values)[k]? = some (x, v) ↔
      items[k]? = some x ∧ ∃ i, places[k]? = some i ∧ .ends i (.ok v) ∈ events := by
  obtain ⟨length, ends⟩ := List.forall₂_iff_get.mp (past.ends_of_answer? answered)
  rw [List.getElem?_zip_eq_some]
  refine and_congr_right fun _ => ?_
  constructor
  · intro here
    obtain ⟨inside, rfl⟩ := List.getElem?_eq_some_iff.mp here
    have inside' : k < places.length := length ▸ inside
    exact ⟨places[k], List.getElem?_eq_getElem inside', ends k inside' inside⟩
  · rintro ⟨i, here, ended⟩
    obtain ⟨inside, rfl⟩ := List.getElem?_eq_some_iff.mp here
    have inside' : k < values.length := length ▸ inside
    have kept := (past.results_iff _ _).mpr (ends k inside inside')
    have kept' := (past.results_iff _ _).mpr ended
    have same : values[k] = v := by simpa using kept.symm.trans kept'
    rw [List.getElem?_eq_getElem inside', same]

/-! ### What a pool promises -/

/-- What a pool of a size promises of a history of its tasks. -/
structure Promised (size : Nat) (pauses : List Nat) (events : List (Event ε α))
    (s : Session ε α) : Prop where
  /-- Only tasks with a permit are at work, no more tasks hold permits than the pool has, and a permit
  is free or held. -/
  permits : s.floor.active ≤ s.floor.holding ∧ s.floor.holding ≤ max size 1 ∧
    s.floor.available + s.floor.holding = max size 1
  /-- The work of no task begins or ends twice. When all are finished, the work of each of them has
  begun once and ended once, whatever the others ended with. -/
  once : (begun events).Nodup ∧ ((ended events).map (·.1)).Nodup ∧
    ((∀ i < pauses.length, s.IsFinished i) →
      (begun events).Perm (List.range pauses.length) ∧
        ((ended events).map (·.1)).Perm (List.range pauses.length))
  /-- Until all tasks are finished one of them can move, whatever it ends with. -/
  progress : (∀ i < pauses.length, s.IsFinished i) ∨
    ∀ result, ∃ e s', s.Step e s' ∧ ∀ i r, e = .ends i r → r = result
  /-- So many events at most can happen. -/
  bounded : events.length ≤ (pauses.map (· + 3)).sum
  /-- A caller is answered when all of its tasks are finished. -/
  waits : ∀ places, s.answer? places = none ↔ ∃ i ∈ places, ¬ s.IsFinished i
  /-- The answer is made of the results of the caller's tasks in their order: all values, or the
  error of the first task that has one. -/
  answers : ∀ places, (∀ i ∈ places, s.IsFinished i) →
    ∃ results, List.Forall₂ (fun i r => .ends i r ∈ events) places results ∧
      (∀ values, results = values.map .ok → s.answer? places = some (.ok values)) ∧
      ∀ (before : List α) (e : ε) (after : List (Except ε α)),
        results = before.map .ok ++ .error e :: after →
        s.answer? places = some (.error (.error e))
  /-- What the caller puts beside the values of an answer stands beside those of its own tasks. -/
  pairs : ∀ {ι : Type} (items : List ι) (places : List Nat) (values : List α),
    s.answer? places = some (.ok values) →
      ∀ (k : Nat) (x : ι) (v : α), (items.zip values)[k]? = some (x, v) ↔
        items[k]? = some x ∧ ∃ i, places[k]? = some i ∧ .ends i (.ok v) ∈ events

/-- The places whose tasks have been through something once are all places. -/
theorem perm_range {n : Nat} {places : List Nat} (nodup : places.Nodup)
    (all : ∀ i, i ∈ places ↔ i < n) : places.Perm (List.range n) := by
  refine (List.perm_ext_iff_of_nodup nodup List.nodup_range).mpr ?_
  intro i
  rw [all, List.mem_range]

theorem IsFinished.hasBegun {i : Nat} (finished : s.IsFinished i) : s.HasBegun i :=
  ⟨.finished, finished, rfl⟩

/-- However tasks get their permits, work and end, the pool keeps its promises: a pool has a permit at
least, and as many as its size says. -/
theorem promised_of_past {size : Nat} {pauses : List Nat} {events : List (Event ε α)}
    {s : Session ε α} (past : Past size pauses events s) : Promised size pauses events s where
  permits := by
    have kept := past.permits
    exact ⟨s.floor.active_le_holding, by omega, kept⟩
  once := by
    refine ⟨past.begun.1, past.ended.1, fun finished => ⟨perm_range past.begun.1 ?_,
      perm_range past.ended.1 ?_⟩⟩
    · intro i
      rw [past.begun.2]
      constructor
      · rintro ⟨p, here, -⟩
        exact past.length_eq.1 ▸ (List.getElem?_eq_some_iff.mp here).1
      · exact fun inside => (finished i inside).hasBegun
    · intro i
      rw [past.ended.2]
      constructor
      · intro here
        exact past.length_eq.1 ▸ (List.getElem?_eq_some_iff.mp here).1
      · exact finished i
  progress := by
    by_cases finished : ∀ i < pauses.length, s.IsFinished i
    · exact .inl finished
    · obtain ⟨i, unfinished⟩ := not_forall.mp finished
      obtain ⟨inside, unfinished⟩ := Classical.not_imp.mp unfinished
      rw [← past.length_eq.1] at inside
      have here := List.getElem?_eq_getElem inside
      refine .inr fun result => past.progress here ?_ result
      intro same
      exact unfinished (here.trans (congrArg some same))
  bounded := Nat.le_of_add_right_le past.length_le
  waits places := past.answer?_eq_none_iff
  answers places finished := by
    obtain ⟨results, ends⟩ := past.exists_results_iff.mpr finished
    refine ⟨results, ends, ?_, ?_⟩
    · rintro values rfl
      rw [past.answer?_eq ends, collect_eq_ok_iff.mpr]
      rw [List.map_map]
      rfl
    · rintro before e after rfl
      rw [past.answer?_eq ends, collect_of_error]
  pairs items places values answered k x v := past.getElem?_zip_iff answered items

/-- Three tasks share two permits. The last two take them, the last one ends first, and its permit
goes to the first one, which waits; the task in the middle fails. -/
theorem promised_of_crossed_tasks :
    let events : List (Event String Nat) := [.takes 1, .takes 2, .waits 0, .ends 2 (.ok 30),
      .starts 0, .ends 1 (.error "no"), .pauses 0, .ends 0 (.ok 10)]
    let s : Session String Nat := ⟨⟨2, [.finished, .finished, .finished], []⟩,
      [some (.ok 10), some (.error "no"), some (.ok 30)]⟩
    Past 2 [1, 0, 0] events s ∧ Promised 2 [1, 0, 0] events s ∧
      s.answer? [0, 1, 2] = some (.error (.error "no")) ∧
      s.answer? [0, 2] = some (.ok [10, 30]) := by
  intro events s
  have past : Past 2 [1, 0, 0] events s :=
    ((((((((Past.nil.snoc (.takes rfl (by decide))).snoc (.takes rfl (by decide))).snoc
      (.waits rfl rfl)).snoc (.ends rfl (.ok 30))).snoc (.starts rfl)).snoc
      (.ends rfl (.error "no"))).snoc (.pauses rfl)).snoc (.ends rfl (.ok 10)))
  exact ⟨past, promised_of_past past, rfl, rfl⟩

end Session
end Notary.Pool
