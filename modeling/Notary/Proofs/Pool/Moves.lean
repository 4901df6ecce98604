/-
Tasks on a floor that move in any order.

Nothing is said here about whose turn comes when: any task that can move may be the next one. So
what holds after every such history holds of every schedule.

* `Event`, `Session`, `Session.Step` — what can happen to the task at a place, and what it leaves.
* `Session.Past` — a history of events, from the handing in of tasks.
* `Step.ordered`, `Step.permits`, `Step.movesLeft_lt` — what one event keeps, and what it uses up.
* `Past.ordered`, `Past.permits` — the line holds those who wait, and no permit is lost.
* `Past.progress`, `Past.length_le` — some task can move until all are finished, and no history goes
  on for ever.
-/

import Notary.Pool.Schedule

namespace Notary.Pool

variable {ε α : Type}

/-! ### Events -/

/-- What happens to the task at a place. -/
inductive Event (ε α : Type) where
  /-- It asks for a permit, takes a free one, and its work begins. -/
  | takes (i : Nat)
  /-- It asks for a permit, finds none, and joins the line. -/
  | waits (i : Nat)
  /-- Its work begins with the permit that was handed to it. -/
  | starts (i : Nat)
  /-- It gives way to others and keeps its permit. -/
  | pauses (i : Nat)
  /-- Its work ends with a result, and its permit goes on. -/
  | ends (i : Nat) (result : Except ε α)

/-- A floor, and the results of the tasks that are finished. -/
structure Session (ε α : Type) where
  floor : Floor
  results : List (Option (Except ε α))

namespace Session

/-- Tasks that are handed in together. -/
def new (size : Nat) (pauses : List Nat) : Session ε α :=
  ⟨.new size pauses, pauses.map fun _ => none⟩

/-- What an event leaves. -/
inductive Step (s : Session ε α) : Event ε α → Session ε α → Prop where
  | takes {i k : Nat} (asks : s.floor.phases[i]? = some (.spawned k))
      (free : 0 < s.floor.available) :
      Step s (.takes i) { s with floor := s.floor.arrive i k }
  | waits {i k : Nat} (asks : s.floor.phases[i]? = some (.spawned k))
      (taken : s.floor.available = 0) :
      Step s (.waits i) { s with floor := s.floor.arrive i k }
  | starts {i k : Nat} (given : s.floor.phases[i]? = some (.granted k)) :
      Step s (.starts i) { s with floor := s.floor.start i k }
  | pauses {i k : Nat} (works : s.floor.phases[i]? = some (.active (k + 1))) :
      Step s (.pauses i) { s with floor := s.floor.move i (.active k) }
  | ends {i : Nat} (works : s.floor.phases[i]? = some (.active 0)) (result : Except ε α) :
      Step s (.ends i result) ⟨(s.floor.finish i).1, s.results.set i (some result)⟩

/-- These events have happened, one after the other, since the tasks were handed in. -/
inductive Past (size : Nat) (pauses : List Nat) : List (Event ε α) → Session ε α → Prop where
  | nil : Past size pauses [] (new size pauses)
  | snoc {events : List (Event ε α)} {s s' : Session ε α} {e : Event ε α}
      (before : Past size pauses events s) (step : s.Step e s') :
      Past size pauses (events ++ [e]) s'

end Session

/-! ### Changing one phase -/

namespace Phase

/-- The work of the task has begun. -/
def hasBegun : Phase → Bool
  | .active _ => true
  | .finished => true
  | _ => false

/-- The most events that a task has before it. -/
def movesLeft : Phase → Nat
  | .spawned k => k + 3
  | .waiting k => k + 2
  | .granted k => k + 2
  | .active k => k + 1
  | .finished => 0

end Phase

namespace Floor

variable {f : Floor} {i j : Nat} {p q : Phase}

/-- How many tasks hold a permit. -/
def holding (f : Floor) : Nat := f.phases.countP Phase.holdsPermit

/-- The most events that all tasks together have before them. -/
def movesLeft (f : Floor) : Nat := (f.phases.map Phase.movesLeft).sum

/-- A task at work holds a permit. -/
theorem active_le_holding (f : Floor) : f.active ≤ f.holding := by
  refine List.countP_mono_left fun p _ works => ?_
  cases p <;> first | rfl | cases works

theorem phases_move (here : f.phases[i]? = some p) :
    (f.move i q).phases[j]? = if i = j then some q else f.phases[j]? := by
  obtain ⟨inside, -⟩ := List.getElem?_eq_some_iff.mp here
  simp only [move, List.getElem?_set, if_pos inside]

theorem holding_move (here : f.phases[i]? = some p) :
    (f.move i q).holding + (if p.holdsPermit then 1 else 0) =
      f.holding + if q.holdsPermit then 1 else 0 := by
  obtain ⟨inside, rfl⟩ := List.getElem?_eq_some_iff.mp here
  have counted : 0 < f.phases.countP Phase.holdsPermit ∨ f.phases[i].holdsPermit = false := by
    rw [List.countP_pos_iff]
    cases holds : f.phases[i].holdsPermit with
    | true => exact .inl ⟨_, List.getElem_mem inside, holds⟩
    | false => exact .inr rfl
  simp only [holding, move, List.countP_set inside]
  rcases counted with some | none
  · split <;> omega
  · simp [none]

theorem sum_movesLeft_set {phases : List Phase} {i : Nat} (here : phases[i]? = some p) :
    ((phases.set i q).map Phase.movesLeft).sum + p.movesLeft =
      (phases.map Phase.movesLeft).sum + q.movesLeft := by
  induction phases generalizing i with
  | nil => simp at here
  | cons r rest ih =>
    cases i with
    | zero =>
      obtain rfl : r = p := by simpa using here
      simp only [List.set_cons_zero, List.map_cons, List.sum_cons]
      omega
    | succ i =>
      have := ih (i := i) (by simpa using here)
      simp only [List.set_cons_succ, List.map_cons, List.sum_cons]
      omega

theorem movesLeft_move (here : f.phases[i]? = some p) :
    (f.move i q).movesLeft + p.movesLeft = f.movesLeft + q.movesLeft :=
  sum_movesLeft_set here

/-- The line holds the tasks that wait, each once, and a permit is free only when nobody waits. -/
structure Ordered (f : Floor) : Prop where
  nodup : f.line.Nodup
  mem_line_iff : ∀ i, i ∈ f.line ↔ ∃ k, f.phases[i]? = some (.waiting k)
  idle : f.line = [] ∨ f.available = 0

theorem ordered_new (size : Nat) (pauses : List Nat) : (new size pauses).Ordered where
  nodup := List.nodup_nil
  mem_line_iff i := by simp [new]
  idle := .inl rfl

/-- A task that neither waited nor waits moves. -/
theorem Ordered.move (ordered : f.Ordered) (here : f.phases[i]? = some p)
    (before : ∀ k, p ≠ .waiting k) (after : ∀ k, q ≠ .waiting k) : (f.move i q).Ordered where
  nodup := ordered.nodup
  mem_line_iff j := by
    rw [phases_move here]
    refine (ordered.mem_line_iff j).trans ?_
    by_cases same : i = j
    · subst same
      simp [here, before, after]
    · simp [same]
  idle := ordered.idle

/-! ### The moves of a floor -/

theorem arrive_of_free {k : Nat} (free : 0 < f.available) :
    f.arrive i k = { f.move i (.active k) with available := f.available - 1 } := by
  obtain ⟨n, free⟩ := Nat.exists_eq_succ_of_ne_zero (Nat.ne_of_gt free)
  simp [arrive, free]

theorem arrive_of_taken {k : Nat} (taken : f.available = 0) :
    f.arrive i k = { f.move i (.waiting k) with line := f.line ++ [i] } := by
  simp [arrive, taken]

/-- Nobody waits when a task ends, and its permit is free again; or its permit goes to the first in
line. -/
theorem finish_cases (ordered : f.Ordered) {k : Nat} (works : f.phases[i]? = some (.active k)) :
    (f.line = [] ∧ (f.finish i).1 = { f.move i .finished with available := f.available + 1 }) ∨
      ∃ j rest k', f.line = j :: rest ∧ j ≠ i ∧
        (f.move i .finished).phases[j]? = some (.waiting k') ∧
        (f.finish i).1 = { (f.move i .finished).move j (.granted k') with line := rest } := by
  cases line : f.line with
  | nil => exact .inl ⟨rfl, by simp [finish, Floor.move, line]⟩
  | cons j rest =>
    obtain ⟨k', waits⟩ := (ordered.mem_line_iff j).mp (by simp [line])
    have other : j ≠ i := by
      rintro rfl
      simp [works] at waits
    have waits' : (f.move i .finished).phases[j]? = some (.waiting k') := by
      rw [phases_move works, if_neg (Ne.symm other), waits]
    refine .inr ⟨j, rest, k', rfl, other, waits', ?_⟩
    have line' : (f.move i .finished).line = j :: rest := line
    simp only [finish, line', waits']

theorem Ordered.arrive (ordered : f.Ordered) {k : Nat} (asks : f.phases[i]? = some (.spawned k)) :
    (f.arrive i k).Ordered := by
  rcases Nat.eq_zero_or_pos f.available with taken | free
  · rw [arrive_of_taken taken]
    have absent : i ∉ f.line := by
      rw [ordered.mem_line_iff]
      simp [asks]
    refine ⟨?_, ?_, .inr taken⟩
    · rw [List.nodup_append]
      refine ⟨ordered.nodup, by simp, ?_⟩
      rintro j member _ last rfl
      exact absent (List.mem_singleton.mp last ▸ member)
    · intro j
      rw [List.mem_append, List.mem_singleton, ordered.mem_line_iff]
      change _ ↔ ∃ k', (f.move i (.waiting k)).phases[j]? = some (.waiting k')
      rw [phases_move asks]
      by_cases same : i = j
      · simp [same]
      · simp [same, Ne.symm same]
  · rw [arrive_of_free free]
    have moved : (f.move i (.active k)).Ordered := ordered.move asks (by simp) (by simp)
    refine ⟨moved.nodup, moved.mem_line_iff, ?_⟩
    exact ordered.idle.imp_right fun taken => absurd taken (Nat.ne_of_gt free)

theorem Ordered.finish (ordered : f.Ordered) {k : Nat} (works : f.phases[i]? = some (.active k)) :
    (f.finish i).1.Ordered := by
  have moved : (f.move i .finished).Ordered := ordered.move works (by simp) (by simp)
  rcases finish_cases ordered works with ⟨empty, left⟩ | ⟨j, rest, k', line, -, waits, left⟩
  · rw [left]
    exact ⟨moved.nodup, moved.mem_line_iff, .inl empty⟩
  · rw [left]
    have nodup : (j :: rest).Nodup := line ▸ ordered.nodup
    obtain ⟨absent, nodup⟩ := List.nodup_cons.mp nodup
    refine ⟨nodup, ?_, ?_⟩
    · intro l
      have member : l ∈ j :: rest ↔ _ := line ▸ moved.mem_line_iff l
      change _ ↔ ∃ k, ((f.move i .finished).move j (.granted k')).phases[l]? = some (.waiting k)
      rw [phases_move waits]
      by_cases first : j = l
      · subst first
        simp [absent]
      · simpa [first, Ne.symm first] using member
    · exact ordered.idle.imp_left fun empty => by simp [empty] at line

end Floor

/-! ### Histories -/

namespace Session

variable {size : Nat} {pauses : List Nat} {events : List (Event ε α)} {s s' : Session ε α}
  {e : Event ε α}

theorem Step.ordered (ordered : s.floor.Ordered) (step : s.Step e s') : s'.floor.Ordered := by
  cases step with
  | takes asks free => exact ordered.arrive asks
  | waits asks taken => exact ordered.arrive asks
  | starts given => exact ordered.move given (by simp) (by simp)
  | pauses works => exact ordered.move works (by simp) (by simp)
  | ends works result => exact ordered.finish works

theorem Past.ordered (past : Past size pauses events s) : s.floor.Ordered := by
  induction past with
  | nil => exact Floor.ordered_new size pauses
  | snoc before step ih => exact step.ordered ih

/-- A permit is with the pool or with a task. -/
theorem Step.permits (ordered : s.floor.Ordered) (step : s.Step e s') :
    s'.floor.available + s'.floor.holding = s.floor.available + s.floor.holding := by
  cases step with
  | @takes i k asks free =>
    have held := Floor.holding_move (q := .active k) asks
    simp only [Phase.holdsPermit, Bool.false_eq_true, if_false, if_true] at held
    rw [Floor.arrive_of_free free]
    change s.floor.available - 1 + (s.floor.move i (.active k)).holding = _
    omega
  | @waits i k asks taken =>
    have held := Floor.holding_move (q := .waiting k) asks
    rw [Floor.arrive_of_taken taken]
    exact congrArg (s.floor.available + ·) held
  | @starts i k given =>
    have held := Floor.holding_move (q := .active k) given
    exact congrArg (s.floor.available + ·) (Nat.add_right_cancel held)
  | @pauses i k works =>
    have held := Floor.holding_move (q := .active k) works
    exact congrArg (s.floor.available + ·) (Nat.add_right_cancel held)
  | @ends i works result =>
    have held := Floor.holding_move (q := .finished) works
    simp only [Phase.holdsPermit, Bool.false_eq_true, if_false, if_true] at held
    rcases Floor.finish_cases ordered works with ⟨-, left⟩ | ⟨j, rest, k', -, -, waits, left⟩
    · simp only [left]
      change s.floor.available + 1 + (s.floor.move i .finished).holding = _
      omega
    · have handed := Floor.holding_move (q := .granted k') waits
      simp only [Phase.holdsPermit, Bool.false_eq_true, if_false, if_true] at handed
      simp only [left]
      change s.floor.available + ((s.floor.move i .finished).move j (.granted k')).holding = _
      omega

theorem Past.permits (past : Past size pauses events s) :
    s.floor.available + s.floor.holding = max size 1 := by
  induction past with
  | nil =>
    have none : (Floor.new size pauses).holding = 0 := by
      rw [Floor.holding, List.countP_eq_zero]
      simp [Floor.new, Phase.holdsPermit]
    exact congrArg (max size 1 + ·) none
  | snoc before step ih => rw [step.permits before.ordered, ih]

/-- Every event brings the tasks nearer to their end. -/
theorem Step.movesLeft_lt (ordered : s.floor.Ordered) (step : s.Step e s') :
    s'.floor.movesLeft < s.floor.movesLeft := by
  cases step with
  | @takes i k asks free =>
    have left := Floor.movesLeft_move (q := .active k) asks
    rw [Floor.arrive_of_free free]
    change (s.floor.move i (.active k)).movesLeft < _
    simp only [Phase.movesLeft] at left
    omega
  | @waits i k asks taken =>
    have left := Floor.movesLeft_move (q := .waiting k) asks
    rw [Floor.arrive_of_taken taken]
    change (s.floor.move i (.waiting k)).movesLeft < _
    simp only [Phase.movesLeft] at left
    omega
  | @starts i k given =>
    have left := Floor.movesLeft_move (q := .active k) given
    simp only [Phase.movesLeft] at left
    change (s.floor.move i (.active k)).movesLeft < _
    omega
  | @pauses i k works =>
    have left := Floor.movesLeft_move (q := .active k) works
    simp only [Phase.movesLeft] at left
    change (s.floor.move i (.active k)).movesLeft < _
    omega
  | @ends i works result =>
    have left := Floor.movesLeft_move (q := .finished) works
    simp only [Phase.movesLeft] at left
    rcases Floor.finish_cases ordered works with ⟨-, after⟩ | ⟨j, rest, k', -, -, waits, after⟩
    · simp only [after]
      change (s.floor.move i .finished).movesLeft < _
      omega
    · have handed := Floor.movesLeft_move (q := .granted k') waits
      simp only [Phase.movesLeft] at handed
      simp only [after]
      change ((s.floor.move i .finished).move j (.granted k')).movesLeft < _
      omega

/-- No history is longer than the tasks are. -/
theorem Past.length_le (past : Past size pauses events s) :
    events.length + s.floor.movesLeft ≤ (pauses.map (· + 3)).sum := by
  induction past with
  | nil =>
    simp [new, Floor.new, Floor.movesLeft, Function.comp_def, Phase.movesLeft]
  | snoc before step ih =>
    have nearer := step.movesLeft_lt before.ordered
    rw [List.length_append, List.length_singleton]
    omega

/-! ### Who can move -/

/-- A task that does not wait in line, and is not finished, can move. When its work is over it may
end with any result. -/
theorem exists_step_of_phase {i : Nat} {p : Phase} (here : s.floor.phases[i]? = some p)
    (stands : ∀ k, p ≠ .waiting k) (unfinished : p ≠ .finished) (result : Except ε α) :
    ∃ e s', s.Step e s' ∧ ∀ i r, e = .ends i r → r = result := by
  cases p with
  | spawned k =>
    rcases Nat.eq_zero_or_pos s.floor.available with taken | free
    · exact ⟨_, _, .waits here taken, by simp⟩
    · exact ⟨_, _, .takes here free, by simp⟩
  | waiting k => exact absurd rfl (stands k)
  | granted k => exact ⟨_, _, .starts here, by simp⟩
  | active k =>
    cases k with
    | zero => exact ⟨_, _, .ends here result, by simp⟩
    | succ k => exact ⟨_, _, .pauses here, by simp⟩
  | finished => exact absurd rfl unfinished

/-- As long as a task is not finished, one of them can move: those in line wait for others that hold
permits. -/
theorem Past.progress (past : Past size pauses events s) {i : Nat} {p : Phase}
    (here : s.floor.phases[i]? = some p) (unfinished : p ≠ .finished) (result : Except ε α) :
    ∃ e s', s.Step e s' ∧ ∀ i r, e = .ends i r → r = result := by
  by_cases waits : ∃ k, p = .waiting k
  · obtain ⟨k, rfl⟩ := waits
    have inLine := (past.ordered.mem_line_iff i).mpr ⟨k, here⟩
    have taken : s.floor.available = 0 :=
      past.ordered.idle.resolve_left (List.ne_nil_of_mem inLine)
    have held : 0 < s.floor.phases.countP Phase.holdsPermit := by
      have permits := past.permits
      simp only [Floor.holding] at permits
      omega
    obtain ⟨q, member, holds⟩ := List.countP_pos_iff.mp held
    obtain ⟨j, there⟩ := List.getElem?_of_mem member
    refine exists_step_of_phase there ?_ ?_ result
    · rintro k rfl
      cases holds
    · rintro rfl
      cases holds
  · exact exists_step_of_phase here (fun k same => waits ⟨k, same⟩) unfinished result

end Session

end Notary.Pool
