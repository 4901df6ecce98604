/-
Turns that come from one queue.

First come, first served is one way to choose who moves next. So what a pool promises of every
history holds of its turns, and the most tasks that were at work at once are no more than there are
permits.

* `Turns.Follows` — the turns so far are a history, and their peak is below the number of permits.
* `follows_turn`, `follows_run` — one turn, and all turns.
* `peak_run_le` — the most tasks that were at work at once.
-/

import Notary.Proofs.Pool.Interleavings

namespace Notary.Pool

variable {ε α : Type}

namespace Turns

/-- The turns so far are a history in which each task that ended has its own result, and no more tasks
than there are permits were at work at once. -/
def Follows (size : Nat) (pauses : List Nat) (result : Nat → Except ε α) (t : Turns) : Prop :=
  t.peak ≤ max size 1 ∧ ∃ (events : List (Event ε α)) (s : Session ε α),
    Session.Past size pauses events s ∧ s.floor = t.floor ∧
      ∀ i r, .ends i r ∈ events → r = result i

variable {size : Nat} {pauses : List Nat} {result : Nat → Except ε α} {t : Turns} {i k : Nat}

/-- One more event of a history. -/
theorem follows_step {s s' : Session ε α} {events : List (Event ε α)} {e : Event ε α}
    (past : Session.Past size pauses events s) (own : ∀ i r, .ends i r ∈ events → r = result i)
    (step : s.Step e s') (ends : ∀ i r, e = .ends i r → r = result i)
    (peak : t.peak ≤ max size 1) (floor : s'.floor = t.floor) : t.Follows size pauses result := by
  refine ⟨peak, events ++ [e], s', past.snoc step, floor, ?_⟩
  intro i r member
  rcases List.mem_append.mp member with before | last
  · exact own i r before
  · exact ends i r (List.mem_singleton.mp last).symm

/-- Counting the tasks at work changes nothing else. -/
theorem Follows.note (follows : t.Follows size pauses result) :
    t.note.Follows size pauses result := by
  obtain ⟨peak, events, s, past, floor, own⟩ := follows
  have permits := past.permits
  have working := s.floor.active_le_holding
  rw [floor] at permits working
  refine ⟨?_, events, s, past, floor, own⟩
  simp only [Turns.note]
  omega

/-- A task at work pauses, or ends with its result. -/
theorem Follows.work (follows : t.Follows size pauses result)
    (works : t.floor.phases[i]? = some (.active k)) :
    (t.work i k).Follows size pauses result := by
  obtain ⟨peak, events, s, past, floor, own⟩ := follows
  rw [← floor] at works
  cases k with
  | zero =>
    refine follows_step past own (.ends works (result i)) ?_ peak (by rw [floor]; rfl)
    rintro i r ⟨⟩
    rfl
  | succ k => exact follows_step past own (.pauses works) (by simp) peak (by rw [floor]; rfl)

/-- A task asks for a permit. -/
theorem Follows.arrive (follows : t.Follows size pauses result)
    (asks : t.floor.phases[i]? = some (.spawned k)) :
    { t with floor := t.floor.arrive i k }.Follows size pauses result := by
  obtain ⟨peak, events, s, past, floor, own⟩ := follows
  rw [← floor] at asks
  rcases Nat.eq_zero_or_pos s.floor.available with taken | free
  · exact follows_step past own (.waits asks taken) (by simp) peak (by rw [floor])
  · exact follows_step past own (.takes asks free) (by simp) peak (by rw [floor])

/-- A task starts with the permit that was handed to it. -/
theorem Follows.start (follows : t.Follows size pauses result)
    (given : t.floor.phases[i]? = some (.granted k)) :
    { t with floor := t.floor.start i k }.Follows size pauses result := by
  obtain ⟨peak, events, s, past, floor, own⟩ := follows
  rw [← floor] at given
  exact follows_step past own (.starts given) (by simp) peak (by rw [floor])

/-- A turn is made of events. -/
theorem Follows.turn (follows : t.Follows size pauses result) :
    t.turn.Follows size pauses result := by
  unfold Turns.turn
  split
  · exact follows
  · next i rest _ =>
    have called : { t with queue := rest }.Follows size pauses result := follows
    dsimp only
    split
    · next k asks =>
      have arrived := called.arrive asks
      split
      · next k' works => exact arrived.note.work works
      · exact arrived
    · next k given =>
      refine (called.start given).note.work ?_
      exact (Floor.phases_move given).trans (if_pos rfl)
    · next k works => exact called.work works
    · exact called

theorem Follows.take (follows : t.Follows size pauses result) (n : Nat) :
    (t.take n).Follows size pauses result := by
  induction n generalizing t with
  | zero => exact follows
  | succ n ih =>
    unfold Turns.take
    split
    · exact follows
    · exact ih follows.turn

end Turns

/-- The turns of tasks that are handed in together are a history of the pool. -/
theorem follows_run (size : Nat) (pauses : List Nat) (result : Nat → Except ε α) :
    (run size pauses).Follows size pauses result := by
  refine Turns.Follows.take ?_ _
  exact ⟨Nat.zero_le _, [], .new size pauses, .nil, rfl, by simp⟩

/-- No more tasks are at work at once than there are permits. -/
theorem peak_run_le (size : Nat) (pauses : List Nat) : (run size pauses).peak ≤ max size 1 :=
  (follows_run size pauses fun _ => (.ok () : Except Unit Unit)).1

end Notary.Pool
