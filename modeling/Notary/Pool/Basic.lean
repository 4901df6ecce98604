/-
A worker pool: tasks, at most so many at once, whose results come back in the order in which the
tasks were handed in.

* `Ending`, `collect` — what became of a task, and what the pool answers for all of them: every
  value in order, or the first failure in order.
* `runAll` — runs tasks on a shared state that do not stop on their way.
* `collect_eq_ok_iff` — there is an answer without failure exactly when every task has a value.
-/

namespace Notary.Pool

/-- What became of a task. -/
inductive Ending (ε α : Type) where
  | value (a : α)
  | error (e : ε)
  /-- The task broke down and left no error of its own. -/
  | crash
deriving DecidableEq, Repr

/-- Why a pool has no values to give back. -/
inductive Failure (ε : Type) where
  | error (e : ε)
  | crash
deriving DecidableEq, Repr

def Ending.ofExcept {ε α : Type} : Except ε α → Ending ε α
  | .ok a => .value a
  | .error e => .error e

/-- The values of all tasks, or the first failure among them. -/
def collect {ε α : Type} : List (Ending ε α) → Except (Failure ε) (List α)
  | [] => .ok []
  | .value a :: rest =>
    match collect rest with
    | .ok as => .ok (a :: as)
    | .error f => .error f
  | .error e :: _ => .error (.error e)
  | .crash :: _ => .error .crash

theorem collect_eq_ok_iff {ε α : Type} {es : List (Ending ε α)} {as : List α} :
    collect es = .ok as ↔ es = as.map .value := by
  induction es generalizing as with
  | nil => cases as <;> simp [collect]
  | cons e rest ih =>
    cases e with
    | value a =>
      simp only [collect]
      cases hc : collect rest with
      | ok bs =>
        have := ih.1 hc
        cases as with
        | nil => simp
        | cons b cs =>
          have hcs := @ih cs
          simp only [hc, Except.ok.injEq] at hcs
          simp [← hcs]
      | error f =>
        cases as with
        | nil => simp
        | cons b cs =>
          have hcs := @ih cs
          simp only [hc, reduceCtorEq, false_iff] at hcs
          simp [hcs]
    | error e => cases as <;> simp [collect]
    | crash => cases as <;> simp [collect]

/-- A task on a shared state that runs without a stop. -/
abbrev Task (σ ε α : Type) := σ → Except ε α × σ

/-- Runs tasks one after the other, each of them whatever became of those before it. -/
def runEach {σ ε α : Type} : List (Task σ ε α) → σ → List (Except ε α) × σ
  | [], s => ([], s)
  | t :: rest, s =>
    let (r, s) := t s
    let (rs, s) := runEach rest s
    (r :: rs, s)

/-- The values of results in order, or the first error among them. -/
def inOrder {ε α : Type} : List (Except ε α) → Except ε (List α)
  | [] => .ok []
  | .ok a :: rest =>
    match inOrder rest with
    | .ok as => .ok (a :: as)
    | .error e => .error e
  | .error e :: _ => .error e

/-- Runs every task and gives back the values in order, or the first error in order. -/
def runAll {σ ε α : Type} (tasks : List (Task σ ε α)) (s : σ) : Except ε (List α) × σ :=
  let (rs, s) := runEach tasks s
  (inOrder rs, s)

/-- For tasks that leave errors only, the two ways to gather results agree. -/
theorem collect_ofExcept {ε α : Type} (rs : List (Except ε α)) :
    collect (rs.map .ofExcept) = (inOrder rs).mapError .error := by
  induction rs with
  | nil => rfl
  | cons r rest ih =>
    cases r with
    | error e => rfl
    | ok a =>
      simp only [List.map_cons, Ending.ofExcept, collect, inOrder, ih]
      cases inOrder rest <;> rfl

end Notary.Pool
