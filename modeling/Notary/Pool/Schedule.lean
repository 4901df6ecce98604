/-
How tasks share a pool that gives out a limited number of permits.

A task needs a permit to run and keeps it until it is finished, also while it pauses. A task that
finds no permit waits in line, and a permit that is given back goes to the task that has waited
longest. The turns of the tasks come from one queue: first come, first served, and a task that
pauses goes to the end.

* `permits?` — the permits of a pool, unless it would have more than there can be.
* `Floor` — the permits and the phases of all tasks, with the moves that a task can make.
* `run` — all turns of a number of tasks, with the most tasks that ran at once.
-/

import Notary.Pool.Basic

namespace Notary.Pool

/-- The most permits that a pool can have. They are counted in a word of 64 bits, three of which have
other uses. -/
def maxPermits : Nat := 2 ^ 61 - 1

/-- The permits of a pool of this size, one at least. No pool is made with more permits than there
can be. -/
def permits? (size : Nat) : Option Nat :=
  if max size 1 ≤ maxPermits then some (max size 1) else none

/-- Where a task stands. The number says how often it will still pause. -/
inductive Phase where
  /-- Not looked at yet. -/
  | spawned (pauses : Nat)
  /-- In line for a permit. -/
  | waiting (pauses : Nat)
  /-- Given a permit, but not looked at since. -/
  | granted (pauses : Nat)
  /-- At work. -/
  | active (pauses : Nat)
  | finished
deriving DecidableEq, Repr

def Phase.isActive : Phase → Bool
  | .active _ => true
  | _ => false

/-- The task holds a permit. -/
def Phase.holdsPermit : Phase → Bool
  | .granted _ => true
  | .active _ => true
  | _ => false

/-- The permits of a pool and its tasks, each named by its place among them. -/
structure Floor where
  available : Nat
  phases : List Phase
  /-- The tasks in line, the one that has waited longest in front. -/
  line : List Nat := []
deriving Repr

namespace Floor

/-- A pool with a permit at least, and tasks that will pause so often. -/
def new (size : Nat) (pauses : List Nat) : Floor :=
  { available := max size 1, phases := pauses.map .spawned }

/-- How many tasks are at work. -/
def active (f : Floor) : Nat := f.phases.countP Phase.isActive

/-- How many tasks have run to their end. -/
def finished (f : Floor) : Nat := f.phases.count .finished

def move (f : Floor) (i : Nat) (p : Phase) : Floor := { f with phases := f.phases.set i p }

/-- A task asks for a permit: it takes a free one, or joins the line. -/
def arrive (f : Floor) (i pauses : Nat) : Floor :=
  match f.available with
  | 0 => { f.move i (.waiting pauses) with line := f.line ++ [i] }
  | n + 1 => { f.move i (.active pauses) with available := n }

/-- A task starts with the permit that was handed to it. -/
def start (f : Floor) (i pauses : Nat) : Floor := f.move i (.active pauses)

/-- A task is done: its permit goes to the first in line, who is named, or back to the pool. -/
def finish (f : Floor) (i : Nat) : Floor × Option Nat :=
  let f := f.move i .finished
  match f.line with
  | [] => ({ f with available := f.available + 1 }, none)
  | j :: rest =>
    match f.phases[j]? with
    | some (.waiting pauses) => ({ f.move j (.granted pauses) with line := rest }, some j)
    | _ => ({ f with line := rest, available := f.available + 1 }, none)

end Floor

/-- A pool at work: whose turn comes when, and the most tasks that were at work at once. -/
structure Turns where
  floor : Floor
  queue : List Nat
  peak : Nat := 0

namespace Turns

/-- A task at work pauses, or is done. -/
def work (t : Turns) (i pauses : Nat) : Turns :=
  match pauses with
  | k + 1 => { t with floor := t.floor.move i (.active k), queue := t.queue ++ [i] }
  | 0 =>
    let (f, next) := t.floor.finish i
    { t with floor := f, queue := t.queue ++ next.toList }

/-- Keeps count of the tasks at work. -/
def note (t : Turns) : Turns := { t with peak := max t.peak t.floor.active }

/-- The turn of the task in front of the queue. -/
def turn (t : Turns) : Turns :=
  match t.queue with
  | [] => t
  | i :: rest =>
    let t : Turns := { t with queue := rest }
    match t.floor.phases[i]? with
    | some (.spawned k) =>
      let t : Turns := { t with floor := t.floor.arrive i k }
      match t.floor.phases[i]? with
      | some (.active k) => t.note.work i k
      | _ => t
    | some (.granted k) => Turns.work (Turns.note { t with floor := t.floor.start i k }) i k
    | some (.active k) => t.work i k
    | _ => t

/-- So many turns, or all there are. -/
def take : Nat → Turns → Turns
  | 0, t => t
  | n + 1, t => if t.queue.isEmpty then t else take n t.turn

end Turns

/-- All turns of tasks that pause so often. A task has a turn to ask for a permit, one to start, and
one after each pause. -/
def run (size : Nat) (pauses : List Nat) : Turns :=
  Turns.take (pauses.foldl (fun n k => n + k + 2) 0)
    { floor := .new size pauses, queue := List.range pauses.length }

end Notary.Pool
