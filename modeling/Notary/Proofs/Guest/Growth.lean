/-
The interpreter keeps the laws of executors.

* `Step.state` — the state that a step leads to.
* `size_le_stepInstr`, `size_le_step` — no instruction takes pages away, and so no step does.
* `size_le_run`, `Instance.callExport_snd` — the same for runs, and for calls from outside.
* `lawful_interpreter` — what is put into memory is there, and no call takes memory away.
-/

import Notary.Guest.Instance

namespace Notary.Guest

/-- The state that a step leads to. -/
def Step.state : Step → State
  | .next m => m.state
  | .done _ s => s
  | .trap _ s => s

namespace Machine

variable (m : Machine)

@[simp] theorem state_with' (f : Frame) : (m.with' f).state = m.state := rfl

@[simp] theorem state_stop (t : Trap) : (m.stop t).state = m.state := rfl

@[simp] theorem state_leave : m.leave.state = m.state := by
  unfold leave
  cases m.callers <;> rfl

@[simp] theorem state_branch (l : Nat) : (m.branch l).state = m.state := by
  unfold branch
  dsimp only
  split
  · exact m.state_leave
  · rfl

@[simp] theorem state_enter (f : Frame) (params arity : Nat) (body target after : List Instr) :
    (m.enter f params arity body target after).state = m.state := rfl

@[simp] theorem state_callFunction (f : Frame) (g : Function) :
    (m.callFunction f g).state = m.state := by
  unfold callFunction
  dsimp only
  split <;> rfl

/-- A store changes bytes only. -/
@[simp] theorem size_store (f : Frame) (offset : Nat) (bs : Bytes) :
    (m.store f offset bs).state.memory.size = m.state.memory.size := by
  unfold store
  split <;> rfl

end Machine

/-- A memory that grows has all the pages that it had. -/
theorem Memory.size_le_grow {m m' : Memory} {delta : Nat} (grown : m.grow delta = some m') :
    m.size ≤ m'.size := by
  unfold grow at grown
  split at grown
  · cases grown
    exact Nat.mul_le_mul_right _ (Nat.le_add_right _ _)
  · cases grown

/-- Of all instructions only one changes the size of the memory, and it adds pages. -/
theorem size_le_stepInstr (functions : List Function) (m : Machine) (f : Frame) (i : Instr) :
    m.state.memory.size ≤ (stepInstr functions m f i).state.memory.size := by
  unfold stepInstr
  split
  all_goals try first | (simp; done) | (split <;> simp; done)
  -- What is left is the instruction that asks for pages.
  split
  · rename_i grown
    exact Memory.size_le_grow grown
  · simp

theorem size_le_step (functions : List Function) (m : Machine) :
    m.state.memory.size ≤ (step functions m).state.memory.size := by
  unfold step
  dsimp only
  split
  · exact size_le_stepInstr ..
  · split <;> simp

/-- However long guest code runs, its memory keeps all the pages that it had. -/
theorem size_le_run (functions : List Function) (budget : Nat) (m : Machine) :
    m.state.memory.size ≤ (run functions budget m).2.memory.size := by
  induction budget generalizing m with
  | zero => exact Nat.le_refl _
  | succ budget ih =>
    have here := size_le_step functions m
    unfold run
    cases stepped : step functions m with
    | next m' =>
      rw [stepped] at here
      exact Nat.le_trans here (ih m')
    | done results s =>
      rw [stepped] at here
      exact here
    | trap t s =>
      rw [stepped] at here
      exact here

theorem size_le_invoke (functions : List Function) (f : Function) (args : List Value) (s : State) :
    s.memory.size ≤ (invoke functions f args s).2.memory.size := by
  unfold invoke
  exact size_le_run functions stepBudget { state := s, frame := _ }

/-- A call changes nothing but the state of the guest. -/
theorem Instance.callExport_snd (g : Instance) (name : String) (words : List UInt32) :
    ∃ s, (g.callExport name words).2 = { g with state := s } ∧
      g.state.memory.size ≤ s.memory.size := by
  unfold callExport
  split
  · exact ⟨g.state, rfl, Nat.le_refl _⟩
  · rename_i f found
    have grown := size_le_invoke g.functions f (words.map .i32) g.state
    generalize invoke g.functions f (words.map .i32) g.state = answer at grown
    obtain ⟨results, s⟩ := answer
    split <;> rename_i same <;> cases same <;> exact ⟨_, rfl, grown⟩

theorem memory?_interpreter (g : Instance) :
    interpreter.memory? g = (g.export? memoryName .memory).map fun _ => g.state.memory := rfl

theorem lawful_interpreter : interpreter.Lawful where
  memory?_put g m exported _ _ := by
    rw [memory?_interpreter, Option.isSome_map] at exported
    obtain ⟨i, found⟩ := Option.isSome_iff_exists.mp exported
    have kept : (interpreter.putMemory g m).export? memoryName .memory = some i := found
    rw [memory?_interpreter, kept]
    rfl
  exported_invoke g name args exported := by
    obtain ⟨s, left, -⟩ := g.callExport_snd name args
    rw [memory?_interpreter, Option.isSome_map] at exported ⊢
    rw [show (interpreter.invoke g name args).2 = { g with state := s } from left]
    exact exported
  size_invoke g name args := by
    obtain ⟨s, left, grown⟩ := g.callExport_snd name args
    have after : (interpreter.invoke g name args).2 = { g with state := s } := left
    have same : Instance.export? { g with state := s } memoryName .memory =
        g.export? memoryName .memory := rfl
    rw [after, Executor.memory, Executor.memory, memory?_interpreter, memory?_interpreter, same]
    cases g.export? memoryName .memory with
    | none => exact Nat.le_refl _
    | some i => exact grown

end Notary.Guest
