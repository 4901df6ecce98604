/-
Running guest code.

A machine runs one function at a time; the functions that called it wait, and each takes room on the
call stack. A function has variables, operands, the instructions still to run, and the blocks around
them. One step runs one instruction.

* `step` — one step: a new machine, the end, or a trap.
* `run` — steps until the end, or until a budget of steps is spent.
-/

import Notary.Guest.Memory
import Notary.Guest.Syntax

namespace Notary.Guest

/-- Why running stops without results. -/
inductive Trap where
  | unreachable
  | divisionByZero
  | integerOverflow
  | outOfBounds
  | stackExhausted
  | budgetSpent
deriving DecidableEq, Repr

def Trap.reason : Trap → String
  | .unreachable => "wasm `unreachable` instruction executed"
  | .divisionByZero => "integer divide by zero"
  | .integerOverflow => "integer overflow"
  | .outOfBounds => "out of bounds memory access"
  | .stackExhausted => "call stack exhausted"
  | .budgetSpent => "all fuel consumed by WebAssembly"

/-- What guest code changes and what outlives a call. -/
structure State where
  memory : Memory
  globals : List Value

/-- A block that is being run. -/
structure Label where
  /-- How many operands a branch takes along. -/
  arity : Nat
  /-- How many operands lie below the block. -/
  height : Nat
  /-- What runs after a branch to the block. -/
  target : List Instr
  /-- What runs after the block's last instruction. -/
  after : List Instr

/-- A function that is being run. -/
structure Frame where
  locals : List Value
  /-- The operands, the topmost first. -/
  stack : List Value := []
  code : List Instr
  /-- The blocks around the code, innermost first. -/
  labels : List Label := []
  /-- How many results the function has. -/
  arity : Nat

/-- How many operands a waiting function keeps without room of their own for each. -/
def sharedOperands : Nat := 32

/-- How many bytes of the call stack the function takes while it waits with the operands it has. -/
def Frame.room (f : Frame) : Nat :=
  16 + (if f.stack.isEmpty then 0 else 16) + 4 * (f.stack.length - sharedOperands)

/-- How many bytes the call stack has. -/
def callStackSize : Nat := 2 ^ 19

/-- A machine in the middle of a call. -/
structure Machine where
  state : State
  frame : Frame
  /-- The functions that wait, the latest first. -/
  callers : List Frame := []
  /-- How many bytes of the call stack the waiting functions take. -/
  used : Nat := 0

/-- What a step leads to. -/
inductive Step where
  | next (m : Machine)
  | done (results : List Value) (s : State)
  | trap (t : Trap) (s : State)

namespace Machine

/-- Goes on within the running function. -/
def with' (m : Machine) (f : Frame) : Step := .next { m with frame := f }

def stop (m : Machine) (t : Trap) : Step := .trap t m.state

/-- Leaves the running function with its topmost operands as results. -/
def leave (m : Machine) : Step :=
  let results := m.frame.stack.take m.frame.arity
  match m.callers with
  | [] => .done results.reverse m.state
  | f :: rest =>
    let frame := { f with stack := results ++ f.stack }
    .next { m with frame, callers := rest, used := m.used - f.room }

/-- Branches out of blocks. The outermost label is the function itself. -/
def branch (m : Machine) (l : Nat) : Step :=
  let f := m.frame
  match f.labels[l]? with
  | none => m.leave
  | some label =>
    let kept := f.stack.take label.arity
    m.with' { f with
      stack := kept ++ f.stack.drop (f.stack.length - label.height)
      code := label.target
      labels := f.labels.drop (l + 1) }

/-- Enters a block. -/
def enter (m : Machine) (f : Frame) (params arity : Nat) (body target after : List Instr) : Step :=
  m.with' { f with
    code := body
    labels := ⟨arity, f.stack.length - params, target, after⟩ :: f.labels }

/-- Calls a function with the topmost operands. The call stack must have room for who waits. -/
def callFunction (m : Machine) (f : Frame) (g : Function) : Step :=
  let n := g.type.params.length
  let waiting := { f with stack := f.stack.drop n }
  let used := m.used + waiting.room
  if callStackSize < used then m.stop .stackExhausted
  else
    let frame : Frame :=
      { locals := (f.stack.take n).reverse ++ g.locals.map ValueType.zero
        code := g.body
        arity := g.type.results.length }
    .next { m with frame, callers := waiting :: m.callers, used }

/-- Writes bytes to memory. The machine is taken apart, so that the memory has no other holder and
is changed in place when it is run. -/
def store (m : Machine) (f : Frame) (offset : Nat) (bs : Bytes) : Step :=
  if offset + bs.length ≤ m.state.memory.size then
    match m with
    | ⟨⟨memory, globals⟩, _, callers, used⟩ =>
      .next ⟨⟨memory.put offset bs, globals⟩, f, callers, used⟩
  else m.stop .outOfBounds

end Machine

def Comparison.holds : Comparison → UInt32 → UInt32 → Bool
  | .eq, a, b => a == b
  | .ne, a, b => a != b
  | .ltU, a, b => a < b
  | .gtU, a, b => b < a
  | .leU, a, b => a ≤ b
  | .geU, a, b => b ≤ a

/-- The result of an operation; division by zero and the one overflowing division trap. -/
def BinaryOp.apply (op : BinaryOp) (a b : UInt32) : Except Trap UInt32 :=
  match op with
  | .add => .ok (a + b)
  | .sub => .ok (a - b)
  | .mul => .ok (a * b)
  | .divS =>
    if b = 0 then .error .divisionByZero
    else if a = 0x80000000 ∧ b = 0xffffffff then .error .integerOverflow
    else .ok (UInt32.ofInt (a.toInt32.toInt.tdiv b.toInt32.toInt))
  | .divU => if b = 0 then .error .divisionByZero else .ok (a / b)
  | .remU => if b = 0 then .error .divisionByZero else .ok (a % b)
  | .and => .ok (a &&& b)
  | .or => .ok (a ||| b)
  | .xor => .ok (a ^^^ b)
  | .shl => .ok (a <<< (b % 32))
  | .shrU => .ok (a >>> (b % 32))

def WideOp.apply (op : WideOp) (a b : UInt64) : UInt64 :=
  match op with
  | .add => a + b
  | .sub => a - b
  | .mul => a * b

def word (b : Bool) : Value := .i32 (if b then 1 else 0)

/-- One instruction that is followed by those left in `f`. Operands of wrong types cannot occur in
well-typed code; they stop the machine like code that is not reachable. -/
def stepInstr (functions : List Function) (m : Machine) (f : Frame) (i : Instr) : Step :=
  match i, f.stack with
  | .unreachable, _ => m.stop .unreachable
  | .nop, _ => m.with' f
  | .block t body, _ => m.enter f t.params.length t.results.length body f.code f.code
  | .loop t body, _ =>
    m.enter f t.params.length t.params.length body (.loop t body :: f.code) f.code
  | .cond t yes no, .i32 c :: stack =>
    let arm := if c = 0 then no else yes
    m.enter { f with stack } t.params.length t.results.length arm f.code f.code
  | .branch l, _ => { m with frame := f }.branch l
  | .branchIf l, .i32 c :: stack =>
    if c = 0 then m.with' { f with stack } else { m with frame := { f with stack } }.branch l
  | .ret, _ => { m with frame := f }.leave
  | .call g, _ =>
    match functions[g]? with
    | some g => m.callFunction f g
    | none => m.stop .unreachable
  | .drop, _ :: stack => m.with' { f with stack }
  | .localGet i, stack =>
    match f.locals[i]? with
    | some v => m.with' { f with stack := v :: stack }
    | none => m.stop .unreachable
  | .localSet i, v :: stack => m.with' { f with stack, locals := f.locals.set i v }
  | .localTee i, v :: stack => m.with' { f with stack := v :: stack, locals := f.locals.set i v }
  | .globalGet i, stack =>
    match m.state.globals[i]? with
    | some v => m.with' { f with stack := v :: stack }
    | none => m.stop .unreachable
  | .globalSet i, v :: stack =>
    { m with state := { m.state with globals := m.state.globals.set i v } }.with' { f with stack }
  | .load32 _ offset, .i32 a :: stack =>
    match m.state.memory.read? (a.toNat + offset) 4 with
    | some bs => m.with' { f with stack := .i32 (UInt32.ofNat (Bytes.leValue bs)) :: stack }
    | none => m.stop .outOfBounds
  | .load8 _ offset, .i32 a :: stack =>
    match m.state.memory.read? (a.toNat + offset) 1 with
    | some bs => m.with' { f with stack := .i32 (UInt32.ofNat (Bytes.leValue bs)) :: stack }
    | none => m.stop .outOfBounds
  | .store32 _ offset, .i32 v :: .i32 a :: stack =>
    m.store { f with stack } (a.toNat + offset) (Bytes.le 4 v.toNat)
  | .store8 _ offset, .i32 v :: .i32 a :: stack =>
    m.store { f with stack } (a.toNat + offset) (Bytes.le 1 v.toNat)
  | .memorySize, stack =>
    m.with' { f with stack := .i32 (UInt32.ofNat m.state.memory.pages) :: stack }
  | .memoryGrow, .i32 n :: stack =>
    match m.state.memory.grow n.toNat with
    | some memory =>
      { m with state := { m.state with memory } }.with'
        { f with stack := .i32 (UInt32.ofNat m.state.memory.pages) :: stack }
    | none => m.with' { f with stack := .i32 0xffffffff :: stack }
  | .const32 w, stack => m.with' { f with stack := .i32 w :: stack }
  | .const64 w, stack => m.with' { f with stack := .i64 w :: stack }
  | .isZero, .i32 a :: stack => m.with' { f with stack := word (a = 0) :: stack }
  | .compare op, .i32 b :: .i32 a :: stack =>
    m.with' { f with stack := word (op.holds a b) :: stack }
  | .binary op, .i32 b :: .i32 a :: stack =>
    match op.apply a b with
    | .ok r => m.with' { f with stack := .i32 r :: stack }
    | .error t => m.stop t
  | .wide op, .i64 b :: .i64 a :: stack => m.with' { f with stack := .i64 (op.apply a b) :: stack }
  | .wrap, .i64 a :: stack => m.with' { f with stack := .i32 a.toUInt32 :: stack }
  | _, _ => m.stop .unreachable

/-- One step. At the end of a block what follows it is run, at the end of a function its caller. -/
def step (functions : List Function) (m : Machine) : Step :=
  let f := m.frame
  match f.code with
  | i :: rest => stepInstr functions m { f with code := rest } i
  | [] =>
    match f.labels with
    | l :: labels => m.with' { f with code := l.after, labels }
    | [] => m.leave

/-- Steps until the end of the call, at most as many as the budget says. -/
def run (functions : List Function) : Nat → Machine → Except Trap (List Value) × State
  | 0, m => (.error .budgetSpent, m.state)
  | n + 1, m =>
    match step functions m with
    | .next m => run functions n m
    | .done results s => (.ok results, s)
    | .trap t s => (.error t, s)

/-- How many steps a call may take. -/
def stepBudget : Nat := 2 ^ 60

end Notary.Guest
