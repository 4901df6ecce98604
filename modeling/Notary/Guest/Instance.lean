/-
An executor that interprets modules.

It knows a part of the instructions of WebAssembly, those on words of 32 bits and some on wider
ones, and gives up after so many steps and so many waiting calls. A module that needs more does not
start here, though another executor would run it. What holds of guests in general is therefore said
of every executor; this one serves for runs.

* `Instance.ofBytes` — reads, checks and starts a module without imports.
* `interpreter` — instances of modules as guests.
-/

import Notary.Guest.Binary
import Notary.Guest.Executor
import Notary.Guest.Machine
import Notary.Guest.Typing

namespace Notary.Guest

/-- A started module. It lives on after faults. -/
structure Instance where
  functions : List Function
  exports : List Export
  state : State

namespace Module

/-- The functions of a valid module without imports. -/
def functions (m : Module) : List Function :=
  (m.functionTypes.zip m.bodies).map fun (t, locals, body) =>
    ⟨(m.types[t]?).getD {}, locals, body⟩

/-- The operands behind a constant instruction. -/
def constantStep : List Value → Instr → List Value
  | stack, .const32 w => .i32 w :: stack
  | stack, .const64 w => .i64 w :: stack
  | .i64 b :: .i64 a :: stack, .wide op => .i64 (op.apply a b) :: stack
  | .i32 b :: .i32 a :: stack, .binary op =>
    match op.apply a b with
    | .ok r => .i32 r :: stack
    | .error _ => stack
  | stack, _ => stack

/-- The value that constant instructions give. -/
def constant (code : List Instr) : Value := ((code.foldl constantStep []).head?).getD (.i32 0)

/-- The state before any data or code. A module without memory gets one without pages. -/
def blankState (m : Module) : State where
  memory :=
    match m.memories with
    | [] => { pages := 0, limit := 0 }
    | l :: _ => { pages := l.initial, limit := l.maximum.getD maxPages }
  globals := m.globals.map fun g => constant g.init

/-- Puts a data segment into memory. -/
def putSegment (memory : Memory) (d : DataSegment) : Option Memory :=
  match d.offset.map constant with
  | some (.i32 a) => memory.write? a.toNat d.bytes
  | _ => some memory

end Module

/-- Calls a function from outside. -/
def invoke (functions : List Function) (f : Function) (args : List Value) (s : State) :
    Except Trap (List Value) × State :=
  run functions stepBudget
    { state := s
      frame :=
        { locals := args ++ f.locals.map ValueType.zero
          code := f.body
          arity := f.type.results.length } }

namespace Instance

/-- Reads, checks and starts a module. Its data must fit and its start function must end. -/
def ofBytes (bs : Bytes) : Except Refusal Instance :=
  match Module.ofBytes? bs with
  | none => .error (.notCompiled "malformed module")
  | some m =>
    if !m.isValid then .error (.notCompiled "invalid module")
    else if !m.imports.isEmpty then .error (.notInstantiated "imports are not supported")
    else
      let blank := m.blankState
      match m.data.foldlM Module.putSegment blank.memory with
      | none => .error (.notInstantiated "a data segment is out of bounds")
      | some memory =>
        let s := { blank with memory }
        let functions := m.functions
        match m.start.bind fun i => functions[i]? with
        | none => .ok ⟨functions, m.exports, s⟩
        | some f =>
          match invoke functions f [] s with
          | (.ok _, s) => .ok ⟨functions, m.exports, s⟩
          | (.error t, _) => .error (.notInstantiated t.reason)

/-- What a name stands for. -/
def export? (g : Instance) (name : String) (kind : ExportKind) : Option Nat :=
  (g.exports.find? fun e => e.name == name && e.kind == kind).map (·.index)

/-- The exported function of a name. -/
def function? (g : Instance) (name : String) : Option Function :=
  (g.export? name .function).bind fun i => g.functions[i]?

/-- Runs an exported function on words. -/
def callExport (g : Instance) (name : String) (args : List UInt32) :
    Except String (Option UInt32) × Instance :=
  match g.function? name with
  | none => (.ok none, g)
  | some f =>
    match invoke g.functions f (args.map .i32) g.state with
    | (.ok [.i32 w], s) => (.ok (some w), { g with state := s })
    | (.ok _, s) => (.ok none, { g with state := s })
    | (.error t, s) => (.error s!"wasm trap: {t.reason}", { g with state := s })

end Instance

/-- The kind of the values of a type. -/
def ValueType.kind : ValueType → ValueKind
  | .i32 => .word
  | _ => .other

/-- What a type says about a function. -/
def FunctionType.signature (t : FunctionType) : Signature :=
  ⟨t.params.map (·.kind), t.results.map (·.kind)⟩

/-- Instances as guests. -/
def interpreter : Executor Instance where
  start := Instance.ofBytes
  signature? g name := (g.function? name).map (·.type.signature)
  invoke := Instance.callExport
  memory? g := (g.export? memoryName .memory).map fun _ => g.state.memory
  putMemory g m := { g with state := { g.state with memory := m } }

end Notary.Guest
