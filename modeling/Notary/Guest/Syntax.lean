/-
Guest modules: WebAssembly modules with 32-bit and 64-bit integers and one memory.

* `Instr` — the instructions; blocks hold their bodies.
* `Module` — the parts of a module.
-/

import Notary.Bytes

namespace Notary.Guest

/-- The type of a value. -/
inductive ValueType where
  | i32
  | i64
  | f32
  | f64
deriving DecidableEq, Repr

/-- A value. Floating-point values are only passed on, so their bits are all there is to them. -/
inductive Value where
  | i32 (w : UInt32)
  | i64 (w : UInt64)
  | f32 (bits : UInt32)
  | f64 (bits : UInt64)
deriving DecidableEq, Repr

/-- The value that a variable of a type starts with. -/
def ValueType.zero : ValueType → Value
  | .i32 => .i32 0
  | .i64 => .i64 0
  | .f32 => .f32 0
  | .f64 => .f64 0

/-- The type of a function, or of a block. -/
structure FunctionType where
  params : List ValueType := []
  results : List ValueType := []
deriving DecidableEq, Repr

/-- Operations on two 32-bit integers. -/
inductive BinaryOp where
  | add | sub | mul | divS | divU | remU | and | or | xor | shl | shrU
deriving DecidableEq, Repr

/-- Operations on two 64-bit integers. -/
inductive WideOp where
  | add | sub | mul
deriving DecidableEq, Repr

/-- Comparisons of two 32-bit integers. -/
inductive Comparison where
  | eq | ne | ltU | gtU | leU | geU
deriving DecidableEq, Repr

/-- The instructions. -/
inductive Instr where
  | unreachable
  | nop
  | block (type : FunctionType) (body : List Instr)
  | loop (type : FunctionType) (body : List Instr)
  | cond (type : FunctionType) (thenBody elseBody : List Instr)
  | branch (label : Nat)
  | branchIf (label : Nat)
  | ret
  | call (function : Nat)
  | drop
  | localGet (i : Nat)
  | localSet (i : Nat)
  | localTee (i : Nat)
  | globalGet (i : Nat)
  | globalSet (i : Nat)
  | load32 (align offset : Nat)
  | load8 (align offset : Nat)
  | store32 (align offset : Nat)
  | store8 (align offset : Nat)
  | memorySize
  | memoryGrow
  | const32 (w : UInt32)
  | const64 (w : UInt64)
  | isZero
  | compare (op : Comparison)
  | binary (op : BinaryOp)
  | wide (op : WideOp)
  | wrap
deriving Repr

/-- The most variables that a function may have, its parameters among them. -/
def maxLocals : Nat := 50000

/-- A function with a body. -/
structure Function where
  type : FunctionType
  locals : List ValueType
  body : List Instr

/-- The size of a memory in pages of 64 KiB: at the start, and at most. -/
structure Limits where
  initial : Nat
  maximum : Option Nat

/-- The type of a global variable. -/
structure GlobalType where
  type : ValueType
  isMutable : Bool
deriving DecidableEq, Repr

/-- A global variable with the instructions that give its first value. -/
structure Global where
  type : GlobalType
  init : List Instr

/-- What an export stands for. -/
inductive ExportKind where
  | function
  | table
  | memory
  | global
deriving DecidableEq, Repr

/-- An export: a name for one of the module's parts. -/
structure Export where
  name : String
  kind : ExportKind
  index : Nat
deriving DecidableEq, Repr

/-- Bytes that are put into memory at the start. -/
structure DataSegment where
  /-- The instructions that give the address; none if the bytes stay outside. -/
  offset : Option (List Instr)
  bytes : Bytes

/-- What an import asks for. -/
inductive Import where
  | function (type : Nat)
  | table
  | memory (limits : Limits)
  | global (type : GlobalType)

/-- A module. Functions and globals are numbered with the imported ones first. -/
structure Module where
  types : List FunctionType := []
  imports : List Import := []
  functionTypes : List Nat := []
  memories : List Limits := []
  globals : List Global := []
  exports : List Export := []
  start : Option Nat := none
  bodies : List (List ValueType × List Instr) := []
  data : List DataSegment := []
  /-- How many data segments the module announces. -/
  dataCount : Option Nat := none

end Notary.Guest
