/-
The binary form of guest modules.

A module starts with a magic number and a version; then come sections in a fixed order, each behind
its length. A section must be read to its last byte.

* `Module.ofBytes?` — the module of a byte string.
-/

import Notary.Guest.Syntax

namespace Notary.Guest.Binary

/-- Reads something from the front of a byte string. -/
abbrev Reader := StateT Bytes Option

def byte : Reader UInt8 := fun
  | [] => none
  | b :: rest => some (b, rest)

def take (n : Nat) : Reader Bytes := fun bs =>
  if n ≤ bs.length then some (bs.take n, bs.drop n) else none

/-- Runs a reader over exactly the next `n` bytes. -/
def exactly {α : Type} (n : Nat) (r : Reader α) : Reader α := do
  match r (← take n) with
  | some (a, []) => return a
  | _ => failure

/-- An unsigned number of up to `bits` bits, seven bits a byte. -/
def unsigned (bits : Nat) : Nat → Reader Nat
  | 0 => failure
  | k + 1 => do
    let b ← byte
    if b < 128 then
      guard (b.toNat < 2 ^ bits)
      return b.toNat
    else
      guard (7 < bits)
      let rest ← unsigned (bits - 7) k
      return b.toNat % 128 + 128 * rest

def u32 : Reader Nat := unsigned 32 5

/-- A signed number of up to `bits` bits, seven bits a byte, the second bit of the last byte being
the sign. -/
def signed (bits : Nat) : Nat → Reader Int
  | 0 => failure
  | k + 1 => do
    let b ← byte
    if b < 128 then
      let v : Int := if b < 64 then b.toNat else (b.toNat : Int) - 128
      guard (-(2 ^ (bits - 1) : Int) ≤ v ∧ v < 2 ^ (bits - 1))
      return v
    else
      guard (7 < bits)
      let rest ← signed (bits - 7) k
      return b.toNat % 128 + 128 * rest

/-- The same reader `n` times. -/
def times {α : Type} (r : Reader α) : Nat → Reader (List α)
  | 0 => return []
  | n + 1 => do
    let a ← r
    return a :: (← times r n)

/-- A count of at most so many, and as many items. -/
def vectorUpTo {α : Type} (most : Nat) (r : Reader α) : Reader (List α) := do
  let n ← u32
  guard (n ≤ most)
  times r n

/-- A count and as many items. -/
def vector {α : Type} (r : Reader α) : Reader (List α) := do times r (← u32)

/-- The most bytes that a name may have. -/
def maxName : Nat := 100000

def name : Reader String := do
  let n ← u32
  guard (n ≤ maxName)
  match Bytes.toText? (← take n) with
  | some s => return s
  | none => failure

def valueTypeOf? (b : UInt8) : Option ValueType :=
  if b = 0x7f then some .i32
  else if b = 0x7e then some .i64
  else if b = 0x7d then some .f32
  else if b = 0x7c then some .f64
  else none

def valueType : Reader ValueType := do
  match valueTypeOf? (← byte) with
  | some t => return t
  | none => failure

/-- The most parameters, and the most results, that a function may have. -/
def maxArity : Nat := 1000

def functionType : Reader FunctionType := do
  guard ((← byte) = 0x60)
  return ⟨← vectorUpTo maxArity valueType, ← vectorUpTo maxArity valueType⟩

/-- The type of a block: empty, one result, or one of the module's types. -/
def blockType (types : List FunctionType) : Reader FunctionType := fun bs =>
  match bs with
  | [] => none
  | b :: rest =>
    if b = 0x40 then some ({}, rest)
    else match valueTypeOf? b with
      | some t => some (⟨[], [t]⟩, rest)
      | none =>
        match signed 33 5 bs with
        | some (i, rest) => if i < 0 then none else types[i.toNat]?.map fun t => (t, rest)
        | none => none

/-- The number of the memory, which is the first. -/
def memoryZero : Reader Unit := do guard ((← u32) = 0)

/-- The alignment and the offset of a memory access. A bit above the alignment says that the number
of the memory stands between the two. -/
def access : Reader (Nat × Nat) := do
  let flags ← u32
  if flags.testBit 6 then memoryZero
  let align := if flags.testBit 6 then flags - 64 else flags
  guard (align < 64)
  return (align, ← u32)

def comparisonOf? (b : UInt8) : Option Comparison :=
  if b = 0x46 then some .eq
  else if b = 0x47 then some .ne
  else if b = 0x49 then some .ltU
  else if b = 0x4b then some .gtU
  else if b = 0x4d then some .leU
  else if b = 0x4f then some .geU
  else none

def binaryOf? (b : UInt8) : Option BinaryOp :=
  if b = 0x6a then some .add
  else if b = 0x6b then some .sub
  else if b = 0x6c then some .mul
  else if b = 0x6d then some .divS
  else if b = 0x6e then some .divU
  else if b = 0x70 then some .remU
  else if b = 0x71 then some .and
  else if b = 0x72 then some .or
  else if b = 0x73 then some .xor
  else if b = 0x74 then some .shl
  else if b = 0x76 then some .shrU
  else none

def wideOf? (b : UInt8) : Option WideOp :=
  if b = 0x7c then some .add
  else if b = 0x7d then some .sub
  else if b = 0x7e then some .mul
  else none

/-- An instruction without a body, given its first byte. -/
def plain (b : UInt8) : Reader Instr := do
  if b = 0x00 then return .unreachable
  else if b = 0x01 then return .nop
  else if b = 0x0c then return .branch (← u32)
  else if b = 0x0d then return .branchIf (← u32)
  else if b = 0x0f then return .ret
  else if b = 0x10 then return .call (← u32)
  else if b = 0x1a then return .drop
  else if b = 0x20 then return .localGet (← u32)
  else if b = 0x21 then return .localSet (← u32)
  else if b = 0x22 then return .localTee (← u32)
  else if b = 0x23 then return .globalGet (← u32)
  else if b = 0x24 then return .globalSet (← u32)
  else if b = 0x28 then
    let (a, o) ← access
    return .load32 a o
  else if b = 0x2d then
    let (a, o) ← access
    return .load8 a o
  else if b = 0x36 then
    let (a, o) ← access
    return .store32 a o
  else if b = 0x3a then
    let (a, o) ← access
    return .store8 a o
  else if b = 0x3f then
    memoryZero
    return .memorySize
  else if b = 0x40 then
    memoryZero
    return .memoryGrow
  else if b = 0x41 then return .const32 (UInt32.ofInt (← signed 32 5))
  else if b = 0x42 then return .const64 (UInt64.ofInt (← signed 64 10))
  else if b = 0x45 then return .isZero
  else if b = 0xa7 then return .wrap
  else match comparisonOf? b, binaryOf? b, wideOf? b with
    | some op, _, _ => return .compare op
    | none, some op, _ => return .binary op
    | none, none, some op => return .wide op
    | none, none, none => failure

/-- What ends a sequence of instructions. -/
inductive Terminator where
  | endOf
  | elseOf
deriving DecidableEq

/-- Instructions up to the end of their block. Every instruction takes a byte, so the length of the
byte string bounds their number. -/
def instructions (types : List FunctionType) : Nat → Reader (List Instr × Terminator)
  | 0 => failure
  | k + 1 => do
    let b ← byte
    if b = 0x0b then return ([], .endOf)
    else if b = 0x05 then return ([], .elseOf)
    else
      let i : Instr ←
        if b = 0x02 ∨ b = 0x03 then do
          let t ← blockType types
          let (body, e) ← instructions types k
          guard (e = .endOf)
          pure (if b = 0x02 then Instr.block t body else .loop t body)
        else if b = 0x04 then do
          let t ← blockType types
          let (yes, e) ← instructions types k
          if e = .elseOf then
            let (no, e) ← instructions types k
            guard (e = .endOf)
            pure (Instr.cond t yes no)
          else pure (Instr.cond t yes [])
        else plain b
      let (rest, e) ← instructions types k
      return (i :: rest, e)

/-- A sequence of instructions with its end. -/
def expression (types : List FunctionType) : Reader (List Instr) := do
  let (body, e) ← instructions types ((← get).length + 1)
  guard (e = .endOf)
  return body

def limits : Reader Limits := do
  let b ← byte
  if b = 0 then return ⟨← u32, none⟩
  else if b = 1 then return ⟨← u32, some (← u32)⟩
  else failure

def globalType : Reader GlobalType := do
  let t ← valueType
  let b ← byte
  guard (b = 0 ∨ b = 1)
  return ⟨t, b = 1⟩

def importOf : Reader Import := do
  let _ ← name
  let _ ← name
  let b ← byte
  if b = 0 then return .function (← u32)
  else if b = 1 then
    let t ← byte
    guard (t = 0x70 ∨ t = 0x6f)
    let _ ← limits
    return .table
  else if b = 2 then return .memory (← limits)
  else if b = 3 then return .global (← globalType)
  else failure

def exportOf : Reader Export := do
  let n ← name
  let b ← byte
  let i ← u32
  if b = 0 then return ⟨n, .function, i⟩
  else if b = 1 then return ⟨n, .table, i⟩
  else if b = 2 then return ⟨n, .memory, i⟩
  else if b = 3 then return ⟨n, .global, i⟩
  else failure

def global (types : List FunctionType) : Reader Global := do
  return ⟨← globalType, ← expression types⟩

/-- The variables of a function, given in runs of one type. -/
def locals : Reader (List ValueType) := do
  let runs ← vector (do return (← u32, ← valueType))
  guard ((runs.map (·.1)).sum ≤ maxLocals)
  return runs.flatMap fun (n, t) => List.replicate n t

/-- The most bytes that a body may have. -/
def maxBody : Nat := 7654321

def body (types : List FunctionType) : Reader (List ValueType × List Instr) := do
  let n ← u32
  guard (n ≤ maxBody)
  exactly n (do return (← locals, ← expression types))

def segment (types : List FunctionType) : Reader DataSegment := do
  let mode ← u32
  if mode = 0 then return ⟨some (← expression types), ← take (← u32)⟩
  else if mode = 1 then return ⟨none, ← take (← u32)⟩
  else if mode = 2 then
    guard ((← u32) = 0)
    return ⟨some (← expression types), ← take (← u32)⟩
  else failure

/-- The place of a section in the order of sections; custom sections have none. -/
def rank? (id : UInt8) : Option Nat :=
  if id = 12 then some 10
  else if 10 ≤ id ∧ id ≤ 11 then some (id.toNat + 1)
  else if 1 ≤ id ∧ id ≤ 8 then some id.toNat
  else none

/-- The most types, functions, globals, imports and exports, of each of them. -/
def maxParts : Nat := 1000000

/-- The most data segments. -/
def maxSegments : Nat := 100000

/-- Reads the content of a section into the module. -/
def content (m : Module) (id : UInt8) : Reader Module := do
  if id = 1 then return { m with types := ← vectorUpTo maxParts functionType }
  else if id = 2 then return { m with imports := ← vectorUpTo maxParts importOf }
  else if id = 3 then return { m with functionTypes := ← vectorUpTo maxParts u32 }
  else if id = 5 then return { m with memories := ← vector limits }
  else if id = 6 then return { m with globals := ← vectorUpTo maxParts (global m.types) }
  else if id = 7 then return { m with exports := ← vectorUpTo maxParts exportOf }
  else if id = 8 then return { m with start := some (← u32) }
  else if id = 12 then return { m with dataCount := some (← u32) }
  else if id = 10 then return { m with bodies := ← vector (body m.types) }
  else if id = 11 then return { m with data := ← vectorUpTo maxSegments (segment m.types) }
  else failure

/-- The sections, each later in order than the one before it. Every section takes a byte. -/
def sections : Nat → Nat → Module → Reader Module
  | 0, _, m => return m
  | k + 1, last, m => do
    if (← get).isEmpty then return m
    else
      let id ← byte
      let size ← u32
      if id = 0 then
        exactly size (do
          let _ ← name
          set ([] : Bytes))
        sections k last m
      else match rank? id with
        | none => failure
        | some r =>
          guard (last < r)
          sections k r (← exactly size (content m id))

/-- The magic number and the version. -/
def header : Bytes := [0x00, 0x61, 0x73, 0x6d, 0x01, 0x00, 0x00, 0x00]

def module : Reader Module := do
  guard ((← take 8) = header)
  sections (← get).length 0 {}

end Notary.Guest.Binary

namespace Notary.Guest

/-- The module of a byte string, not checked yet. -/
def Module.ofBytes? (bs : Bytes) : Option Module :=
  match Binary.module bs with
  | some (m, []) => some m
  | _ => none

end Notary.Guest
