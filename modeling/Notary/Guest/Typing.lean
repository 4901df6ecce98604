/-
Which guest modules are well-typed.

An instruction is checked against the types of the operands in front of it. Behind an instruction
that never goes on, any operands are there.

* `checkAll` — the operands behind a sequence of instructions.
* `Module.isValid` — every part of a module fits the others.
-/

import Notary.Guest.Syntax

namespace Notary.Guest

/-- The types of the operands, the topmost first; below the known ones there is nothing, or anything
that is asked for. -/
structure Operands where
  known : List ValueType := []
  anything : Bool := false

namespace Operands

def push (ts : List ValueType) (o : Operands) : Operands :=
  { o with known := ts.reverse ++ o.known }

/-- The operands below one of the given type. -/
def pop (t : ValueType) (o : Operands) : Option Operands :=
  match o.known with
  | [] => if o.anything then some o else none
  | t' :: rest => if t' = t then some { o with known := rest } else none

/-- The operands below any one. -/
def popAny (o : Operands) : Option Operands :=
  match o.known with
  | [] => if o.anything then some o else none
  | _ :: rest => some { o with known := rest }

/-- The operands below operands of the given types, the last of which is topmost. -/
def popAll (ts : List ValueType) (o : Operands) : Option Operands :=
  ts.reverse.foldlM (fun o t => o.pop t) o

/-- Exactly the given operands are there. -/
def areExactly (ts : List ValueType) (o : Operands) : Bool :=
  (o.popAll ts).any fun o => o.known.isEmpty

/-- What is there behind an instruction that never goes on. -/
def unreachable : Operands := { anything := true }

end Operands

/-- What the instructions of a function may refer to. -/
structure TypingContext where
  functions : List FunctionType := []
  globals : List GlobalType := []
  hasMemory : Bool := false
  locals : List ValueType := []
  results : List ValueType := []

mutual

/-- The operands behind an instruction. The labels are the types that a branch to each takes along,
innermost first. -/
def check (c : TypingContext) (labels : List (List ValueType)) (o : Operands) :
    Instr → Option Operands
  | .unreachable => some .unreachable
  | .nop => some o
  | .block t body => do
    let o ← o.popAll t.params
    let inner ← checkAll c (t.results :: labels) (Operands.push t.params {}) body
    guard (inner.areExactly t.results)
    return o.push t.results
  | .loop t body => do
    let o ← o.popAll t.params
    let inner ← checkAll c (t.params :: labels) (Operands.push t.params {}) body
    guard (inner.areExactly t.results)
    return o.push t.results
  | .cond t yes no => do
    let o ← o.pop .i32
    let o ← o.popAll t.params
    let inner ← checkAll c (t.results :: labels) (Operands.push t.params {}) yes
    guard (inner.areExactly t.results)
    let inner ← checkAll c (t.results :: labels) (Operands.push t.params {}) no
    guard (inner.areExactly t.results)
    return o.push t.results
  | .branch l => do
    let ts ← labels[l]?
    let _ ← o.popAll ts
    return .unreachable
  | .branchIf l => do
    let ts ← labels[l]?
    let o ← o.pop .i32
    let o ← o.popAll ts
    return o.push ts
  | .ret => do
    let _ ← o.popAll c.results
    return .unreachable
  | .call f => do
    let t ← c.functions[f]?
    let o ← o.popAll t.params
    return o.push t.results
  | .drop => o.popAny
  | .localGet i => do
    let t ← c.locals[i]?
    return o.push [t]
  | .localSet i => do
    let t ← c.locals[i]?
    o.pop t
  | .localTee i => do
    let t ← c.locals[i]?
    let o ← o.pop t
    return o.push [t]
  | .globalGet i => do
    let g ← c.globals[i]?
    return o.push [g.type]
  | .globalSet i => do
    let g ← c.globals[i]?
    guard g.isMutable
    o.pop g.type
  | .load32 align _ => do
    guard (c.hasMemory ∧ align ≤ 2)
    let o ← o.pop .i32
    return o.push [.i32]
  | .load8 align _ => do
    guard (c.hasMemory ∧ align ≤ 0)
    let o ← o.pop .i32
    return o.push [.i32]
  | .store32 align _ => do
    guard (c.hasMemory ∧ align ≤ 2)
    o.popAll [.i32, .i32]
  | .store8 align _ => do
    guard (c.hasMemory ∧ align ≤ 0)
    o.popAll [.i32, .i32]
  | .memorySize => do
    guard c.hasMemory
    return o.push [.i32]
  | .memoryGrow => do
    guard c.hasMemory
    let o ← o.pop .i32
    return o.push [.i32]
  | .const32 _ => some (o.push [.i32])
  | .const64 _ => some (o.push [.i64])
  | .isZero => do
    let o ← o.pop .i32
    return o.push [.i32]
  | .compare _ => do
    let o ← o.popAll [.i32, .i32]
    return o.push [.i32]
  | .binary _ => do
    let o ← o.popAll [.i32, .i32]
    return o.push [.i32]
  | .wide _ => do
    let o ← o.popAll [.i64, .i64]
    return o.push [.i64]
  | .wrap => do
    let o ← o.pop .i64
    return o.push [.i32]

/-- The operands behind a sequence of instructions. -/
def checkAll (c : TypingContext) (labels : List (List ValueType)) (o : Operands) :
    List Instr → Option Operands
  | [] => some o
  | i :: rest => do
    let o ← check c labels o i
    checkAll c labels o rest

end

/-- First values and addresses are given by constants, sums, differences and products of them, and
imported globals that never change. -/
def Instr.isConstant (imported : List GlobalType) : Instr → Bool
  | .const32 _ | .const64 _ | .wide _ => true
  | .binary op => op == .add || op == .sub || op == .mul
  | .globalGet i => imported[i]?.any fun g => !g.isMutable
  | _ => false

/-- The instructions give a first value of a type. -/
def isConstant (c : TypingContext) (imported : List GlobalType) (t : ValueType)
    (code : List Instr) : Bool :=
  code.all (·.isConstant imported) && (checkAll c [] {} code).any (·.areExactly [t])

/-- The most pages a memory may have. -/
def maxPages : Nat := 65536

def Limits.isValid (l : Limits) : Bool :=
  l.initial ≤ maxPages && l.maximum.all fun m => l.initial ≤ m && m ≤ maxPages

namespace Module

/-- The numbers of the types of all functions, imported ones first. -/
def functionTypeNumbers (m : Module) : List Nat :=
  (m.imports.filterMap fun | .function t => some t | _ => none) ++ m.functionTypes

/-- The types of the imported globals. -/
def importedGlobals (m : Module) : List GlobalType :=
  m.imports.filterMap fun | .global t => some t | _ => none

/-- The types of all globals, imported ones first. -/
def globalTypes (m : Module) : List GlobalType := m.importedGlobals ++ m.globals.map (·.type)

/-- The limits of all memories, imported ones first. -/
def allMemories (m : Module) : List Limits :=
  (m.imports.filterMap fun | .memory l => some l | _ => none) ++ m.memories

/-- What the functions of the module may refer to, when all type numbers are good. -/
def context? (m : Module) : Option TypingContext := do
  let functions ← m.functionTypeNumbers.mapM fun t => m.types[t]?
  return { functions, globals := m.globalTypes, hasMemory := !m.allMemories.isEmpty }

/-- A function has not too many variables, and its body leaves exactly its results. -/
def checkBody (c : TypingContext) (t : FunctionType) (locals : List ValueType) (body : List Instr) :
    Bool :=
  let c := { c with locals := t.params ++ locals, results := t.results }
  c.locals.length ≤ maxLocals && (checkAll c [t.results] {} body).any (·.areExactly t.results)

def exportExists (m : Module) (c : TypingContext) (e : Export) : Bool :=
  match e.kind with
  | .function => e.index < c.functions.length
  | .table => (m.imports.countP fun | .table => true | _ => false) > e.index
  | .memory => e.index < m.allMemories.length
  | .global => e.index < c.globals.length

/-- Every part of the module fits the others. -/
def isValid (m : Module) : Bool :=
  match m.context? with
  | none => false
  | some c =>
    let own := c.functions.drop (c.functions.length - m.functionTypes.length)
    own.length == m.bodies.length
      && (own.zip m.bodies).all (fun (t, locals, body) => checkBody c t locals body)
      && m.allMemories.length ≤ 1 && m.allMemories.all (·.isValid)
      && m.globals.all (fun g => isConstant c m.importedGlobals g.type.type g.init)
      && m.exports.all (m.exportExists c)
      && decide (m.exports.map (·.name)).Nodup
      && m.start.all (fun f => c.functions[f]? == some {})
      && m.data.all (fun d => d.offset.all fun code =>
        c.hasMemory && isConstant c m.importedGlobals .i32 code)
      && m.dataCount.all (· == m.data.length)

end Module

end Notary.Guest
