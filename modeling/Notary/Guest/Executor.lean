/-
Executors: they start modules and call what these export.

What a module does when it runs is the executor's business. All that is asked of it here is what can
be seen from outside: whether a module starts, which functions a guest exports with which
signatures, what a call of one of them gives, and the memory that the guest exports. An answer is
made of the module, the state of the guest and the call, and of nothing else.

* `Executor` — the operations; the type is that of the guests, with all their state.
* `Executor.callWords` — a call of an export that takes words and gives a word.
* `Executor.Lawful` — what every executor of this kind of module warrants about memory.
-/

import Notary.Guest.Memory

namespace Notary.Guest

/-- Why a module does not become a guest, with what the executor says about it. -/
inductive Refusal where
  | notCompiled (detail : String)
  | notInstantiated (detail : String)
deriving DecidableEq, Repr

def Refusal.message : Refusal → String
  | .notCompiled detail => s!"Failed to compile module: {detail}"
  | .notInstantiated detail => s!"Failed to instantiate module: {detail}"

/-- Why a guest cannot be started or a call gives nothing. -/
inductive Fault where
  | refused (refusal : Refusal)
  | missingExport (name : String)
  | signature (name : String) (params results wanted : Nat)
  /-- A call gave something else than the word that the signature promised. -/
  | noWord (name : String)
  | trap (function cause : String)
  | outOfBounds (offset length : Nat)
  | bufferTooLarge (length : Nat)
deriving DecidableEq, Repr

def Fault.message : Fault → String
  | .refused refusal => refusal.message
  | .missingExport name => s!"Missing export: {name}"
  | .signature name params results wanted =>
    s!"Export {name} has signature {params} params -> {results} results, "
      ++ s!"expected {wanted} i32 params -> i32"
  | .noWord name => s!"Export {name} has signature non-i32 result, expected i32 result"
  | .trap function cause => s!"Guest trapped in {function}: {cause}"
  | .outOfBounds offset length =>
    s!"Guest memory access out of bounds: {length} bytes at offset {offset}"
  | .bufferTooLarge length => s!"Buffer of {length} bytes does not fit the guest address space"

/-- The kind of a value that goes into an exported function or comes out of it. -/
inductive ValueKind where
  | word
  | other
deriving DecidableEq, Repr

/-- What an exported function takes and gives. -/
structure Signature where
  params : List ValueKind
  results : List ValueKind
deriving DecidableEq, Repr

/-- The function takes so many words and gives one. -/
def Signature.takesWords (s : Signature) (count : Nat) : Bool :=
  s.params == List.replicate count .word && s.results == [.word]

/-- The exported memory. -/
def memoryName : String := "memory"

/-- A way to run modules. -/
structure Executor (γ : Type) where
  /-- Compiles a module without imports and starts it. -/
  start : Bytes → Except Refusal γ
  /-- The function that is exported under a name. -/
  signature? : γ → String → Option Signature
  /-- Runs an exported function on words. It gives a word, or something else, or traps; the guest
  lives on. -/
  invoke : γ → String → List UInt32 → Except String (Option UInt32) × γ
  /-- The memory, when it is exported under its name. -/
  memory? : γ → Option Memory
  /-- Puts other bytes into the exported memory. -/
  putMemory : γ → Memory → γ

namespace Executor

variable {γ : Type}

/-- Starts a module. -/
def instantiate (x : Executor γ) (bs : Bytes) : Except Fault γ := (x.start bs).mapError .refused

def hasFunction (x : Executor γ) (g : γ) (name : String) : Bool := (x.signature? g name).isSome

/-- Calls an export that takes as many words as there are arguments and gives one word. -/
def callWords (x : Executor γ) (g : γ) (name : String) (args : List UInt32) :
    Except Fault UInt32 × γ :=
  match x.signature? g name with
  | none => (.error (.missingExport name), g)
  | some s =>
    if s.takesWords args.length then
      match x.invoke g name args with
      | (.ok (some w), g) => (.ok w, g)
      | (.ok none, g) => (.error (.noWord name), g)
      | (.error cause, g) => (.error (.trap name cause), g)
    else (.error (.signature name s.params.length s.results.length args.length), g)

/-- The exported memory, which must be there. -/
def getMemory (x : Executor γ) (g : γ) : Except Fault Memory :=
  match x.memory? g with
  | some m => .ok m
  | none => .error (.missingExport memoryName)

/-- The exported memory; one without pages when none is exported. -/
def memory (x : Executor γ) (g : γ) : Memory := (x.memory? g).getD { pages := 0, limit := 0 }

/-- The laws of guest memory. -/
structure Lawful (x : Executor γ) : Prop where
  /-- Bytes that are put into the exported memory are there. -/
  memory?_put : ∀ (g : γ) (m : Memory), (x.memory? g).isSome = true →
    m.pages = (x.memory g).pages → m.limit = (x.memory g).limit →
      x.memory? (x.putMemory g m) = some m
  /-- No call takes away an export. -/
  exported_invoke : ∀ (g : γ) (name : String) (args : List UInt32), (x.memory? g).isSome = true →
    (x.memory? (x.invoke g name args).2).isSome = true
  /-- Memory never shrinks. -/
  size_invoke : ∀ (g : γ) (name : String) (args : List UInt32),
    (x.memory g).size ≤ (x.memory (x.invoke g name args).2).size

end Executor

end Notary.Guest
