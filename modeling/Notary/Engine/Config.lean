/-
Settings of an engine.

* `EngineConfig` — sizes of the worker pool and of the context cache, and how archives are read.
* `requestedPoolSize` — the size of the pool that a text of the environment asks for.
-/

import Notary.Context.Cache
import Notary.Text.Blank

namespace Notary.Engine

/-- The size of a worker pool that nothing else is said about. -/
def defaultPoolSize : Nat := 32

/-- A decimal number below `2 ^ 64`, with or without a plus sign in front. -/
def decimal? (cs : List Char) : Option Nat :=
  let digits := match cs with
    | '+' :: rest => rest
    | cs => cs
  if digits.isEmpty || !digits.all Char.isDigit then none
  else
    let n := digits.foldl (fun n c => n * 10 + (c.toNat - 48)) 0
    if n < 2 ^ 64 then some n else none

/-- The pool size that a text asks for. Without a text, and for a text that is no positive number of
64 bits, it is the default. Blanks around the number do not count. -/
def requestedPoolSize (raw : Option String) : Nat :=
  match raw.bind fun s => decimal? (Text.Blank.trim s.toList) with
  | some (n + 1) => n + 1
  | _ => defaultPoolSize

theorem requestedPoolSize_pos (raw : Option String) : 0 < requestedPoolSize raw := by
  unfold requestedPoolSize
  split <;> simp [defaultPoolSize]

/-- The settings of an engine. -/
structure EngineConfig where
  /-- How many tasks run at once. -/
  workerPoolSize : Nat := defaultPoolSize
  /-- How many contexts are kept. -/
  contextCacheCapacity : Nat := Context.defaultCapacity
  context : Context.Options := {}
deriving DecidableEq, Repr

namespace EngineConfig

/-- The defaults, with the size of the pool taken from a text of the environment. -/
def ofEnvironment (raw : Option String) : EngineConfig :=
  { workerPoolSize := requestedPoolSize raw }

/-- A pool has room for one task at least. -/
def withWorkerPoolSize (c : EngineConfig) (n : Nat) : EngineConfig :=
  { c with workerPoolSize := max n 1 }

/-- A cache has room for one context at least. -/
def withContextCacheCapacity (c : EngineConfig) (n : Nat) : EngineConfig :=
  { c with contextCacheCapacity := max n 1 }

def withNestedArchives (c : EngineConfig) (enabled : Bool) : EngineConfig :=
  { c with context.readNestedArchives := enabled }

def withScratchDir (c : EngineConfig) (dir : String) : EngineConfig :=
  { c with context.scratchDir := some dir }

end EngineConfig

end Notary.Engine
