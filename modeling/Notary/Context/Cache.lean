/-
A cache of contexts that keeps the most recently requested ones.

A context is named by three hashes. A request moves its key to the end of the queue; when there are
too many, the keys at the front leave. A context that has left stays usable for whoever holds it, so
the cache has a list of all contexts ever made, and a context is given by its place there.

* `CacheKey.of` — the key of a specification, a contract and an output.
* `ContextCache.request` — the context of a key, made anew when the cache has none.
-/

import Notary.Context.Basic

namespace Notary.Context

/-- The name of a context. -/
structure CacheKey where
  hash : Hash
deriving DecidableEq

namespace CacheKey

/-- The key of the hashes of a specification's definition, a contract's definition and the output of
the first function. The hashes may be malformed. -/
def of (specification contract output : Bytes) : CacheKey :=
  ⟨compositeHash [specification, contract, output]⟩

/-- The form in which a key is shown. -/
def shown (k : CacheKey) : String := k.hash.named "CacheKey"

end CacheKey

/-- How many contexts a cache keeps when nothing else is said. -/
def defaultCapacity : Nat := 100

/-- A cache of contexts. -/
structure ContextCache where
  capacity : Nat
  /-- The cached keys with the places of their contexts. -/
  entries : List (CacheKey × Nat) := []
  /-- The cached keys, the one requested longest ago in front. -/
  queue : List CacheKey := []
  /-- All contexts that were made. -/
  contexts : List Context := []

namespace ContextCache

/-- A cache with room for one context at least. -/
def new (capacity : Nat) : ContextCache := { capacity := max capacity 1 }

def size (c : ContextCache) : Nat := c.entries.length

def contains (c : ContextCache) (key : CacheKey) : Bool := (c.entries.lookup key).isSome

/-- The context at a place. -/
def context (c : ContextCache) (i : Nat) : Context := (c.contexts[i]?).getD .empty

/-- Changes the context at a place. -/
def setContext (c : ContextCache) (i : Nat) (context : Context) : ContextCache :=
  { c with contexts := c.contexts.set i context }

/-- Lets keys leave from the front of a queue while there are too many. Gives back the entries that
are left, the queue, and the entries that leave. -/
def evict (capacity : Nat) (entries : List (CacheKey × Nat)) :
    List CacheKey → List (CacheKey × Nat) × List CacheKey × List (CacheKey × Nat)
  | [] => (entries, [], [])
  | key :: rest =>
    if entries.length ≤ capacity then (entries, key :: rest, [])
    else
      let gone := entries.filter fun e => e.1 == key
      let (entries, queue, later) := evict capacity (entries.filter fun e => e.1 != key) rest
      (entries, queue, gone ++ later)

/-- The place of the context of a key, with the entries that leave the cache for it. -/
def request (c : ContextCache) (key : CacheKey) : Nat × List (CacheKey × Nat) × ContextCache :=
  match c.entries.lookup key with
  | some i => (i, [], { c with queue := c.queue.erase key ++ [key] })
  | none =>
    let i := c.contexts.length
    let (entries, queue, gone) := evict c.capacity (c.entries ++ [(key, i)]) (c.queue ++ [key])
    (i, gone, { c with entries, queue, contexts := c.contexts ++ [.empty] })

end ContextCache

end Notary.Context
