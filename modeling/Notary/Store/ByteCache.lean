/-
A cache of byte strings that is bounded by the bytes it holds.

Keys stand in a queue, the one used last at the end. When the cache holds more bytes than it may,
keys leave from the front.

* `ByteCache.get` — the value of a key, which counts as a use.
* `ByteCache.insert` — a value larger than the whole budget is not kept.
* `ByteCache.evict` — drops the keys used longest ago until the rest fits.
-/

import Std.Data.HashMap
import Notary.Bytes

namespace Notary.Store

/-- A bounded cache for keys of type `κ`. -/
structure ByteCache (κ : Type) [DecidableEq κ] [Hashable κ] where
  /-- How many bytes may be held. -/
  capacity : Nat
  /-- How many bytes are held. -/
  used : Nat := 0
  entries : Std.HashMap κ Bytes := {}
  /-- The keys held, used longest ago first. -/
  order : List κ := []

namespace ByteCache

variable {κ : Type} [DecidableEq κ] [Hashable κ]

/-- Marks a key as the one used last. -/
def touch (c : ByteCache κ) (k : κ) : ByteCache κ := { c with order := c.order.erase k ++ [k] }

/-- The value of a key, which counts as a use of it. -/
def get (c : ByteCache κ) (k : κ) : Option Bytes × ByteCache κ :=
  match c.entries[k]? with
  | none => (none, c)
  | some v => (some v, c.touch k)

/-- Drops keys from the front of the queue while too many bytes are held. -/
def evict (c : ByteCache κ) : List κ → ByteCache κ
  | [] => { c with order := [] }
  | k :: rest =>
    if c.used ≤ c.capacity then { c with order := k :: rest }
    else
      evict { c with
        used := c.used - (c.entries[k]?.map List.length).getD 0
        entries := c.entries.erase k } rest

/-- Keeps a value as the one used last, unless it is larger than the whole budget. -/
def insert (c : ByteCache κ) (k : κ) (v : Bytes) : ByteCache κ :=
  if c.capacity < v.length then c
  else
    let c' : ByteCache κ :=
      match c.entries[k]? with
      | some old => { c.touch k with used := c.used - old.length }
      | none => { c with order := c.order ++ [k] }
    let c' := { c' with entries := c'.entries.insert k v, used := c'.used + v.length }
    c'.evict c'.order

end ByteCache

end Notary.Store
