/-
The memory of recent writes.

A write is remembered by its readers and the hash of its content. Only so many writes are
remembered; the oldest is forgotten first.
-/

import Std.Data.HashMap
import Notary.Store.Readers

namespace Notary.Store

/-- The readers of a write, its owner among them, and the hash of its content. -/
abbrev WriteKey := Readers × Hash

/-- The writes remembered, with the hash that each answered with. -/
structure WriteMemory where
  stored : Std.HashMap WriteKey Hash := {}
  /-- The writes remembered, oldest first. -/
  order : List WriteKey := []

namespace WriteMemory

/-- How many writes are remembered. -/
def capacity : Nat := 1000

/-- Forgets the oldest writes until so many are left as may be. -/
def forget (m : WriteMemory) : List WriteKey → WriteMemory
  | [] => { m with order := [] }
  | k :: rest =>
    if (k :: rest).length ≤ capacity then { m with order := k :: rest }
    else forget { m with stored := m.stored.erase k } rest

/-- Remembers a write. One that is known keeps its place. -/
def insert (m : WriteMemory) (k : WriteKey) (h : Hash) : WriteMemory :=
  let order := if m.stored.contains k then m.order else m.order ++ [k]
  { m with stored := m.stored.insert k h }.forget order

end WriteMemory

end Notary.Store
