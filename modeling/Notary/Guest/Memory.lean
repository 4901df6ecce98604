/-
Guest memory: bytes at addresses from zero, in pages of 64 KiB.

Only bytes that were written are kept; all others are zero. Nothing can be read or written unless
all of it lies within the pages.

* `Memory.read?`, `Memory.write?` — a stretch of bytes, when it fits.
* `Memory.grow` — more pages, up to the limit.
-/

import Std.Data.HashMap
import Notary.Bytes

namespace Notary.Guest

/-- A memory. -/
structure Memory where
  pages : Nat
  /-- The most pages it may have. -/
  limit : Nat
  /-- The bytes that were written, by address. -/
  cells : Std.HashMap Nat UInt8 := {}

namespace Memory

def pageSize : Nat := 65536

/-- The number of addresses. -/
def size (m : Memory) : Nat := m.pages * pageSize

/-- The byte at an address. -/
def cell (m : Memory) (a : Nat) : UInt8 := m.cells.getD a 0

/-- The bytes of a stretch. -/
def read? (m : Memory) (offset length : Nat) : Option Bytes :=
  if offset + length ≤ m.size then some ((List.range length).map fun i => m.cell (offset + i))
  else none

/-- Puts bytes one after the other. -/
def putAll : Bytes → Nat → Std.HashMap Nat UInt8 → Std.HashMap Nat UInt8
  | [], _, cells => cells
  | b :: rest, a, cells => putAll rest (a + 1) (cells.insert a b)

/-- The memory with bytes put at an offset, fitting or not. -/
def put (m : Memory) (offset : Nat) (bs : Bytes) : Memory :=
  { m with cells := putAll bs offset m.cells }

/-- The memory with bytes put at an offset. -/
def write? (m : Memory) (offset : Nat) (bs : Bytes) : Option Memory :=
  if offset + bs.length ≤ m.size then some (m.put offset bs) else none

/-- The memory with more pages, unless that is too many. -/
def grow (m : Memory) (delta : Nat) : Option Memory :=
  if m.pages + delta ≤ m.limit then some { m with pages := m.pages + delta } else none

theorem getD_putAll (bs : Bytes) (a x : Nat) (cells : Std.HashMap Nat UInt8) :
    (putAll bs a cells).getD x 0 =
      if a ≤ x then bs.getD (x - a) (cells.getD x 0) else cells.getD x 0 := by
  induction bs generalizing a cells with
  | nil => simp [putAll]
  | cons b rest ih =>
    simp only [putAll, ih, Std.HashMap.getD_insert]
    rcases Nat.lt_trichotomy x a with h | h | h
    · simp [Nat.not_le.2 h, show ¬ a + 1 ≤ x by omega, show ¬ a = x by omega]
    · subst h
      simp [show ¬ x + 1 ≤ x by omega]
    · have : x - a = (x - (a + 1)) + 1 := by omega
      simp [show a ≤ x by omega, show a + 1 ≤ x by omega, show ¬ a = x by omega, this]

end Memory

end Notary.Guest
