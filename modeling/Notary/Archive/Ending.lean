/-
Where the directory of an archive is.

The end record is searched from the back, since bytes may follow it; bytes may also stand in front
of the archive, which shifts all places by the same amount. When the numbers of the end record are
too small for what they count, a locator in front of it leads to a wide end record.

* `directories` — the directories that the end records of an archive lead to, the last first.
-/

import Notary.Archive.Record

namespace Notary.Archive

/-- Where a directory is. -/
structure DirectoryPlace where
  /-- The offset of its first entry. -/
  start : Nat
  /-- How far all places are shifted. -/
  shift : Nat
  /-- How many entries it has. -/
  count : Nat
deriving DecidableEq, Repr

/-- The directory that a plain end record leads to. It starts where the record says, or at the first
directory entry behind that place; it is not looked for when there are no entries at all. The whole
archive must be in one piece. -/
def plainDirectory? (bs : Bytes) (place : Nat) (r : Bytes) : Option DirectoryPlace := do
  guard (number 4 2 r = number 6 2 r)
  let count := number 8 2 r
  let directory := number 16 4 r
  if number 10 2 r = 0 then
    let shift := place - directory
    return ⟨directory + shift, shift, count⟩
  else
    guard (directory < place)
    let start ← (placesBetween .entry directory place bs).head?
    return ⟨start, start - directory, count⟩

/-- The wide end record at a place: it ends at its locator, names the disk that the locator names,
and leaves room for its entries. -/
def wideEnding? (bs locator : Bytes) (locatorPlace place : Nat) : Option Bytes := do
  let r ← record? .wideEnding place bs
  let size := number 4 8 r
  guard (44 ≤ size ∧ size + 12 = locatorPlace - place)
  guard (number 20 4 r = number 4 4 locator)
  guard (number 32 8 r * RecordKind.entry.size + number 48 8 r ≤ place)
  return r

/-- The directory that the locator at a place leads to, by the first wide end record that fits. -/
def wideDirectory? (bs locator : Bytes) (locatorPlace : Nat) : Option DirectoryPlace := do
  let stated := number 8 8 locator
  guard (stated < locatorPlace ∧ number 16 4 locator ≤ 1)
  let (place, r) ← (placesBetween .wideEnding stated locatorPlace bs).findSome? fun p =>
    (wideEnding? bs locator locatorPlace p).map fun r => (p, r)
  let count := number 32 8 r
  guard (number 24 8 r ≤ count)
  guard (number 14 2 r ≤ number 12 2 r)
  guard (number 16 4 r = number 20 4 r)
  let shift := place - stated
  return ⟨number 48 8 r + shift, shift, count⟩

/-- The locator in front of an end record whose numbers may be too small. -/
def locator? (bs : Bytes) (place : Nat) (r : Bytes) : Option Bytes :=
  if number 10 2 r ≠ 0xFFFF ∧ number 16 4 r ≠ 0xFFFFFFFF then none
  else if place < RecordKind.locator.size then none
  else record? .locator (place - RecordKind.locator.size) bs

/-- The directory that the end record at a place leads to. Its comment must fit. -/
def directoryOf? (bs : Bytes) (place : Nat) : Option DirectoryPlace := do
  let r ← record? .ending place bs
  guard (place + RecordKind.ending.size + number 20 2 r ≤ bs.length)
  match locator? bs place r with
  | some locator => wideDirectory? bs locator (place - RecordKind.locator.size)
  | none => plainDirectory? bs place r

/-- The directories that end records lead to, from the back. -/
def directories (bs : Bytes) : List DirectoryPlace :=
  (places .ending 0 bs).reverse.filterMap (directoryOf? bs)

end Notary.Archive
