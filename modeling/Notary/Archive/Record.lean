/-
The records of an archive: each starts with a signature, and its numbers stand at fixed places.

* `record?` — the bytes of a record at a place.
* `places` — the places where a signature stands.
-/

import Notary.Bytes

namespace Notary.Archive

/-- The number of `n` bytes that starts at an offset. -/
def number (offset n : Nat) (bs : Bytes) : Nat :=
  Bytes.leValue ((bs.drop offset).take n)

/-- A kind of record: its signature, and its size without its texts. -/
structure RecordKind where
  signature : Bytes
  size : Nat
deriving DecidableEq, Repr

namespace RecordKind

/-- The header in front of the content of an entry. -/
def header : RecordKind := ⟨[0x50, 0x4B, 3, 4], 30⟩

/-- An entry of the directory. -/
def entry : RecordKind := ⟨[0x50, 0x4B, 1, 2], 46⟩

/-- The end of the archive. -/
def ending : RecordKind := ⟨[0x50, 0x4B, 5, 6], 22⟩

/-- The end of an archive with numbers of 64 bits. -/
def wideEnding : RecordKind := ⟨[0x50, 0x4B, 6, 6], 56⟩

/-- What leads to the wide end. -/
def locator : RecordKind := ⟨[0x50, 0x4B, 6, 7], 20⟩

end RecordKind

/-- The bytes of a record, when there are so many and they start with its signature. -/
def record? (k : RecordKind) (offset : Nat) (bs : Bytes) : Option Bytes :=
  let r := (bs.drop offset).take k.size
  if r.length = k.size ∧ r.take 4 = k.signature then some r else none

/-- The places where the signature of a kind stands in full, counted from `offset`, in ascending
order. -/
def places (k : RecordKind) : Nat → Bytes → List Nat
  | _, [] => []
  | offset, b :: bs =>
    if (b :: bs).take 4 = k.signature then offset :: places k (offset + 1) bs
    else places k (offset + 1) bs

/-- The places between two offsets where the signature of a kind stands. -/
def placesBetween (k : RecordKind) (first last : Nat) (bs : Bytes) : List Nat :=
  places k first ((bs.take last).drop first)

end Notary.Archive
