/-
Archives: a directory at the end lists the entries, each with the place of its content.

Names, sizes and checksums are those of the directory. The headers in front of the content are not
needed for the list; an entry without its header cannot be opened. A second entry of one name takes
the place of the first.

* `ofBytes?` — the entries of an archive; none when no end record leads to a directory.
* `Entry.content?` — the bytes of an entry, when they fit its checksum.
-/

import Notary.Archive.Deflate
import Notary.Archive.Ending
import Notary.Archive.Extra

namespace Notary.Archive

/-- How the content of an entry is kept. -/
inductive Method where
  | stored
  | deflated
  | other (number : Nat)
deriving DecidableEq, Repr

def Method.ofNumber : Nat → Method
  | 0 => .stored
  | 8 => .deflated
  | n => .other n

/-- An entry of an archive. -/
structure Entry where
  name : String
  encrypted : Bool
  method : Method
  checksum : Nat
  /-- The content as it is kept, when there is a header in front of it. -/
  packed? : Option Bytes
deriving DecidableEq

namespace Entry

/-- The entry can be opened: it is not encrypted, kept in a known way, and has its header. -/
def isOpenable (e : Entry) : Bool :=
  !e.encrypted && e.packed?.isSome && (match e.method with | .other _ => false | _ => true)

/-- The content, when the entry can be opened and the content fits the checksum. -/
def content? (e : Entry) : Option Bytes :=
  if e.isOpenable then
    let bytes? := match e.method with
      | .deflated => e.packed?.bind Deflate.inflate
      | _ => e.packed?
    bytes?.filter fun bs => (crc32 bs).toNat == e.checksum
  else none

end Entry

/-- The content behind the header at an offset, as it is kept: so many bytes, or all that there
are. -/
def packedAt? (bs : Bytes) (offset size : Nat) : Option Bytes :=
  (record? .header offset bs).map fun r =>
    (bs.drop (offset + RecordKind.header.size + number 26 2 r + number 28 2 r)).take size

/-- The entry at a place of the directory, and where the next one is. What it is about must start
before the directory. -/
def entryAt (bs : Bytes) (d : DirectoryPlace) (place : Nat) : Option (Entry × Nat) := do
  let r ← record? .entry place bs
  let texts := bs.drop (place + RecordKind.entry.size)
  let (nameLength, extraLength, commentLength) := (number 28 2 r, number 30 2 r, number 32 2 r)
  guard (nameLength + extraLength + commentLength ≤ texts.length)
  let flags := number 8 2 r
  let rawName := texts.take nameLength
  let extra := (texts.drop nameLength).take extraLength
  let comment := (texts.drop (nameLength + extraLength)).take commentLength
  let plain : Header := {
    name := entryName (flags.testBit 11) rawName
    rawName
    comment := entryName (flags.testBit 11) comment
    method := number 10 2 r
    size := number 24 4 r
    packedSize := number 20 4 r
    offset := number 42 4 r }
  let h ← plain.withExtra? extra
  let offset := h.offset + d.shift
  guard (offset < d.start)
  return ({ name := h.name, encrypted := flags.testBit 0 || h.isSealed
            method := .ofNumber h.method, checksum := number 16 4 r
            packed? := packedAt? bs offset h.packedSize },
    place + RecordKind.entry.size + nameLength + extraLength + commentLength)

/-- So many entries one after the other. -/
def entriesAt (bs : Bytes) (d : DirectoryPlace) : Nat → Nat → Option (List Entry)
  | 0, _ => some []
  | n + 1, place =>
    match entryAt bs d place with
    | none => none
    | some (e, next) => (entriesAt bs d n next).map (e :: ·)

/-- Adds an entry, in the place of one of the same name. -/
def insertEntry (es : List Entry) (e : Entry) : List Entry :=
  if es.any (·.name == e.name) then es.map fun e' => if e'.name == e.name then e else e'
  else es ++ [e]

/-- The entries of a directory, each name once. -/
def entries? (bs : Bytes) (d : DirectoryPlace) : Option (List Entry) :=
  (entriesAt bs d d.count d.start).map (·.foldl insertEntry [])

/-- The entries of an archive. The end record nearest to the end counts, unless it leads to no
directory. -/
def ofBytes? (bs : Bytes) : Option (List Entry) := (directories bs).findSome? (entries? bs)

end Notary.Archive
