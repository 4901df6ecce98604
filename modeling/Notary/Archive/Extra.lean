/-
The extra fields of directory entries: each has a kind, a length and so many bytes.

Fields of kinds without a meaning are passed over. Fields that end too early end the list, and what
was read so far holds; all other faults make the entry ill-formed.

* `Header` — what a directory entry says about its content, as far as extra fields can change it.
* `Header.withExtra?` — the header after all extra fields.
-/

import Notary.Archive.Checksum
import Notary.Archive.Name

namespace Notary.Archive

/-- What a directory entry says. -/
structure Header where
  name : String
  /-- The name as it is kept. -/
  rawName : Bytes
  comment : String
  /-- The number of the way in which the content is kept. -/
  method : Nat
  size : Nat
  /-- The size of the content as it is kept. -/
  packedSize : Nat
  /-- The place of the content, with what stands in front of it. -/
  offset : Nat
  /-- The content is under a strong cipher. -/
  isSealed : Bool := false
deriving DecidableEq, Repr

namespace Extra

/-- Why the fields are not read on. -/
inductive Stop where
  /-- The bytes end inside a field. -/
  | cut
  /-- A field is ill-formed. -/
  | refused
deriving DecidableEq, Repr

/-- The header so far, and the bytes that are left. -/
structure State where
  header : Header
  rest : Bytes

/-- Reads fields. The header keeps its changes when reading stops. -/
abbrev Reader := ExceptT Stop (StateM State)

/-- The next `n` bytes. -/
def take (n : Nat) : Reader Bytes := do
  let s ← get
  if s.rest.length < n then throw .cut
  set { s with rest := s.rest.drop n }
  return s.rest.take n

/-- The next number of `n` bytes. -/
def takeNumber (n : Nat) : Reader Nat := return Bytes.leValue (← take n)

/-- Refuses the field unless the condition holds. -/
def require (holds : Bool) : Reader Unit := if holds then pure () else throw .refused

/-- Changes the header. -/
def change (f : Header → Header) : Reader Unit := modify fun s => { s with header := f s.header }

/-- A number that does not fit 32 bits stands as the largest of them. -/
def narrowest : Nat := 0xFFFFFFFF

/-- Reads a wide number for a narrow one that does not hold its value, or for any when the field has
room for all three. Gives back how many bytes it took. -/
def wideNumber (length : Nat) (get : Header → Nat) (put : Nat → Header → Header) : Reader Nat := do
  if 24 ≤ length || get (← MonadState.get).header == narrowest then
    let n ← takeNumber 8
    change (put n)
    return 8
  else return 0

/-- Wide numbers: the size, the size as it is kept, and the place. -/
def wideNumbers (length : Nat) : Reader Unit := do
  let a ← wideNumber length (·.size) fun n h => { h with size := n }
  let b ← wideNumber length (·.packedSize) fun n h => { h with packedSize := n }
  let c ← wideNumber length (·.offset) fun n h => { h with offset := n }
  require (a + b + c ≤ length)
  let _ ← take (length - (a + b + c))

/-- Three times in one attribute. -/
def attributeTimes (length : Nat) : Reader Unit := do
  require (length == 32)
  let _ ← take 4
  require ((← takeNumber 2) == 1)
  require ((← takeNumber 2) == 24)
  let _ ← take 24

/-- The number of bits that are set in a byte. -/
def bitCount (n : Nat) : Nat := ((List.range 8).filter n.testBit).length

/-- Up to three times, with a bit for each. Five bytes hold one time whatever the bits are. -/
def flaggedTimes (length : Nat) : Reader Unit := do
  let flags ← takeNumber 1
  require (length == 5 || length == 1 + 4 * bitCount flags)
  require (flags < 8)
  let _ ← take (length - 1)

/-- A cipher with the way in which the content is kept below it. -/
def cipher (length : Nat) : Reader Unit := do
  require (length == 7)
  let version ← takeNumber 2
  let vendor ← takeNumber 2
  let strength ← takeNumber 1
  let method ← takeNumber 2
  require (vendor == 0x4541 && (version == 1 || version == 2))
  require (1 ≤ strength && strength ≤ 3)
  change fun h => { h with method, isSealed := true }

/-- A text that stands for an older one, which is given by its checksum. -/
def betterText (length : Nat) (older : Header → Bytes) : Reader (Bytes × String) := do
  let _ ← take 1
  let checksum ← takeNumber 4
  require (5 ≤ length)
  let content ← take (length - 5)
  require (checksum == (crc32 (older (← get).header)).toNat)
  match Bytes.toText? content with
  | some s => return (content, s)
  | none => throw .refused

/-- One field. -/
def field : Reader Unit := do
  let kind ← takeNumber 2
  let length ← takeNumber 2
  if kind = 0x0001 then wideNumbers length
  else if kind = 0x000A then attributeTimes length
  else if kind = 0x9901 then cipher length
  else if kind = 0x5455 then flaggedTimes length
  else if kind = 0x6375 then
    let (_, comment) ← betterText length fun h => Bytes.ofText h.comment
    change fun h => { h with comment }
  else if kind = 0x7075 then
    let (rawName, name) ← betterText length (·.rawName)
    change fun h => { h with rawName, name }
  else
    let _ ← take length

/-- Fields up to the end of the bytes. Every field takes some. -/
def fields : Nat → Reader Unit
  | 0 => return
  | k + 1 => do
    if (← get).rest.isEmpty then return
    field
    fields k

end Extra

/-- The method number that says that only an extra field knows the method. -/
def Header.cipherMethod : Nat := 99

/-- The header after all extra fields; none when one is ill-formed. -/
def Header.withExtra? (h : Header) (extra : Bytes) : Option Header :=
  let (stop, s) := (Extra.fields extra.length).run.run ⟨h, extra⟩
  if stop matches .error .refused then none
  else if s.header.method = cipherMethod ∧ !s.header.isSealed then none
  else some s.header

end Notary.Archive
