/-
Several byte strings in one: each behind its length in four bytes.

* `Frames.join`, `Frames.split?` — byte strings in one, and the byte strings of one.
-/

import Notary.Bytes

namespace Notary.Engine.Frames

/-- The bytes in front of a frame that hold its length. -/
def lengthWidth : Nat := 4

/-- One frame. -/
def frame (bs : Bytes) : Bytes := Bytes.le lengthWidth bs.length ++ bs

/-- Byte strings in one. -/
def join (frames : List Bytes) : Bytes := frames.flatMap frame

/-- The byte strings of one. Each frame takes a byte at least, so the length bounds their number. -/
def splitUpTo : Nat → Bytes → Option (List Bytes)
  | _, [] => some []
  | 0, _ :: _ => none
  | k + 1, bs =>
    if bs.length < lengthWidth then none
    else
      let length := Bytes.leValue (bs.take lengthWidth)
      let rest := bs.drop lengthWidth
      if rest.length < length then none
      else (splitUpTo k (rest.drop length)).map (rest.take length :: ·)

/-- The byte strings of one; none when it does not end with a frame. -/
def split? (bs : Bytes) : Option (List Bytes) := splitUpTo bs.length bs

end Notary.Engine.Frames
