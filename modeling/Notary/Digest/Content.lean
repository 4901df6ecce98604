/-
Content hashes, and one hash for several byte strings.

Several byte strings are hashed as one stream in which each stands behind its length in eight bytes,
so the stream tells where one ends and the next begins.

* `contentHash` — the name of a piece of content.
* `framedStream`, `compositeHash` — the stream of several parts, and its content hash.
-/

import Notary.Bytes
import Notary.Digest.Blake3

namespace Notary

/-- The digest that names a piece of content. -/
def contentHash (bs : Bytes) : Hash := Digest.Blake3.digest bs

/-- The parts one after the other, each behind its length. -/
def framedStream (parts : List Bytes) : Bytes := parts.flatMap fun p => Bytes.le 8 p.length ++ p

/-- One hash for several parts. -/
def compositeHash (parts : List Bytes) : Hash := contentHash (framedStream parts)

end Notary
