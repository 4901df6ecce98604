/-
The cyclic redundancy check of archives: 32 bits, the polynomial 0xEDB88320 with its lowest bit
standing for the highest power.

* `crc32` — the checksum of a byte string.
-/

import Notary.Bytes

namespace Notary.Archive

/-- Divides once by the polynomial. -/
def crcStep (c : UInt32) : UInt32 :=
  if c &&& 1 = 1 then (c >>> 1) ^^^ 0xEDB88320 else c >>> 1

/-- Takes in one byte. -/
def crcByte (c : UInt32) (b : UInt8) : UInt32 :=
  let c := c ^^^ b.toUInt32
  crcStep (crcStep (crcStep (crcStep (crcStep (crcStep (crcStep (crcStep c)))))))

/-- The checksum of a byte string. -/
def crc32 (bs : Bytes) : UInt32 := bs.foldl crcByte 0xFFFFFFFF ^^^ 0xFFFFFFFF

end Notary.Archive
