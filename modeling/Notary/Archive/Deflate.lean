/-
Reading compressed data: blocks of stored bytes, or of literals and copies under prefix codes.

Bits are taken lowest first. Codes are canonical: shorter codes come first, and codes of one length
stand in the order of their symbols, so the lengths alone determine them. In front of all content
stand zeros, as far back as a copy may reach.

* `Code.ofLengths?`, `Code.decode` — a code from the lengths of its symbols, and one symbol of it.
* `inflate` — the bytes that compressed data stands for; none when it is ill-formed or ends too
  early. Bytes behind the last block do not count.
-/

import Notary.Bytes

namespace Notary.Archive.Deflate

/-- Bits in the order in which they are taken. -/
abbrev Bits := List Bool

/-- The bits of a byte string. -/
def bitsOf (bs : Bytes) : Bits := bs.flatMap fun b => (List.range 8).map fun i => b.toNat.testBit i

/-- A number of `n` bits, lowest first. -/
def takeNumber : Nat → Bits → Option (Nat × Bits)
  | 0, bits => some (0, bits)
  | _ + 1, [] => none
  | n + 1, b :: bits => (takeNumber n bits).map fun (v, rest) => (b.toNat + 2 * v, rest)

/-- A prefix code: for each length from one bit on, the symbols with codes of this length in
ascending order. -/
structure Code where
  levels : List (Array Nat)

namespace Code

/-- The longest code has so many bits. -/
def maxLength : Nat := 15

/-- The code in which symbol `i` has the `i`-th length; length zero stands for no code. -/
def ofLengths (lengths : List Nat) : Code where
  levels := (List.range maxLength).map fun n =>
    ((lengths.zipIdx.filter fun (l, _) => l == n + 1).map (·.2)).toArray

/-- The codes fill up the space: every string of bits starts with one. -/
def isFull (c : Code) : Bool :=
  (c.levels.zipIdx.map fun (ss, n) => ss.size * 2 ^ (maxLength - 1 - n)).sum == 2 ^ maxLength

/-- There is no symbol, or one with a code of one bit. -/
def isPoor (c : Code) : Bool :=
  let ofOneBit := (c.levels.head?.map Array.size).getD 0
  (c.levels.map Array.size).sum == min ofOneBit 1

/-- The code of so many lengths, when it fills up the space. -/
def full? (lengths : List Nat) : Option Code := some (ofLengths lengths) |>.filter isFull

/-- The code of so many lengths, when it fills up the space or is poor. -/
def fullOrPoor? (lengths : List Nat) : Option Code :=
  some (ofLengths lengths) |>.filter fun c => c.isFull || c.isPoor

/-- One symbol. The number `place` is the place of the bits so far among all strings of this length
that no shorter code begins. -/
def decodeAt : List (Array Nat) → Nat → Bits → Option (Nat × Bits)
  | level :: deeper, place, b :: bits =>
    let place := 2 * place + b.toNat
    match level[place]? with
    | some s => some (s, bits)
    | none => decodeAt deeper (place - level.size) bits
  | _, _, _ => none

def decode (c : Code) (bits : Bits) : Option (Nat × Bits) := decodeAt c.levels 0 bits

end Code

/-- The least length that a length symbol stands for, and how many bits are added to it. -/
def copyLengths : Array (Nat × Nat) :=
  #[(3, 0), (4, 0), (5, 0), (6, 0), (7, 0), (8, 0), (9, 0), (10, 0), (11, 1), (13, 1), (15, 1),
    (17, 1), (19, 2), (23, 2), (27, 2), (31, 2), (35, 3), (43, 3), (51, 3), (59, 3), (67, 4),
    (83, 4), (99, 4), (115, 4), (131, 5), (163, 5), (195, 5), (227, 5), (258, 0)]

/-- The least distance that a distance symbol stands for, and how many bits are added to it. -/
def copyDistances : Array (Nat × Nat) :=
  #[(1, 0), (2, 0), (3, 0), (4, 0), (5, 1), (7, 1), (9, 2), (13, 2), (17, 3), (25, 3), (33, 4),
    (49, 4), (65, 5), (97, 5), (129, 6), (193, 6), (257, 7), (385, 7), (513, 8), (769, 8),
    (1025, 9), (1537, 9), (2049, 10), (3073, 10), (4097, 11), (6145, 11), (8193, 12), (12289, 12),
    (16385, 13), (24577, 13)]

/-- A number given by a symbol and the bits after it. -/
def takeExtended (table : Array (Nat × Nat)) (symbol : Nat) (bits : Bits) : Option (Nat × Bits) :=
  match table[symbol]? with
  | none => none
  | some (base, extra) => (takeNumber extra bits).map fun (v, rest) => (base + v, rest)

/-- Repeats bytes from so far back; a copy may run into the bytes it makes. -/
def copyBack (distance : Nat) : Nat → Array UInt8 → Array UInt8
  | 0, out => out
  | n + 1, out =>
    let b := if out.size < distance then 0 else out.getD (out.size - distance) 0
    copyBack distance n (out.push b)

/-- The symbols of a block up to its end. Each takes a bit at least. -/
def takeSymbols (literals distances : Code) : Nat → Bits → Array UInt8 →
    Option (Array UInt8 × Bits)
  | 0, _, _ => none
  | k + 1, bits, out =>
    match literals.decode bits with
    | none => none
    | some (s, bits) =>
      if s < 256 then takeSymbols literals distances k bits (out.push (UInt8.ofNat s))
      else if s = 256 then some (out, bits)
      else
        match takeExtended copyLengths (s - 257) bits with
        | none => none
        | some (length, bits) =>
          match distances.decode bits with
          | none => none
          | some (d, bits) =>
            match takeExtended copyDistances d bits with
            | none => none
            | some (distance, bits) =>
              takeSymbols literals distances k bits (copyBack distance length out)

/-- The lengths in a block with fixed codes. -/
def fixedLiterals : List Nat :=
  List.replicate 144 8 ++ List.replicate 112 9 ++ List.replicate 24 7 ++ List.replicate 8 8

def fixedDistances : List Nat := List.replicate 32 5

/-- The order in which the lengths of the length code itself are given. -/
def lengthOrder : List Nat := [16, 17, 18, 0, 8, 7, 9, 6, 10, 5, 11, 4, 12, 3, 13, 2, 14, 1, 15]

/-- Numbers of three bits. -/
def takeThrees : Nat → Bits → Option (List Nat × Bits)
  | 0, bits => some ([], bits)
  | n + 1, bits =>
    match takeNumber 3 bits with
    | none => none
    | some (v, bits) => (takeThrees n bits).map fun (vs, rest) => (v :: vs, rest)

/-- Code lengths, newest first, until there are `total`. Three symbols repeat: the last length, or
zero a few times, or zero many times. -/
def takeLengths (code : Code) (total : Nat) : Nat → List Nat → Bits → Option (List Nat × Bits)
  | 0, _, _ => none
  | k + 1, done, bits =>
    if total < done.length then none
    else if done.length = total then some (done, bits)
    else
      let repeated (v bitCount least : Nat) (bits : Bits) : Option (List Nat × Bits) :=
        match takeNumber bitCount bits with
        | none => none
        | some (n, bits) => takeLengths code total k (List.replicate (n + least) v ++ done) bits
      match code.decode bits with
      | none => none
      | some (16, bits) =>
        match done with
        | [] => none
        | v :: _ => repeated v 2 3 bits
      | some (17, bits) => repeated 0 3 3 bits
      | some (18, bits) => repeated 0 7 11 bits
      | some (v, bits) => takeLengths code total k (v :: done) bits

/-- The most literals and lengths, and the most distances, that a block may give codes to. -/
def maxLiterals : Nat := 286

def maxDistances : Nat := 30

/-- The codes that a block describes itself. -/
def takeCodes (bits : Bits) : Option (Code × Code × Bits) := do
  let (literalCount, bits) ← takeNumber 5 bits
  let (distanceCount, bits) ← takeNumber 5 bits
  let (orderCount, bits) ← takeNumber 4 bits
  let (given, bits) ← takeThrees (orderCount + 4) bits
  let table := lengthOrder.zip given
  let code ← Code.full? ((List.range 19).map fun s => (table.lookup s).getD 0)
  let literalCount := literalCount + 257
  let distanceCount := distanceCount + 1
  guard (literalCount ≤ maxLiterals ∧ distanceCount ≤ maxDistances)
  let total := literalCount + distanceCount
  let (lengths, bits) ← takeLengths code total (total + 1) [] bits
  let lengths := lengths.reverse
  let literals ← Code.fullOrPoor? (lengths.take literalCount)
  let distances ← Code.fullOrPoor? (lengths.drop literalCount)
  return (literals, distances, bits)

/-- Whole bytes. -/
def takeStored : Nat → Bits → Array UInt8 → Option (Array UInt8 × Bits)
  | 0, bits, out => some (out, bits)
  | n + 1, bits, out =>
    match takeNumber 8 bits with
    | none => none
    | some (v, bits) => takeStored n bits (out.push (UInt8.ofNat v))

/-- One block behind its first three bits. -/
def takeBlock (kind : Nat) (bits : Bits) (out : Array UInt8) : Option (Array UInt8 × Bits) :=
  match kind with
  | 0 => do
    let (length, bits) ← takeNumber 16 (bits.drop (bits.length % 8))
    let (complement, bits) ← takeNumber 16 bits
    if length + complement = 65535 then takeStored length bits out else none
  | 1 =>
    takeSymbols (.ofLengths fixedLiterals) (.ofLengths fixedDistances) (bits.length + 1) bits out
  | 2 => do
    let (literals, distances, bits) ← takeCodes bits
    takeSymbols literals distances (bits.length + 1) bits out
  | _ => none

/-- Blocks up to the last one. Each takes three bits at least. -/
def takeBlocks : Nat → Bits → Array UInt8 → Option (Array UInt8)
  | 0, _, _ => none
  | k + 1, bits, out => do
    let (last, bits) ← takeNumber 1 bits
    let (kind, bits) ← takeNumber 2 bits
    let (out, bits) ← takeBlock kind bits out
    if last = 1 then return out else takeBlocks k bits out

/-- The bytes that compressed data stands for. There is at least one block, so that no data at all
stands for nothing. -/
def inflate (bs : Bytes) : Option Bytes :=
  (takeBlocks (8 * bs.length) (bitsOf bs) #[]).map Array.toList

end Notary.Archive.Deflate
