/-
The BLAKE3 digest.

The input is cut into chunks of 1024 bytes, a chunk into blocks of 64 bytes. The blocks of a chunk
are compressed one after the other into a chaining value; chaining values are then joined in pairs,
level by level, until one node is left. A node without a partner goes up unchanged, which makes the
left part of every join the largest complete tree that fits. The digest is the root node compressed
once more with the root flag.

* `digest` — the 32-byte digest of a byte string.
-/

import Notary.Bytes

namespace Notary.Digest.Blake3

/-- Eight words that stand for all the input below a node. -/
abbrev Chain := Vector UInt32 8

/-- The sixteen words of a block. -/
abbrev Block := Vector UInt32 16

/-- The initial chaining value. -/
def initial : Chain :=
  #v[0x6A09E667, 0xBB67AE85, 0x3C6EF372, 0xA54FF53A, 0x510E527F, 0x9B05688C, 0x1F83D9AB, 0x5BE0CD19]

/-- The block is the first of its chunk. -/
def chunkStart : UInt32 := 1

/-- The block is the last of its chunk. -/
def chunkEnd : UInt32 := 2

/-- The block joins two chaining values. -/
def parent : UInt32 := 4

/-- The compression gives the digest. -/
def root : UInt32 := 8

/-- The bits of a word moved right, those that fall out coming back on the left. -/
def rotateRight (w : UInt32) (n : UInt32) : UInt32 := (w >>> n) ||| (w <<< (32 - n))

/-- Mixes two message words into four words of the state. -/
def quarter (s : Block) (a b c d : Fin 16) (x y : UInt32) : Block :=
  let s := s.set a (s[a] + s[b] + x)
  let s := s.set d (rotateRight (s[d] ^^^ s[a]) 16)
  let s := s.set c (s[c] + s[d])
  let s := s.set b (rotateRight (s[b] ^^^ s[c]) 12)
  let s := s.set a (s[a] + s[b] + y)
  let s := s.set d (rotateRight (s[d] ^^^ s[a]) 8)
  let s := s.set c (s[c] + s[d])
  s.set b (rotateRight (s[b] ^^^ s[c]) 7)

/-- One round: the columns of the state, then its diagonals. -/
def round (s m : Block) : Block :=
  let s := quarter s 0 4 8 12 m[0] m[1]
  let s := quarter s 1 5 9 13 m[2] m[3]
  let s := quarter s 2 6 10 14 m[4] m[5]
  let s := quarter s 3 7 11 15 m[6] m[7]
  let s := quarter s 0 5 10 15 m[8] m[9]
  let s := quarter s 1 6 11 12 m[10] m[11]
  let s := quarter s 2 7 8 13 m[12] m[13]
  quarter s 3 4 9 14 m[14] m[15]

/-- The order in which the next round takes the message words. -/
def permute (m : Block) : Block :=
  #v[m[2], m[6], m[3], m[10], m[7], m[0], m[4], m[13],
     m[1], m[11], m[12], m[5], m[9], m[14], m[15], m[8]]

/-- The given number of rounds. -/
def rounds : Nat → Block → Block → Block
  | 0, s, _ => s
  | n + 1, s, m => rounds n (round s m) (permute m)

/-- What a compression reads: the chaining value so far, a block, the chunk's number, how many bytes
of the block count, and the flags. -/
structure Node where
  chain : Chain
  block : Block
  counter : Nat
  length : Nat
  flags : UInt32

/-- The chaining value of a node. -/
def Node.compress (n : Node) : Chain :=
  let h := n.chain
  let s : Block :=
    #v[h[0], h[1], h[2], h[3], h[4], h[5], h[6], h[7],
       initial[0], initial[1], initial[2], initial[3],
       UInt32.ofNat n.counter, UInt32.ofNat (n.counter / 2 ^ 32), UInt32.ofNat n.length, n.flags]
  let s := rounds 7 s n.block
  #v[s[0] ^^^ s[8], s[1] ^^^ s[9], s[2] ^^^ s[10], s[3] ^^^ s[11],
     s[4] ^^^ s[12], s[5] ^^^ s[13], s[6] ^^^ s[14], s[7] ^^^ s[15]]

/-- A word from four bytes, least significant first. -/
def word (a b c d : UInt8) : UInt32 :=
  a.toUInt32 ||| (b.toUInt32 <<< 8) ||| (c.toUInt32 <<< 16) ||| (d.toUInt32 <<< 24)

/-- The words of a byte string, the last one filled up with zeros. -/
def words : Bytes → List UInt32
  | a :: b :: c :: d :: rest => word a b c d :: words rest
  | [a, b, c] => [word a b c 0]
  | [a, b] => [word a b 0 0]
  | [a] => [word a 0 0 0]
  | [] => []

/-- A block from up to 64 bytes, filled up with zeros. -/
def blockOf (bs : Bytes) : Block :=
  let ws := (words bs).toArray
  Vector.ofFn fun i => ws[i.val]?.getD 0

/-- The node of a chunk: all blocks but the last are compressed into the chaining value. -/
def chunkNode (counter : Nat) : Chain → UInt32 → List Bytes → Node
  | c, f, [] => ⟨c, blockOf [], counter, 0, f ||| chunkEnd⟩
  | c, f, [b] => ⟨c, blockOf b, counter, b.length, f ||| chunkEnd⟩
  | c, f, b :: rest =>
    chunkNode counter (Node.compress ⟨c, blockOf b, counter, 64, f⟩) 0 rest

/-- The node over two nodes. -/
def join (l r : Node) : Node :=
  let a := l.compress
  let b := r.compress
  ⟨initial, (a ++ b).cast rfl, 0, 64, parent⟩

/-- One level up: neighbours are joined, a node without a partner stays. -/
def level : List Node → List Node
  | l :: r :: rest => join l r :: level rest
  | rest => rest

/-- The node over all nodes. As many levels as there are nodes are always enough. -/
def top : Nat → Node → List Node → Node
  | 0, n, _ => n
  | _ + 1, n, [] => n
  | k + 1, n, rest =>
    match level (n :: rest) with
    | [] => n
    | n' :: rest' => top k n' rest'

/-- The nodes of the chunks after the first. -/
def chunkNodes : Nat → List Bytes → List Node
  | _, [] => []
  | i, c :: rest =>
    chunkNode i initial chunkStart (Bytes.pieces 64 c.length c) :: chunkNodes (i + 1) rest

/-- The node over a whole byte string. The empty byte string is one empty chunk. -/
def nodeOf (bs : Bytes) : Node :=
  match chunkNodes 0 (Bytes.pieces 1024 bs.length bs) with
  | [] => chunkNode 0 initial chunkStart []
  | n :: rest => top rest.length n rest

/-- The bytes of a chaining value. -/
def chainBytes (c : Chain) : Bytes := c.toList.flatMap fun w => Bytes.le 4 w.toNat

theorem length_chainBytes (c : Chain) : (chainBytes c).length = 32 := by
  rw [chainBytes, Bytes.length_flatMap_of_width (k := 4) (fun w => by simp)]
  simp

/-- The BLAKE3 digest of a byte string. -/
def digest (bs : Bytes) : Hash :=
  let n := nodeOf bs
  let c := ({ n with flags := n.flags ||| root } : Node).compress
  ⟨chainBytes c, length_chainBytes c⟩

end Notary.Digest.Blake3
