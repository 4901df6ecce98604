/-
Byte strings, little-endian numbers and byte strings of a fixed length.

A byte string is a list of bytes throughout the library, so every law about lists is a law about
byte strings. Numbers of a fixed width are written least significant byte first.

* `leValue_le` — writing a number in enough bytes and reading it back gives the number.
* `le_leValue` — reading a byte string and writing it back gives the byte string.
* `ofText_injective`, `toText?_ofText` — the UTF-8 bytes of a text determine it.
-/

-- Powers and zeros of numbers are those of the core library in every module, also where another
-- library with instances of its own is loaded beside this one.
attribute [instance (high), default_instance 20000] instPowNat
attribute [instance (high)] Zero.ofOfNat0

namespace Notary

/-- A byte string. -/
abbrev Bytes := List UInt8

namespace Bytes

/-- The number a byte string stands for, least significant byte first. -/
def leValue : Bytes → Nat
  | [] => 0
  | b :: rest => b.toNat + 256 * leValue rest

/-- The lowest `n` bytes of a number, least significant byte first. -/
def le : Nat → Nat → Bytes
  | 0, _ => []
  | n + 1, v => UInt8.ofNat v :: le n (v / 256)

@[simp] theorem length_le (n v : Nat) : (le n v).length = n := by
  induction n generalizing v with
  | zero => rfl
  | succ n ih => simp [le, ih]

theorem leValue_le {n v : Nat} (h : v < 256 ^ n) : leValue (le n v) = v := by
  induction n generalizing v with
  | zero => simp at h; simp [le, leValue, h]
  | succ n ih =>
    have hd : v / 256 < 256 ^ n := by
      rw [Nat.div_lt_iff_lt_mul (by decide)]; simpa [Nat.pow_succ] using h
    simp only [le, leValue, ih hd]
    have : (UInt8.ofNat v).toNat = v % 256 := by simp
    omega

theorem le_leValue (bs : Bytes) : le bs.length (leValue bs) = bs := by
  induction bs with
  | nil => rfl
  | cons b rest ih =>
    have hb := b.toNat_lt
    have hd : (b.toNat + 256 * leValue rest) / 256 = leValue rest := by omega
    have hm : UInt8.ofNat (b.toNat + 256 * leValue rest) = b := by
      apply UInt8.toNat_inj.1
      simp only [UInt8.toNat_ofNat']
      omega
    simp [le, leValue, hd, hm, ih]

theorem leValue_lt (bs : Bytes) : leValue bs < 256 ^ bs.length := by
  induction bs with
  | nil => simp [leValue]
  | cons b rest ih =>
    have hb := b.toNat_lt
    simp only [leValue, List.length_cons, Nat.pow_succ]
    omega

/-- The UTF-8 bytes of a text. -/
def ofText (s : String) : Bytes := s.toByteArray.data.toList

/-- The text that a byte string encodes, when it is well-formed UTF-8. -/
def toText? (bs : Bytes) : Option String := String.fromUTF8? ⟨bs.toArray⟩

@[simp] theorem toText?_ofText (s : String) : toText? (ofText s) = some s := by
  have h : (⟨(ofText s).toArray⟩ : ByteArray) = s.toByteArray := by simp [ofText]
  simp only [toText?, h, String.fromUTF8?, s.isValidUTF8, dite_true]
  rfl

theorem ofText_injective {s t : String} (h : ofText s = ofText t) : s = t := by
  simpa using congrArg toText? h

/-- Writing every item in `k` places takes `k` places an item. -/
theorem length_flatMap_of_width {α β : Type} {f : α → List β} {k : Nat}
    (h : ∀ a, (f a).length = k) (xs : List α) : (xs.flatMap f).length = xs.length * k := by
  induction xs with
  | nil => simp
  | cons a rest ih => simp [ih, h, Nat.succ_mul, Nat.add_comm]

/-- Consecutive pieces of `size` bytes; only the last one may be shorter. The budget is a number of
pieces, and the length of the byte string is always enough. -/
def pieces (size : Nat) : Nat → Bytes → List Bytes
  | 0, _ => []
  | _ + 1, [] => []
  | n + 1, bs => bs.take size :: pieces size n (bs.drop size)

end Bytes

/-- A byte string of exactly `n` bytes. -/
structure FixedBytes (n : Nat) where
  /-- The bytes, in order. -/
  toList : Bytes
  /-- There are `n` of them. -/
  length_toList : toList.length = n
deriving DecidableEq

namespace FixedBytes

variable {n : Nat}

instance : Hashable (FixedBytes n) := ⟨fun b => hash b.toList⟩

attribute [simp] length_toList

theorem ext_iff' {a b : FixedBytes n} : a = b ↔ a.toList = b.toList := by
  constructor
  · rintro rfl; rfl
  · cases a; cases b; rintro rfl; rfl

/-- The byte string as one of fixed length, when its length fits. -/
def ofBytes? (n : Nat) (bs : Bytes) : Option (FixedBytes n) :=
  if h : bs.length = n then some ⟨bs, h⟩ else none

@[simp] theorem ofBytes?_toList (b : FixedBytes n) : ofBytes? n b.toList = some b := by
  simp [ofBytes?]

theorem ofBytes?_eq_some_iff {bs : Bytes} {b : FixedBytes n} :
    ofBytes? n bs = some b ↔ b.toList = bs := by
  unfold ofBytes?
  split
  · simp [ext_iff', eq_comm]
  · rename_i h
    simp only [reduceCtorEq, false_iff]
    rintro rfl
    exact h b.length_toList

/-- The lowest `n` bytes of a number. -/
def ofNat (n v : Nat) : FixedBytes n := ⟨Bytes.le n v, Bytes.length_le n v⟩

/-- The all-zero byte string. -/
def zero : FixedBytes n := ⟨List.replicate n 0, List.length_replicate⟩

/-- Byte strings of one length are ordered like their lists of bytes. -/
def precedes (a b : FixedBytes n) : Bool := decide (a.toList ≤ b.toList)

end FixedBytes

/-- The digest that names a piece of content. -/
abbrev Hash := FixedBytes 32

/-- An Ed25519 public key: the identity of a reader, an owner or a signer. -/
abbrev PublicKey := FixedBytes 32

/-- An Ed25519 signature. -/
abbrev Signature := FixedBytes 64

namespace Hash

/-- The hash held in a message field: an empty field holds none, and neither does one of another
width. -/
def ofField? (bs : Bytes) : Option Hash :=
  if bs.isEmpty then none else FixedBytes.ofBytes? 32 bs

@[simp] theorem ofField?_toList (h : Hash) : ofField? h.toList = some h := by
  have filled : h.toList.isEmpty = false := by
    rw [List.isEmpty_eq_false_iff_exists_mem]
    exact List.exists_mem_of_length_pos (by simp)
  simp [ofField?, filled]

end Hash

end Notary
