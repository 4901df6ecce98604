/-
Where buffers may lie.

A guest gives addresses as signed words, and it chooses the length that stands in front of a buffer.
Both are taken without a sign, so their sum can be larger than a word; it is made in words of twice
the width, where it is exact. A buffer is read or written exactly when its end is not behind the end
of the memory.

* `addressOf` — the address that a signed word stands for.
* `Memory.lengthAt` — the length that stands at an address.
* `readBuffer_eq`, `putBuffer_fst` — what reading and writing answer, by where the buffer ends.
* `Executor.Bounded`, `bounded_exactly` — both together, with the sums that are made.
-/

import Notary.Guest.Instance
import Notary.Proofs.Guest.Loading

namespace Notary.Guest

/-! ### Addresses and lengths -/

/-- The address that a signed word stands for: the word without its sign. -/
def addressOf (p : Int32) : Nat := (p.toInt % 2 ^ 32).toNat

theorem toNat_toUInt32 (p : Int32) : p.toUInt32.toNat = addressOf p := by
  have signed : p.toInt = (p.toUInt32.toNat : Int).bmod (2 ^ 32) :=
    BitVec.toInt_eq_toNat_bmod p.toBitVec
  have small := p.toUInt32.toNat_lt
  have word : p.toInt % 2 ^ 32 = (p.toUInt32.toNat : Int) % 2 ^ 32 := by
    rw [signed]
    exact Int.bmod_emod
  rw [addressOf, word]
  omega

theorem addressOf_lt (p : Int32) : addressOf p < 2 ^ 32 :=
  toNat_toUInt32 p ▸ p.toUInt32.toNat_lt

namespace Memory

/-- The number that the four bytes at an address stand for, the lowest byte first. -/
def lengthAt (m : Memory) (a : Nat) : Nat :=
  (m.cell a).toNat + 2 ^ 8 * (m.cell (a + 1)).toNat + 2 ^ 16 * (m.cell (a + 2)).toNat +
    2 ^ 24 * (m.cell (a + 3)).toNat

theorem lengthAt_lt (m : Memory) (a : Nat) : m.lengthAt a < 2 ^ 32 := by
  have b0 := (m.cell a).toNat_lt
  have b1 := (m.cell (a + 1)).toNat_lt
  have b2 := (m.cell (a + 2)).toNat_lt
  have b3 := (m.cell (a + 3)).toNat_lt
  unfold lengthAt
  omega

/-- The bytes of a stretch. -/
def stretch (m : Memory) (a n : Nat) : Bytes := (List.range n).map fun i => m.cell (a + i)

@[simp] theorem length_stretch (m : Memory) (a n : Nat) : (m.stretch a n).length = n := by
  simp [stretch]

theorem getElem?_stretch (m : Memory) (a : Nat) {n i : Nat} (inside : i < n) :
    (m.stretch a n)[i]? = some (m.cell (a + i)) := by
  simp [stretch, inside]

/-- A byte string is a stretch when it has its length and its bytes. -/
theorem eq_stretch_iff {m : Memory} {a n : Nat} {bs : Bytes} :
    bs = m.stretch a n ↔ bs.length = n ∧ ∀ i < n, bs[i]? = some (m.cell (a + i)) := by
  constructor
  · rintro rfl
    exact ⟨length_stretch m a n, fun i inside => getElem?_stretch m a inside⟩
  · rintro ⟨rfl, bytes⟩
    refine List.ext_getElem? fun i => ?_
    by_cases inside : i < bs.length
    · rw [bytes i inside, getElem?_stretch m a inside]
    · rw [List.getElem?_eq_none (by omega), List.getElem?_eq_none (by simpa using inside)]

theorem read?_of_le {m : Memory} {a n : Nat} (fits : a + n ≤ m.size) :
    m.read? a n = some (m.stretch a n) := if_pos fits

theorem read?_of_lt {m : Memory} {a n : Nat} (outside : m.size < a + n) : m.read? a n = none :=
  if_neg (Nat.not_le.mpr outside)

theorem write?_of_le {m : Memory} {a : Nat} {bs : Bytes} (fits : a + bs.length ≤ m.size) :
    m.write? a bs = some (m.put a bs) := if_pos fits

theorem write?_of_lt {m : Memory} {a : Nat} {bs : Bytes} (outside : m.size < a + bs.length) :
    m.write? a bs = none := if_neg (Nat.not_le.mpr outside)

theorem putAll_append (bs later : Bytes) (a : Nat) (cells : Std.HashMap Nat UInt8) :
    putAll (bs ++ later) a cells = putAll later (a + bs.length) (putAll bs a cells) := by
  induction bs generalizing a cells with
  | nil => rfl
  | cons b rest ih =>
    simp only [List.cons_append, putAll, ih, List.length_cons, Nat.add_comm, Nat.add_left_comm]

theorem leValue_stretch (m : Memory) (a : Nat) :
    Bytes.leValue (m.stretch a lengthWidth) = m.lengthAt a := by
  simp only [stretch, lengthWidth, List.range_succ, List.range_zero, List.nil_append,
    List.cons_append, List.map_cons, List.map_nil, Bytes.leValue, lengthAt, Nat.add_zero]
  omega

end Memory

/-! ### Reading and writing -/

namespace Executor

variable {γ : Type} {x : Executor γ} {g : γ} {m : Memory}

/-- A buffer is read when its length and then its bytes lie in the memory; otherwise the first of
the two that does not is told. -/
theorem readBuffer_eq (exported : x.memory? g = some m) (address : UInt32) :
    x.readBuffer g address =
      if m.size < address.toNat + lengthWidth then .error (.outOfBounds address.toNat lengthWidth)
      else if m.size < address.toNat + lengthWidth + m.lengthAt address.toNat then
        .error (.outOfBounds (address.toNat + lengthWidth) (m.lengthAt address.toNat))
      else .ok (m.stretch (address.toNat + lengthWidth) (m.lengthAt address.toNat)) := by
  have got := getMemory_eq_ok_iff.mpr exported
  by_cases told : m.size < address.toNat + lengthWidth
  · simp only [readBuffer, got, Memory.read?_of_lt told, if_pos told]
  · have length := Memory.read?_of_le (Nat.not_lt.mp told)
    rw [if_neg told]
    by_cases fits : m.size < address.toNat + lengthWidth + m.lengthAt address.toNat
    · rw [if_pos fits]
      simp only [readBuffer, got, length, Memory.leValue_stretch, Memory.read?_of_lt fits]
    · rw [if_neg fits]
      simp only [readBuffer, got, length, Memory.leValue_stretch,
        Memory.read?_of_le (Nat.not_lt.mp fits)]

/-- A buffer that fits is put where it should be, and nothing else changes. -/
theorem putBuffer_of_fits (exported : x.memory? g = some m) {address : UInt32} {data : Bytes}
    (fits : address.toNat + lengthWidth + data.length ≤ m.size) :
    x.putBuffer g address data =
      (.ok address, x.putMemory g (m.put address.toNat (buffer data))) := by
  have length : m.write? address.toNat (Bytes.le lengthWidth data.length) =
      some (m.put address.toNat (Bytes.le lengthWidth data.length)) :=
    Memory.write?_of_le (by rw [Bytes.length_le]; omega)
  have bytes : (m.put address.toNat (Bytes.le lengthWidth data.length)).write?
      (address.toNat + lengthWidth) data =
        some ((m.put address.toNat (Bytes.le lengthWidth data.length)).put
          (address.toNat + lengthWidth) data) :=
    Memory.write?_of_le (by rwa [Memory.size_put])
  have both : (m.put address.toNat (Bytes.le lengthWidth data.length)).put
      (address.toNat + lengthWidth) data = m.put address.toNat (buffer data) := by
    simp [Memory.put, buffer, Memory.putAll_append]
  simp only [putBuffer, getMemory_eq_ok_iff.mpr exported, length, bytes, both]

/-- A buffer is put at an address when its length and then its bytes fit into the memory; otherwise
the first of the two that does not is told. -/
theorem putBuffer_fst (exported : x.memory? g = some m) (address : UInt32) (data : Bytes) :
    (x.putBuffer g address data).1 =
      if m.size < address.toNat + lengthWidth then .error (.outOfBounds address.toNat lengthWidth)
      else if m.size < address.toNat + lengthWidth + data.length then
        .error (.outOfBounds (address.toNat + lengthWidth) data.length)
      else .ok address := by
  have got := getMemory_eq_ok_iff.mpr exported
  by_cases told : m.size < address.toNat + lengthWidth
  · have none : m.write? address.toNat (Bytes.le lengthWidth data.length) = none :=
      Memory.write?_of_lt (by rwa [Bytes.length_le])
    simp only [putBuffer, got, none, if_pos told]
  · rw [if_neg told]
    by_cases fits : m.size < address.toNat + lengthWidth + data.length
    · have length : m.write? address.toNat (Bytes.le lengthWidth data.length) =
          some (m.put address.toNat (Bytes.le lengthWidth data.length)) :=
        Memory.write?_of_le (by rw [Bytes.length_le]; omega)
      have none : (m.put address.toNat (Bytes.le lengthWidth data.length)).write?
          (address.toNat + lengthWidth) data = none :=
        Memory.write?_of_lt (by rwa [Memory.size_put])
      rw [if_pos fits]
      simp only [putBuffer, got, length, none]
    · rw [putBuffer_of_fits exported (Nat.not_lt.mp fits), if_neg fits]

/-- What the allocator is asked for, when the buffer is not too large, is a buffer that is put where
it says. -/
theorem writeBuffer_eq {before : γ} {data : Bytes} {address : UInt32}
    (short : data.length ≤ 2 ^ 31 - 5)
    (given : x.callWords before allocatorName [UInt32.ofNat (data.length + lengthWidth)] =
      (.ok address, g)) : x.writeBuffer before data = x.putBuffer g address data := by
  have fits : ¬ maxBufferSize < data.length + lengthWidth := by
    unfold maxBufferSize lengthWidth
    omega
  simp only [writeBuffer, if_neg fits, given]

/-- The allocator is asked for room for a byte string, which is not too large, and answers with an
address. This is the guest that it leaves. -/
structure Offers (x : Executor γ) (before : γ) (data : Bytes) (p : Int32) (g : γ) : Prop where
  short : data.length ≤ 2 ^ 31 - 5
  answered : x.callWords before allocatorName [UInt32.ofNat (data.length + 4)] = (.ok p.toUInt32, g)

/-- Buffers at an address are read and written exactly when the memory holds all of them. -/
structure Bounded (x : Executor γ) (g : γ) (m : Memory) (p : Int32) : Prop where
  /-- What is read are the bytes behind the length, as many as it says. -/
  read_iff : ∀ bs, x.readBuffer g p.toUInt32 = .ok bs ↔
    addressOf p + 4 ≤ m.size ∧ addressOf p + 4 + m.lengthAt (addressOf p) ≤ m.size ∧
      bs.length = m.lengthAt (addressOf p) ∧
      ∀ i < m.lengthAt (addressOf p), bs[i]? = some (m.cell (addressOf p + 4 + i))
  /-- The length does not fit. -/
  read_length : m.size < addressOf p + 4 →
    x.readBuffer g p.toUInt32 = .error (.outOfBounds (addressOf p) 4)
  /-- Only the bytes behind it do not. -/
  read_bytes : addressOf p + 4 ≤ m.size → m.size < addressOf p + 4 + m.lengthAt (addressOf p) →
    x.readBuffer g p.toUInt32 =
      .error (.outOfBounds (addressOf p + 4) (m.lengthAt (addressOf p)))
  /-- The same for a buffer that is written where the allocator says. -/
  write_iff : ∀ before data, x.Offers before data p g →
    ((x.writeBuffer before data).1 = .ok p.toUInt32 ↔ addressOf p + 4 + data.length ≤ m.size)
  write_length : ∀ before data, x.Offers before data p g → m.size < addressOf p + 4 →
    (x.writeBuffer before data).1 = .error (.outOfBounds (addressOf p) 4)
  write_bytes : ∀ before data, x.Offers before data p g → addressOf p + 4 ≤ m.size →
    m.size < addressOf p + 4 + data.length →
      (x.writeBuffer before data).1 = .error (.outOfBounds (addressOf p + 4) data.length)
  /-- In words of 64 bits no sum wraps around, neither for a length that the guest chose nor for
  that of a byte string that is written. -/
  sums : ∀ length : Nat, length = m.lengthAt (addressOf p) ∨ length ≤ 2 ^ 31 - 5 →
    (p.toUInt32.toUInt64 + 4).toNat = addressOf p + 4 ∧
      (p.toUInt32.toUInt64 + 4 + UInt64.ofNat length).toNat = addressOf p + 4 + length

/-- The bounds of buffers are exact, for every memory and every word that a guest can give. -/
theorem bounded_exactly (exported : x.memory? g = some m) (p : Int32) : x.Bounded g m p := by
  have read := readBuffer_eq exported p.toUInt32
  have put := putBuffer_fst exported p.toUInt32
  have asked : ∀ before data, x.Offers before data p g →
      x.writeBuffer before data = x.putBuffer g p.toUInt32 data :=
    fun before data offers => writeBuffer_eq offers.short offers.answered
  simp only [toNat_toUInt32, lengthWidth] at read put
  refine
    { read_iff := ?_
      read_length := ?_
      read_bytes := ?_
      write_iff := ?_
      write_length := ?_
      write_bytes := ?_
      sums := ?_ }
  · intro bs
    rw [read, ← Memory.eq_stretch_iff]
    split
    · simp only [reduceCtorEq, false_iff]
      omega
    · split
      · simp only [reduceCtorEq, false_iff]
        omega
      · rw [Except.ok.injEq, eq_comm]
        exact ⟨fun same => ⟨by omega, by omega, same⟩, fun fits => fits.2.2⟩
  · intro outside
    rw [read, if_pos outside]
  · intro told outside
    rw [read, if_neg (by omega), if_pos outside]
  · intro before data offers
    rw [asked before data offers, put]
    split
    · simp only [reduceCtorEq, false_iff]
      omega
    · split
      · simp only [reduceCtorEq, false_iff]
        omega
      · simp only [true_iff]
        omega
  · intro before data offers outside
    rw [asked before data offers, put, if_pos outside]
  · intro before data offers told outside
    rw [asked before data offers, put, if_neg (by omega), if_pos outside]
  · intro length chosen
    have address := addressOf_lt p
    have told := m.lengthAt_lt (addressOf p)
    have small : length < 2 ^ 32 := by omega
    simp only [UInt64.toNat_add, UInt32.toNat_toUInt64, toNat_toUInt32, UInt64.toNat_ofNat']
    have four : (4 : UInt64).toNat = 4 := rfl
    omega

end Executor

namespace Brim

/-- A memory of all addresses that there are, with the largest length eight bytes before its end. -/
def memory : Memory := Memory.put { pages := 65536, limit := 65536 } 4294967288 [255, 255, 255, 255]

/-- An allocator that always offers the address of that length. -/
def allocator : Function := ⟨⟨[.i32], [.i32]⟩, [], [.const32 4294967288]⟩

def guest : Instance where
  functions := [allocator]
  exports := [⟨memoryName, .memory, 0⟩, ⟨allocatorName, .function, 0⟩]
  state := ⟨memory, []⟩

theorem offers {data : Bytes} (short : data.length ≤ 2 ^ 31 - 5) :
    interpreter.Offers guest data (-8) guest :=
  ⟨short, rfl⟩

theorem lengthAt_memory : memory.lengthAt 4294967288 = 4294967295 := by
  simp [Memory.lengthAt, memory, Memory.cell, Memory.put, Memory.getD_putAll]

end Brim

open Brim in
/-- At the end of the largest memory there is, a length that a guest made up is refused where a sum
of words would wrap around, four bytes are written and five are not. -/
theorem bounded_at_the_brim :
    interpreter.memory? guest = some memory ∧ addressOf (-8) = 4294967288 ∧
      memory.size = 4294967296 ∧
      interpreter.readBuffer guest (-8 : Int32).toUInt32 =
        .error (.outOfBounds 4294967292 4294967295) ∧
      (interpreter.writeBuffer guest [1, 2, 3, 4]).1 = .ok (-8 : Int32).toUInt32 ∧
      (interpreter.writeBuffer guest [1, 2, 3, 4, 5]).1 = .error (.outOfBounds 4294967292 5) := by
  have exported : interpreter.memory? guest = some memory := rfl
  have bounded := Executor.bounded_exactly exported (-8)
  have address : addressOf (-8) = 4294967288 := by decide
  have size : memory.size = 4294967296 := rfl
  have told : memory.lengthAt (addressOf (-8)) = 4294967295 := address ▸ lengthAt_memory
  refine ⟨exported, address, size, ?_, ?_, ?_⟩
  · have refused := bounded.read_bytes
    rw [told, address, size] at refused
    exact refused (by decide) (by decide)
  · have accepted := bounded.write_iff guest [1, 2, 3, 4] (offers (by decide))
    rw [address, size] at accepted
    exact accepted.mpr (by decide)
  · have refused := bounded.write_bytes guest [1, 2, 3, 4, 5] (offers (by decide))
    rw [address, size] at refused
    exact refused (by decide) (by decide)

end Notary.Guest
