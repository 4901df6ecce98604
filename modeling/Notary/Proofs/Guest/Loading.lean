/-
Loading contract modules.

A byte string lies in guest memory behind its length. Whoever is given the address of the length
gets the byte string back, whatever lies around it; in this way a module hands out its description.

* `readBuffer_of_put` — a buffer among bytes that were put into a memory.
* `call_eq`, `loadContract_eq` — a call without arguments, and a module that describes itself.
* `parse_ofText` — a description that is given as text.
-/

import Notary.Guest.Contract

namespace Notary.Guest

/-! ### Buffers -/

namespace Memory

@[simp] theorem size_put (m : Memory) (offset : Nat) (bs : Bytes) :
    (m.put offset bs).size = m.size := rfl

/-- What is read of bytes that were put into a memory. -/
theorem read?_put {m : Memory} {offset start n : Nat} {bs : Bytes} (low : offset ≤ start)
    (within : start + n ≤ offset + bs.length) (fits : offset + bs.length ≤ m.size) :
    (m.put offset bs).read? start n = some ((bs.drop (start - offset)).take n) := by
  rw [read?, if_pos (by rw [size_put]; omega)]
  congr 1
  apply List.ext_getElem
  · simp
    omega
  · intro i inside inside'
    have index : i < n := by simpa using inside
    have place : start + i - offset = start - offset + i := by omega
    simp [cell, put, getD_putAll, show offset ≤ start + i by omega, place,
      show start - offset + i < bs.length by omega]

end Memory

/-- A byte string behind its length. -/
def buffer (data : Bytes) : Bytes := Bytes.le lengthWidth data.length ++ data

namespace Executor

variable {γ : Type} {x : Executor γ}

theorem getMemory_eq_ok_iff {g : γ} {m : Memory} :
    x.getMemory g = .ok m ↔ x.memory? g = some m := by
  unfold getMemory
  cases x.memory? g <;> simp

/-- A buffer among bytes that were put into a memory is read as what it holds. -/
theorem readBuffer_of_put {g : γ} {m : Memory} {offset : Nat} {before data after : Bytes}
    (exported : x.memory? g = some (m.put offset (before ++ (buffer data ++ after))))
    (fits : offset + (before ++ (buffer data ++ after)).length ≤ m.size)
    (short : data.length < 2 ^ 32) {address : UInt32}
    (here : address.toNat = offset + before.length) : x.readBuffer g address = .ok data := by
  have size : (before ++ (buffer data ++ after)).length =
      before.length + (lengthWidth + data.length + after.length) := by
    simp [buffer]
    omega
  have length : (m.put offset (before ++ (buffer data ++ after))).read? address.toNat lengthWidth =
      some (Bytes.le lengthWidth data.length) := by
    rw [Memory.read?_put (by omega) (by omega) fits, here]
    simp [buffer]
  have content : (m.put offset (before ++ (buffer data ++ after))).read?
      (address.toNat + lengthWidth) data.length = some data := by
    rw [Memory.read?_put (by omega) (by omega) fits, here]
    have skipped : offset + before.length + lengthWidth - offset = before.length + lengthWidth := by
      omega
    rw [skipped, ← List.drop_drop]
    simp [buffer]
  have told : Bytes.leValue (Bytes.le lengthWidth data.length) = data.length :=
    Bytes.leValue_le (by simpa [lengthWidth] using short)
  simp only [readBuffer, getMemory_eq_ok_iff.mpr exported, length, told, content]

/-- A call without arguments gives what lies at the address that the function gives. -/
theorem call_eq {g g' : γ} {name : String} {address : UInt32} {data : Bytes}
    (words : x.callWords g name [] = (.ok address, g'))
    (read : x.readBuffer g' address = .ok data) : x.call g name [] = (.ok data, g') := by
  simp only [call, writeAll, words, read]

/-! ### Descriptions -/

theorem loadContract_eq {code answer : Bytes} {g g' : γ} {m : Metadata.ContractMetadata}
    (started : x.start code = .ok g) (called : x.call g entryName [] = (.ok answer, g'))
    (parsed : Metadata.ContractMetadata.parse answer = .ok m) :
    x.loadContract code = .ok (g', m) := by
  have guest : x.instantiate code = .ok g := by
    rw [instantiate, started]
    rfl
  simp only [loadContract, guest, called, parsed]

end Executor

end Notary.Guest

namespace Notary.Metadata

/-- A text that is read as a description to its end stands for its metadata. -/
theorem ContractMetadata.parse_ofText {cs : List Char} {d : Description}
    (read : descriptionShape.read cs = .ok (d, [])) :
    parse (Bytes.ofText (String.ofList cs)) = (ofDescription d).mapError .duplicateFunction := by
  have text : Text.Utf8.decode (Bytes.ofText (String.ofList cs)) = .ok (String.ofList cs) := by
    simp [Text.Utf8.decode]
  simp [parse, text, ofText, Json.document, read, Json.blank]

end Notary.Metadata
