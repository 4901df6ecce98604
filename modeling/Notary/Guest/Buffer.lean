/-
Passing byte strings to and from a guest.

Guests only see words, so a byte string crosses as the address of a buffer: its length in four
bytes, then its bytes. The guest's own allocator says where a buffer goes; buffers are never given
back, since a guest lives for one execution only.

* `Executor.writeBuffer`, `Executor.readBuffer` — a byte string into and out of guest memory.
* `Executor.call` — all arguments are written, then the function is looked up and called.
-/

import Notary.Guest.Executor

namespace Notary.Guest

/-- The export that gives out memory: a size in, an address out. -/
def allocatorName : String := "p8e_allocate"

/-- The export that takes memory back, which is never called. -/
def deallocatorName : String := "p8e_free"

/-- The export that gives the module's description. -/
def entryName : String := "__p8e_entrypoint"

/-- The bytes in front of a buffer that hold its length. -/
def lengthWidth : Nat := 4

/-- The largest size that the allocator can be asked for. -/
def maxBufferSize : Nat := 2 ^ 31 - 1

namespace Executor

variable {γ : Type} (x : Executor γ)

/-- Puts a buffer at an address that the allocator gave. The length is written before it is known
whether the bytes fit. -/
def putBuffer (g : γ) (address : UInt32) (data : Bytes) : Except Fault UInt32 × γ :=
  match x.getMemory g with
  | .error e => (.error e, g)
  | .ok memory =>
    let offset := address.toNat
    match memory.write? offset (Bytes.le lengthWidth data.length) with
    | none => (.error (.outOfBounds offset lengthWidth), g)
    | some memory =>
      match memory.write? (offset + lengthWidth) data with
      | none => (.error (.outOfBounds (offset + lengthWidth) data.length), x.putMemory g memory)
      | some memory => (.ok address, x.putMemory g memory)

/-- Asks the allocator for a buffer and puts bytes into it; the answer is its address. -/
def writeBuffer (g : γ) (data : Bytes) : Except Fault UInt32 × γ :=
  if maxBufferSize < data.length + lengthWidth then (.error (.bufferTooLarge data.length), g)
  else
    match x.callWords g allocatorName [UInt32.ofNat (data.length + lengthWidth)] with
    | (.error e, g) => (.error e, g)
    | (.ok address, g) => x.putBuffer g address data

/-- The bytes of the buffer at an address. -/
def readBuffer (g : γ) (address : UInt32) : Except Fault Bytes :=
  match x.getMemory g with
  | .error e => .error e
  | .ok memory =>
    let offset := address.toNat
    match memory.read? offset lengthWidth with
    | none => .error (.outOfBounds offset lengthWidth)
    | some bs =>
      let length := Bytes.leValue bs
      match memory.read? (offset + lengthWidth) length with
      | none => .error (.outOfBounds (offset + lengthWidth) length)
      | some bs => .ok bs

/-- Writes arguments in order; the first fault ends it. -/
def writeAll : List Bytes → γ → Except Fault (List UInt32) × γ
  | [], g => (.ok [], g)
  | data :: rest, g =>
    match x.writeBuffer g data with
    | (.error e, g) => (.error e, g)
    | (.ok address, g) =>
      match writeAll rest g with
      | (.error e, g) => (.error e, g)
      | (.ok addresses, g) => (.ok (address :: addresses), g)

/-- Calls a function with byte strings and reads the byte string that it gives. -/
def call (g : γ) (name : String) (args : List Bytes) : Except Fault Bytes × γ :=
  match x.writeAll args g with
  | (.error e, g) => (.error e, g)
  | (.ok addresses, g) =>
    match x.callWords g name addresses with
    | (.error e, g) => (.error e, g)
    | (.ok address, g) => (x.readBuffer g address, g)

end Executor

end Notary.Guest
