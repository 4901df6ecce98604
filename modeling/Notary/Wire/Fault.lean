/-
What can be wrong with the bytes of a message.

* `WireType` — the six ways in which a field's value is laid out.
* `Cause`, `Fault` — why reading stopped, and in which field of which message.
-/

namespace Notary.Wire

/-- The layout of a field's value. -/
inductive WireType where
  | varint
  | fixed64
  | delimited
  | startGroup
  | endGroup
  | fixed32
deriving DecidableEq, Repr

namespace WireType

/-- The number of a layout, which is the lowest three bits of a key. -/
def number : WireType → Nat
  | .varint => 0
  | .fixed64 => 1
  | .delimited => 2
  | .startGroup => 3
  | .endGroup => 4
  | .fixed32 => 5

def ofNumber? : Nat → Option WireType
  | 0 => some .varint
  | 1 => some .fixed64
  | 2 => some .delimited
  | 3 => some .startGroup
  | 4 => some .endGroup
  | 5 => some .fixed32
  | _ => none

@[simp] theorem ofNumber?_number (w : WireType) : ofNumber? w.number = some w := by
  cases w <;> rfl

theorem number_lt (w : WireType) : w.number < 8 := by cases w <;> decide

def name : WireType → String
  | .varint => "Varint"
  | .fixed64 => "SixtyFourBit"
  | .delimited => "LengthDelimited"
  | .startGroup => "StartGroup"
  | .endGroup => "EndGroup"
  | .fixed32 => "ThirtyTwoBit"

end WireType

/-- Why reading stopped. -/
inductive Cause where
  | invalidVarint
  | invalidKey (key : Nat)
  | unknownWireType (number : Nat)
  | zeroTag
  | wireType (actual expected : WireType)
  | underflow
  | lengthExceeded
  | notUtf8
  | unexpectedEndGroup
  | depthLimit
deriving DecidableEq, Repr

def Cause.message : Cause → String
  | .invalidVarint => "invalid varint"
  | .invalidKey key => s!"invalid key value: {key}"
  | .unknownWireType number => s!"invalid wire type value: {number}"
  | .zeroTag => "invalid tag value: 0"
  | .wireType actual expected =>
    s!"invalid wire type: {actual.name} (expected {expected.name})"
  | .underflow => "buffer underflow"
  | .lengthExceeded => "delimited length exceeded"
  | .notUtf8 => "invalid string value: data is not UTF-8 encoded"
  | .unexpectedEndGroup => "unexpected end group tag"
  | .depthLimit => "recursion limit reached"

/-- A cause together with the fields it happened in, innermost first. -/
structure Fault where
  path : List (String × String)
  cause : Cause
deriving DecidableEq, Repr

namespace Fault

/-- A fault outside every known field. -/
def ofCause (c : Cause) : Fault := ⟨[], c⟩

/-- The fault as seen from the message around it. -/
def inField (f : Fault) (message field : String) : Fault :=
  { f with path := f.path ++ [(message, field)] }

def message (f : Fault) : String :=
  "failed to decode Protobuf message: "
    ++ String.join (f.path.map fun (m, n) => s!"{m}.{n}: ") ++ f.cause.message

end Fault

end Notary.Wire
