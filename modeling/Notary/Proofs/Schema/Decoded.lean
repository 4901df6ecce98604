/-
The type of a message that was read.

Reading fields fills a message but never makes it one of another type, so a message that was read as
a type bears the name of that type.

* `type_readKnown` — a field that is read leaves the type of its message as it is.
* `type_decode` — the same of a whole message.
-/

import Notary.Proofs.Wire.Stretch
import Notary.Schema.Reading

namespace Notary.Schema

open Notary.Wire

@[simp] theorem Message.type_put (m : Message) (f : Field) (vs : List Value) :
    (m.put f vs).type = m.type := by
  cases m with
  | mk type slots unknown =>
    simp only [put]
    split <;> rfl

@[simp] theorem Message.type_keep (m : Message) (u : Unknown) : (m.keep u).type = m.type := by
  cases m with
  | mk type slots unknown => rfl

namespace Pool

/-! ### One field -/

theorem type_readScalar {f : Field} {k : ScalarKind} {w : WireType} {m m' : Message}
    {bs rest : Bytes} (read : readScalar f k w m bs = .ok (m', rest)) : m'.type = m.type := by
  unfold readScalar at read
  split at read
  · cases read
  · split at read
    · cases read
    · cases read
      exact m.type_put f _

theorem type_readScalars {f : Field} {k : ScalarKind} {w : WireType} {m m' : Message}
    {bs rest : Bytes} (read : readScalars f k w m bs = .ok (m', rest)) : m'.type = m.type := by
  unfold readScalars at read
  dsimp only at read
  split at read
  · cases read
  · cases read
    exact m.type_put f _

theorem type_readMessage {p : Pool} {deeper : Option Reader} {f : Field} {name : String}
    {isGroup : Bool} {w : WireType} {m m' : Message} {bs rest : Bytes}
    (read : p.readMessage deeper f name isGroup w m bs = .ok (m', rest)) : m'.type = m.type := by
  unfold readMessage at read
  split at read
  · cases read
  · split at read
    · dsimp only at read
      split at read
      · cases read
      · cases read
        exact m.type_put f _
    · cases read

theorem type_readEntry {inner : Nat → WireType → Message → Bytes → Except Cause (Message × Bytes)}
    {f : Field} {type : MessageType} {m m' : Message} {bs rest : Bytes}
    (read : readEntry inner f type m bs = .ok (m', rest)) : m'.type = m.type := by
  unfold readEntry at read
  split at read
  · cases read
  · cases read
    exact m.type_put f _

theorem type_readField {p : Pool} {depth : Nat} {deeper : Option Reader} {k : Nat} {f : Field}
    {w : WireType} {m m' : Message} {bs rest : Bytes}
    (read : p.readField depth deeper k f w m bs = .ok (m', rest)) : m'.type = m.type := by
  cases k with
  | zero => cases read
  | succ k =>
    unfold readField at read
    split at read
    · exact type_readScalar read
    · exact type_readScalars read
    · split at read
      · cases read
      · exact type_readEntry read
    · exact type_readMessage read
    · exact type_readMessage read

theorem type_readKnown {p : Pool} {depth : Nat} {deeper : Option Reader} {t : MessageType}
    {number : Nat} {w : WireType} {m m' : Message} {bs rest : Bytes}
    (read : p.readKnown depth deeper t number w m bs = .ok (m', rest)) : m'.type = m.type := by
  unfold readKnown at read
  split at read
  · exact type_readField read
  · cases taken : Unknown.take depth number w bs with
    | error c => simp [taken, Except.map] at read
    | ok kept =>
      simp only [taken, Except.map, Except.ok.injEq, Prod.mk.injEq] at read
      rw [← read.1]
      exact m.type_keep kept.1

/-! ### Whole messages -/

theorem type_readKeyed {p : Pool} {depth : Nat} {t : MessageType} {m m' : Message}
    {bs rest : Bytes} (read : readKeyed (p.reader depth t) m bs = .ok (m', rest)) :
    m'.type = m.type := by
  unfold readKeyed at read
  split at read
  · cases read
  · cases depth with
    | zero => exact type_readKnown read
    | succ depth => exact type_readKnown read

/-- A message that was read as a type bears its name. -/
theorem type_decode {p : Pool} {t : MessageType} {bs : Bytes} {m : Message}
    (decoded : p.decode t bs = .ok m) : m.type = t.name := by
  unfold decode at decoded
  cases read : repeatUntil 0 (readKeyed (p.reader depthLimit t)) bs.length (.blank t.name) bs with
  | error c => simp [read, Except.map] at decoded
  | ok result =>
    simp only [read, Except.map, Except.ok.injEq] at decoded
    rw [← decoded]
    exact of_repeatUntil (P := fun m => m.type = t.name)
      (fun same here => (type_readKeyed here).trans same) rfl read

end Pool

end Notary.Schema
