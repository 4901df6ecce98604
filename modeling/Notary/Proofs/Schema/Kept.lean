/-
Unknown fields that are read back.

A field that its message type does not know is kept with all that a group holds. Its value was read,
so writing it and reading it again gives the same, as long as there is as much depth as before.

* `Unknown.Restores` — a field is read back from its bytes.
* `restores_of_take` — so is every field that was read.
* `Sorted.insert` — the kept fields stay in number order, those of one number as they came.
-/

import Notary.Proofs.Schema.Scalars
import Notary.Schema.Unknown

namespace Notary

open Wire

/-- A key has 32 bits at most, so a field number has 29. -/
theorem Wire.Key.range_of_read {n : Nat} {w : WireType} {bs rest : Bytes}
    (read : Key.read bs = .ok (n, w, rest)) : 0 < n ∧ n < 2 ^ 29 := by
  unfold Key.read at read
  split at read
  · cases read
  · split at read
    · cases read
    · split at read
      · cases read
      · split at read
        · cases read
        · cases read
          constructor <;> omega

namespace Schema.Unknown

variable {d : Nat}

/-- The field has a number that a key can have, and it is read back from its bytes. -/
structure Restores (d : Nat) (u : Unknown) : Prop where
  positive : 0 < u.number
  small : u.number < 2 ^ 29
  read_write : u.bytes.length < sizeLimit → ∃ w body, w ≠ .endGroup ∧
    u.bytes = Key.write u.number w ++ body ∧
      ∀ rest, take d u.number w (body ++ rest) = .ok (u, rest)

theorem bytes_ne_nil (u : Unknown) : u.bytes ≠ [] := by
  cases u <;> simp [bytes, Key.write, Varint.write_ne_nil]

/-! ### Groups -/

/-- What holds of every field that is read holds of the fields of a group. -/
theorem of_takeGroup {field : Nat → WireType → Bytes → Except Cause (Unknown × Bytes)}
    {P : Unknown → Prop}
    (each : ∀ {n w bs u rest}, 0 < n → n < 2 ^ 29 → field n w bs = .ok (u, rest) → P u)
    {number k : Nat} {done fs : List Unknown} {bs rest : Bytes} (before : ∀ u ∈ done, P u)
    (taken : takeGroup field number k done bs = .ok (fs, rest)) : ∀ u ∈ fs, P u := by
  induction k generalizing done bs with
  | zero => cases taken
  | succ k ih =>
    unfold takeGroup at taken
    split at taken
    · cases taken
    · split at taken
      · cases taken
        simpa using before
      · cases taken
    · rename_i n w rest' _ key
      obtain ⟨positive, small⟩ := Key.range_of_read key
      split at taken
      · cases taken
      · rename_i u rest'' here
        refine ih ?_ taken
        intro v member
        rcases List.mem_cons.mp member with rfl | old
        · exact each positive small here
        · exact before v old

/-- The fields of a group are read back one after the other, up to its end. -/
theorem takeGroup_of_restores {number : Nat} (positive : 0 < number) (small : number < 2 ^ 29)
    {fs : List Unknown} (restores : ∀ u ∈ fs, Restores d u)
    (short : (allBytes fs).length < sizeLimit) {k : Nat} (room : (allBytes fs).length < k)
    (done : List Unknown) (rest : Bytes) :
    takeGroup (take d) number k done (allBytes fs ++ (Key.write number .endGroup ++ rest)) =
      .ok (done.reverse ++ fs, rest) := by
  induction fs generalizing k done with
  | nil =>
    obtain ⟨k, rfl⟩ : ∃ j, k = j + 1 := ⟨k - 1, by simp [allBytes] at room; omega⟩
    simp only [allBytes, List.nil_append, takeGroup, Key.read_write positive small, if_true,
      List.append_nil]
  | cons u rest' ih =>
    obtain ⟨positive', small', read_write⟩ := restores u List.mem_cons_self
    have some : 0 < u.bytes.length := List.length_pos_iff.mpr u.bytes_ne_nil
    simp only [allBytes, List.length_append] at short room
    obtain ⟨k, rfl⟩ : ∃ j, k = j + 1 := ⟨k - 1, by omega⟩
    obtain ⟨w, body, inner, split, taken⟩ := read_write (by omega)
    have later := ih (fun v member => restores v (List.mem_cons_of_mem _ member)) (by omega)
      (k := k) (by omega) (u :: done)
    rw [List.reverse_cons, List.append_assoc, List.singleton_append] at later
    rw [allBytes, split, List.append_assoc, List.append_assoc, takeGroup,
      Key.read_write positive' small']
    cases w with
    | endGroup => exact absurd rfl inner
    | varint | fixed64 | delimited | startGroup | fixed32 =>
      simp only [taken]
      exact later

/-! ### Fields -/

theorem length_of_readDelimited {bs b rest : Bytes} (read : readDelimited bs = .ok (b, rest)) :
    b.length < 2 ^ 64 := by
  unfold readDelimited at read
  split at read
  · cases read
  · rename_i number
    rw [length_of_takeBytes read]
    exact Varint.lt_of_read number

/-- The value of a field that is no group. -/
theorem restores_of_take_plain {n : Nat} {w : WireType} {bs rest : Bytes} {u : Unknown}
    (positive : 0 < n) (small : n < 2 ^ 29) (plain : w ≠ .startGroup)
    (taken : take d n w bs = .ok (u, rest)) : u.number = n ∧ Restores d u := by
  cases w with
  | startGroup => exact absurd rfl plain
  | endGroup => simp [take] at taken
  | varint =>
    cases read : Varint.read bs with
    | error c => simp [take, read, Except.map] at taken
    | ok result =>
      simp only [take, read, Except.map, Except.ok.injEq, Prod.mk.injEq] at taken
      obtain ⟨rfl, rfl⟩ := taken
      refine ⟨rfl, positive, small, fun _ => ⟨.varint, Varint.write result.1, by decide, rfl, ?_⟩⟩
      intro rest
      simp only [take, number, Varint.read_write (Varint.lt_of_read read), Except.map]
  | fixed64 =>
    cases read : takeBytes 8 bs with
    | error c => simp [take, read, Except.map] at taken
    | ok result =>
      simp only [take, read, Except.map, Except.ok.injEq, Prod.mk.injEq] at taken
      obtain ⟨rfl, rfl⟩ := taken
      refine ⟨rfl, positive, small, fun _ => ⟨.fixed64, result.1, by decide, rfl, ?_⟩⟩
      intro rest
      have again := takeBytes_append result.1 rest
      rw [length_of_takeBytes read] at again
      simp only [take, number, again, Except.map]
  | fixed32 =>
    cases read : takeBytes 4 bs with
    | error c => simp [take, read, Except.map] at taken
    | ok result =>
      simp only [take, read, Except.map, Except.ok.injEq, Prod.mk.injEq] at taken
      obtain ⟨rfl, rfl⟩ := taken
      refine ⟨rfl, positive, small, fun _ => ⟨.fixed32, result.1, by decide, rfl, ?_⟩⟩
      intro rest
      have again := takeBytes_append result.1 rest
      rw [length_of_takeBytes read] at again
      simp only [take, number, again, Except.map]
  | delimited =>
    cases read : readDelimited bs with
    | error c => simp [take, read, Except.map] at taken
    | ok result =>
      simp only [take, read, Except.map, Except.ok.injEq, Prod.mk.injEq] at taken
      obtain ⟨rfl, rfl⟩ := taken
      refine ⟨rfl, positive, small, fun _ => ⟨.delimited, _, by decide, rfl, ?_⟩⟩
      intro rest
      have again := readDelimited_write (length_of_readDelimited read) rest
      simp only [take, number, again, Except.map]

/-- A field that was read is read back. The induction is on the depth that is left: the fields of a
group are read with one level less. -/
theorem restores_of_take {n : Nat} {w : WireType} {bs rest : Bytes} {u : Unknown}
    (positive : 0 < n) (small : n < 2 ^ 29) (taken : take d n w bs = .ok (u, rest)) :
    u.number = n ∧ Restores d u := by
  induction d generalizing n w bs rest u with
  | zero =>
    refine restores_of_take_plain positive small ?_ taken
    rintro rfl
    simp [take] at taken
  | succ d ih =>
    by_cases group : w = .startGroup
    · subst group
      simp only [take] at taken
      cases inner : takeGroup (take d) n (bs.length + 1) [] bs with
      | error c => simp [inner, Except.map] at taken
      | ok result =>
        simp only [inner, Except.map, Except.ok.injEq, Prod.mk.injEq] at taken
        obtain ⟨rfl, rfl⟩ := taken
        have restores : ∀ u ∈ result.1, Restores d u :=
          of_takeGroup (fun positive small here => (ih positive small here).2)
            (List.forall_mem_nil _) inner
        refine ⟨rfl, positive, small, fun short => ⟨.startGroup, _, by decide, rfl, ?_⟩⟩
        intro rest
        rw [bytes, List.length_append, List.length_append] at short
        have again := takeGroup_of_restores positive small restores (by omega)
          (k := (allBytes result.1 ++ (Key.write n .endGroup ++ rest)).length + 1)
          (by rw [List.length_append]; omega) [] rest
        rw [List.append_assoc]
        simp only [take, number, again, Except.map, List.reverse_nil, List.nil_append]
    · exact restores_of_take_plain positive small group taken

/-! ### Kept fields -/

/-- The fields stand in number order. -/
def Sorted (us : List Unknown) : Prop := us.Pairwise fun u v => u.number ≤ v.number

theorem mem_insert_iff {u v : Unknown} {us : List Unknown} :
    v ∈ u.insert us ↔ v = u ∨ v ∈ us := by
  induction us with
  | nil => simp [insert]
  | cons w rest ih =>
    unfold insert
    split
    · simp only [List.mem_cons, ih]
      exact or_left_comm
    · exact List.mem_cons

theorem Sorted.insert {us : List Unknown} (sorted : Sorted us) (u : Unknown) :
    Sorted (u.insert us) := by
  unfold Sorted at sorted
  induction sorted with
  | nil => exact List.pairwise_singleton _ u
  | @cons v rest least rises ih =>
    unfold Unknown.insert
    split
    · rename_i less
      refine .cons ?_ ih
      intro w member
      rcases mem_insert_iff.mp member with rfl | old
      · exact less
      · exact least w old
    · rename_i less
      refine .cons ?_ (.cons least rises)
      intro w member
      rcases List.mem_cons.mp member with rfl | later
      · omega
      · have more := least w later
        omega

/-- A field behind which none belongs comes last. -/
theorem insert_of_le {us : List Unknown} {u : Unknown} (last : ∀ v ∈ us, v.number ≤ u.number) :
    u.insert us = us ++ [u] := by
  induction us with
  | nil => rfl
  | cons v rest ih =>
    rw [insert, if_pos (last v List.mem_cons_self),
      ih fun w member => last w (List.mem_cons_of_mem _ member)]
    rfl

end Schema.Unknown

end Notary
