/-
Byte strings that are handed to a guest in one.

A frame tells its length in four bytes, which is enough for any byte string that a guest takes: its
allocator is asked by a signed word, so what does not fit into one is refused before. Within that
size a byte string is made of frames in one way only, or in none.

* `Passes`, `passes_iff` — no guest refuses the byte string for its size.
* `splitUpTo_join`, `join_of_splitUpTo` — joining and splitting undo each other.
* `Unambiguous`, `unambiguous_of_passes` — what can be told from an argument.
* `frames_at_both_ends` — empty frames around one that looks like a length.
-/

import Notary.Engine.Record
import Notary.Proofs.Guest.Bounds

namespace Notary.Guest.Executor

variable {γ : Type} (x : Executor γ)

/-! ### Sizes that guests take -/

/-- A call of an export is not refused for the size of a buffer. -/
theorem callWords_ne_bufferTooLarge (g : γ) (name : String) (words : List UInt32)
    (length : Nat) : (x.callWords g name words).1 ≠ .error (.bufferTooLarge length) := by
  unfold callWords
  split
  · simp
  · split
    · split <;> simp
    · simp

/-- A buffer that was given out is not refused for its size either. -/
theorem putBuffer_ne_bufferTooLarge (g : γ) (address : UInt32) (data : Bytes)
    (length : Nat) : (x.putBuffer g address data).1 ≠ .error (.bufferTooLarge length) := by
  cases memory : x.getMemory g with
  | error e =>
    have missing : e = .missingExport memoryName := by
      unfold getMemory at memory
      split at memory <;> cases memory
      rfl
    rw [putBuffer, memory, missing]
    exact fun same => by cases same
  | ok m =>
    rw [putBuffer_fst (getMemory_eq_ok_iff.mp memory)]
    split
    · exact fun same => by cases same
    · split <;> exact fun same => by cases same

end Notary.Guest.Executor

namespace Notary.Engine.Frames

/-- No guest refuses the byte string because it is too large. -/
def Passes (data : Bytes) : Prop :=
  ∀ (γ : Type) (x : Guest.Executor γ) (g : γ) (length : Nat),
    (x.writeBuffer g data).1 ≠ .error (.bufferTooLarge length)

/-- What passes has a size that is a signed word, with the length in front. -/
theorem passes_iff {data : Bytes} : Passes data ↔ data.length + 4 ≤ 2 ^ 31 - 1 := by
  have large : Guest.maxBufferSize < data.length + Guest.lengthWidth ↔
      2 ^ 31 - 1 < data.length + 4 := by
    rw [Guest.maxBufferSize, Guest.lengthWidth]
  constructor
  · intro passes
    refine Nat.le_of_not_lt fun outside => ?_
    refine passes _ Guest.interpreter ⟨[], [], ⟨{ pages := 0, limit := 0 }, []⟩⟩ data.length ?_
    rw [Guest.Executor.writeBuffer, if_pos (large.mpr outside)]
  · intro small γ x g length
    rw [Guest.Executor.writeBuffer, if_neg (mt large.mp (Nat.not_lt.mpr small))]
    have called := x.callWords_ne_bufferTooLarge g Guest.allocatorName
      [UInt32.ofNat (data.length + Guest.lengthWidth)] length
    split
    · rename_i answer
      rwa [answer] at called
    · exact x.putBuffer_ne_bufferTooLarge _ _ data length

/-! ### Joining and splitting -/

theorem length_frame (bs : Bytes) : (frame bs).length = 4 + bs.length := by
  simp [frame, lengthWidth]

theorem length_le_join {frames : List Bytes} {f : Bytes} (member : f ∈ frames) :
    f.length ≤ (join frames).length := by
  obtain ⟨before, after, rfl⟩ := List.append_of_mem member
  simp only [join, List.flatMap_append, List.flatMap_cons, List.length_append, length_frame]
  omega

/-- Four bytes hold the length of anything below four gigabytes. -/
theorem leValue_length {f : Bytes} (short : f.length < 2 ^ 32) :
    Bytes.leValue (Bytes.le lengthWidth f.length) = f.length :=
  Bytes.leValue_le short

/-- One frame is taken off the front. -/
theorem splitUpTo_frame (k : Nat) {f : Bytes} (short : f.length < 2 ^ 32) (rest : Bytes) :
    splitUpTo (k + 1) (frame f ++ rest) = (splitUpTo k rest).map (f :: ·) := by
  have size : (frame f ++ rest).length = 4 + f.length + rest.length := by
    rw [List.length_append, length_frame]
  have split : frame f ++ rest = Bytes.le lengthWidth f.length ++ (f ++ rest) := by
    rw [frame, List.append_assoc]
  have width : (Bytes.le lengthWidth f.length).length = lengthWidth := Bytes.length_le _ _
  have told : (frame f ++ rest).take lengthWidth = Bytes.le lengthWidth f.length := by
    rw [split, List.take_left' width]
  have behind : (frame f ++ rest).drop lengthWidth = f ++ rest := by
    rw [split, List.drop_left' width]
  have filled : frame f ++ rest ≠ [] := List.ne_nil_of_length_pos (by omega)
  rw [splitUpTo.eq_3 _ _ filled, if_neg (by rw [size, lengthWidth]; omega)]
  simp only [told, behind, leValue_length short, List.length_append]
  rw [if_neg (by omega), List.take_left, List.drop_left]

/-- Frames that were joined are split again, whatever they hold. -/
theorem splitUpTo_join {frames : List Bytes} (short : ∀ f ∈ frames, f.length < 2 ^ 32) {k : Nat}
    (enough : (join frames).length ≤ k) : splitUpTo k (join frames) = some frames := by
  induction frames generalizing k with
  | nil => cases k <;> rfl
  | cons f rest ih =>
    rw [List.forall_mem_cons] at short
    simp only [join, List.flatMap_cons, List.length_append, length_frame] at enough ih ⊢
    cases k with
    | zero => omega
    | succ k => rw [splitUpTo_frame k short.1, ih short.2 (by omega), Option.map_some]

/-- A byte string that is long enough for the length in front of it starts with that frame. -/
theorem frame_take {bs : Bytes} (long : lengthWidth ≤ bs.length)
    (whole : Bytes.leValue (bs.take lengthWidth) ≤ (bs.drop lengthWidth).length) :
    frame ((bs.drop lengthWidth).take (Bytes.leValue (bs.take lengthWidth))) =
      bs.take lengthWidth ++
        (bs.drop lengthWidth).take (Bytes.leValue (bs.take lengthWidth)) := by
  have width : (bs.take lengthWidth).length = lengthWidth := List.length_take_of_le long
  have told := Bytes.le_leValue (bs.take lengthWidth)
  rw [width] at told
  rw [frame, List.length_take_of_le whole, told]

/-- What was split is joined again to the same byte string. -/
theorem join_of_splitUpTo {k : Nat} {bs : Bytes} {frames : List Bytes}
    (split : splitUpTo k bs = some frames) : join frames = bs := by
  fun_induction splitUpTo k bs generalizing frames with
  | case1 k => cases split; rfl
  | case2 => cases split
  | case3 => cases split
  | case4 => cases split
  | case5 =>
    rename_i k bs _ long length rest whole ih
    obtain ⟨later, found, rfl⟩ := Option.map_eq_some_iff.mp split
    have behind : join later = rest.drop length := ih found
    calc join (rest.take length :: later)
      _ = frame (rest.take length) ++ join later := rfl
      _ = (bs.take lengthWidth ++ rest.take length) ++ rest.drop length := by
        rw [frame_take (Nat.le_of_not_lt long) (Nat.le_of_not_lt whole), behind]
      _ = bs := by
        rw [List.append_assoc, List.take_append_drop, List.take_append_drop]

/-! ### Arguments -/

/-- What can be told from a byte string that is handed to a guest. -/
structure Unambiguous (buffer : Bytes) : Prop where
  /-- Its frames are those that give it when they are joined. -/
  split?_eq_some_iff : ∀ frames, split? buffer = some frames ↔ join frames = buffer
  /-- It has no frames when no frames give it. -/
  split?_eq_none_iff : split? buffer = none ↔ ∀ frames, join frames ≠ buffer
  /-- No other byte strings could have been joined. -/
  join_injective : ∀ frames others, join frames = buffer → join others = buffer → frames = others
  /-- No length was cut off, neither that of a frame nor that of the whole. -/
  lengths : ∀ frames, join frames = buffer → ∀ f ∈ buffer :: frames,
    Bytes.leValue (Bytes.le lengthWidth f.length) = f.length
  /-- Collections that are handed over alike consist of the same messages, byte for byte. -/
  collections : ∀ messages others, (RecordValue.collection messages).bytes = buffer →
    (RecordValue.collection others).bytes = buffer → messages.map (·.bytes) = others.map (·.bytes)

/-- A byte string passes to guests exactly if its length and four more bytes are counted by a signed
word, and what passes is made of frames in one way only, which splitting finds, or in none. -/
theorem unambiguous_of_passes (buffer : Bytes) :
    (Passes buffer ↔ buffer.length + 4 ≤ 2 ^ 31 - 1) ∧ (Passes buffer → Unambiguous buffer) := by
  refine ⟨passes_iff, fun passes => ?_⟩
  have size := passes_iff.mp passes
  have short : ∀ frames, join frames = buffer → ∀ f ∈ frames, f.length < 2 ^ 32 := by
    rintro frames rfl f member
    have := length_le_join member
    omega
  have splits : ∀ frames, split? buffer = some frames ↔ join frames = buffer := by
    intro frames
    refine ⟨join_of_splitUpTo, fun joined => ?_⟩
    have found := splitUpTo_join (short frames joined) (Nat.le_refl _)
    rwa [joined] at found
  have injective : ∀ frames others, join frames = buffer → join others = buffer →
      frames = others := by
    intro frames others first second
    exact Option.some.inj (((splits frames).mpr first).symm.trans ((splits others).mpr second))
  refine {
    split?_eq_some_iff := splits
    split?_eq_none_iff := ?_
    join_injective := injective
    lengths := ?_
    collections := fun messages others => injective _ _ }
  · simp only [Option.eq_none_iff_forall_ne_some, ne_eq, splits]
  · intro frames joined f member
    rcases List.mem_cons.mp member with rfl | member
    · exact leValue_length (by omega)
    · exact leValue_length (short frames joined f member)

/-- Empty frames in front of and behind a frame that looks like a length are told apart, and half of
a frame is none. -/
theorem frames_at_both_ends :
    let buffer : Bytes := [0, 0, 0, 0, 4, 0, 0, 0, 2, 0, 0, 0, 0, 0, 0, 0]
    Passes buffer ∧ Unambiguous buffer ∧ split? buffer = some [[], [2, 0, 0, 0], []] ∧
      Passes [4, 0, 0, 0, 2, 0] ∧ ∀ frames, join frames ≠ [4, 0, 0, 0, 2, 0] := by
  intro buffer
  obtain ⟨whole, unambiguous⟩ := unambiguous_of_passes buffer
  obtain ⟨cut, none⟩ := unambiguous_of_passes [4, 0, 0, 0, 2, 0]
  have passes : Passes buffer := whole.mpr (by decide)
  have half : Passes [4, 0, 0, 0, 2, 0] := cut.mpr (by decide)
  refine ⟨passes, unambiguous passes, ?_, half, ?_⟩
  · exact ((unambiguous passes).split?_eq_some_iff _).mpr (by decide)
  · exact (none half).split?_eq_none_iff.mp (by decide)

end Notary.Engine.Frames
