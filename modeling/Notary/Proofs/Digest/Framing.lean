/-
One hash for several parts tells the parts apart.

A part is as long as the eight bytes in front of it say, so two streams that begin alike have the
same first part, and what is left are streams again. Parts that look like lengths do not matter, and
neither does their number. Hence different parts have one hash only if two different byte strings
do, and these are known: the streams.

* `Collides` — two different byte strings have one hash.
* `framedStream_injective` — the stream gives back the parts.
* `Hasher.composite_eq` — a hasher that is fed piece by piece hashes the stream.
* `parts_of_compositeHash` — equal hashes of parts, and equal keys of contexts.
-/

import Notary.Context.Cache

namespace Notary

/-- The byte strings differ and have one content hash. -/
def Collides (s t : Bytes) : Prop := s ≠ t ∧ contentHash s = contentHash t

/-! ### Streams -/

theorem framedStream_cons (p : Bytes) (ps : List Bytes) :
    framedStream (p :: ps) = Bytes.le 8 p.length ++ (p ++ framedStream ps) := by
  simp [framedStream]

theorem framedStream_cons_ne_nil (p : Bytes) (ps : List Bytes) : framedStream (p :: ps) ≠ [] := by
  rw [framedStream_cons]
  refine List.append_ne_nil_of_left_ne_nil (List.ne_nil_of_length_pos ?_) _
  rw [Bytes.length_le]
  decide

/-- The parts in front of two equal streams are equal, and so is what is behind them. -/
theorem framed_cancel {p q s t : Bytes} (left : p.length < 2 ^ 64) (right : q.length < 2 ^ 64)
    (same : Bytes.le 8 p.length ++ (p ++ s) = Bytes.le 8 q.length ++ (q ++ t)) : p = q ∧ s = t := by
  obtain ⟨lengths, behind⟩ := List.append_inj same (by rw [Bytes.length_le, Bytes.length_le])
  have length : p.length = q.length :=
    calc p.length
      _ = Bytes.leValue (Bytes.le 8 p.length) := (Bytes.leValue_le left).symm
      _ = Bytes.leValue (Bytes.le 8 q.length) := by rw [lengths]
      _ = q.length := Bytes.leValue_le right
  exact List.append_inj behind length

/-- The stream gives back the parts, as many as there are and whatever they hold. -/
theorem framedStream_injective {ps qs : List Bytes} (left : ∀ p ∈ ps, p.length < 2 ^ 64)
    (right : ∀ q ∈ qs, q.length < 2 ^ 64) (same : framedStream ps = framedStream qs) : ps = qs := by
  induction ps generalizing qs with
  | nil =>
    cases qs with
    | nil => rfl
    | cons q qs => exact absurd same.symm (framedStream_cons_ne_nil q qs)
  | cons p ps ih =>
    cases qs with
    | nil => exact absurd same (framedStream_cons_ne_nil p ps)
    | cons q qs =>
      rw [framedStream_cons, framedStream_cons] at same
      rw [List.forall_mem_cons] at left right
      obtain ⟨rfl, rest⟩ := framed_cancel left.1 right.1 same
      rw [ih left.2 right.2 rest]

/-- The pieces of a stream: each part behind the bytes of its length. -/
def piecesOf (parts : List Bytes) : List Bytes := parts.flatMap fun p => [Bytes.le 8 p.length, p]

theorem flatten_piecesOf (parts : List Bytes) : (piecesOf parts).flatten = framedStream parts := by
  induction parts with
  | nil => rfl
  | cons p ps ih =>
    rw [framedStream_cons, ← ih]
    rfl

/-! ### Hashing piece by piece -/

/-- A hasher that is fed piece by piece. -/
structure Hasher (σ : Type) where
  start : σ
  feed : σ → Bytes → σ
  finish : σ → Hash

namespace Hasher

variable {σ : Type}

/-- How the input is cut into pieces does not matter. -/
def Incremental (h : Hasher σ) : Prop :=
  ∀ pieces : List Bytes, h.finish (pieces.foldl h.feed h.start) = contentHash pieces.flatten

/-- Several parts are fed one after the other, the length of each in front of it. -/
def composite (h : Hasher σ) (parts : List Bytes) : Hash :=
  h.finish (parts.foldl (fun s p => h.feed (h.feed s (Bytes.le 8 p.length)) p) h.start)

/-- What is fed for several parts is hashed like their stream. -/
theorem composite_eq {h : Hasher σ} (incremental : h.Incremental) (parts : List Bytes) :
    h.composite parts = compositeHash parts := by
  have fed : parts.foldl (fun s p => h.feed (h.feed s (Bytes.le 8 p.length)) p) h.start =
      (piecesOf parts).foldl h.feed h.start := by
    simp only [piecesOf, List.foldl_flatMap, List.foldl_cons, List.foldl_nil]
  rw [composite, fed, incremental, flatten_piecesOf, compositeHash]

/-- Keeps all that it is fed, and hashes it at the end. -/
def keeping : Hasher Bytes := ⟨[], (· ++ ·), contentHash⟩

theorem incremental_keeping : keeping.Incremental := by
  intro pieces
  have fed : ∀ s : Bytes, pieces.foldl keeping.feed s = s ++ pieces.flatten := by
    induction pieces with
    | nil => simp
    | cons p ps ih =>
      intro s
      rw [List.foldl_cons, ih, List.flatten_cons, ← List.append_assoc]
      rfl
  rw [fed]
  rfl

end Hasher

/-! ### Hashes -/

theorem compositeHash_eq_iff {ps qs : List Bytes} (left : ∀ p ∈ ps, p.length < 2 ^ 64)
    (right : ∀ q ∈ qs, q.length < 2 ^ 64) :
    compositeHash ps = compositeHash qs ↔
      ps = qs ∨ Collides (framedStream ps) (framedStream qs) := by
  constructor
  · intro same
    by_cases stream : framedStream ps = framedStream qs
    · exact .inl (framedStream_injective left right stream)
    · exact .inr ⟨stream, same⟩
  · rintro (rfl | ⟨-, same⟩)
    · rfl
    · exact same

/-- Parts of less than 2 ^ 64 bytes each, as many as there are, have one stream only if they are the
same parts, and their hash is that of the stream, also when the hasher is fed piece by piece. So
different parts have one hash only if the two streams collide, and the keys of two contexts are the
same only if all three hashes are, malformed or empty ones included, or the streams collide. -/
theorem parts_of_compositeHash {σ : Type} {h : Hasher σ} (incremental : h.Incremental)
    (ps qs : List Bytes) (left : ∀ p ∈ ps, p.length < 2 ^ 64)
    (right : ∀ q ∈ qs, q.length < 2 ^ 64) :
    (framedStream ps = framedStream qs ↔ ps = qs) ∧
      h.composite ps = contentHash (framedStream ps) ∧ h.composite ps = compositeHash ps ∧
      (compositeHash ps = compositeHash qs ↔
        ps = qs ∨ Collides (framedStream ps) (framedStream qs)) ∧
      ∀ a b c a' b' c' : Bytes, (∀ p ∈ [a, b, c] ++ [a', b', c'], p.length < 2 ^ 64) →
        (Context.CacheKey.of a b c = Context.CacheKey.of a' b' c' ↔
          (a = a' ∧ b = b' ∧ c = c') ∨
            Collides (framedStream [a, b, c]) (framedStream [a', b', c'])) := by
  have hashed := Hasher.composite_eq incremental ps
  refine ⟨⟨framedStream_injective left right, congrArg framedStream⟩, hashed, hashed,
    compositeHash_eq_iff left right, ?_⟩
  intro a b c a' b' c' short
  have keys : Context.CacheKey.of a b c = Context.CacheKey.of a' b' c' ↔
      compositeHash [a, b, c] = compositeHash [a', b', c'] :=
    by simp only [Context.CacheKey.of, Context.CacheKey.mk.injEq]
  rw [keys, compositeHash_eq_iff (fun p member => short p (List.mem_append_left _ member))
    (fun p member => short p (List.mem_append_right _ member))]
  simp only [List.cons.injEq, and_true]

/-- Two empty parts differ from one part of eight zeros, and a definition that looks like a length
does not stand for an empty one next to it. -/
theorem parts_like_lengths :
    let zeros : Bytes := [0, 0, 0, 0, 0, 0, 0, 0]
    let eight : Bytes := [8, 0, 0, 0, 0, 0, 0, 0]
    Hasher.keeping.Incremental ∧ framedStream [[], []] ≠ framedStream [zeros] ∧
      Hasher.keeping.composite [[], []] = compositeHash [[], []] ∧
      (compositeHash [[], []] = compositeHash [zeros] →
        Collides (framedStream [[], []]) (framedStream [zeros])) ∧
      (Context.CacheKey.of [] zeros eight = Context.CacheKey.of eight [] zeros →
        Collides (framedStream [[], zeros, eight]) (framedStream [eight, [], zeros])) := by
  intro zeros eight
  obtain ⟨streams, -, hashed, hashes, keys⟩ := parts_of_compositeHash Hasher.incremental_keeping
    [[], []] [zeros] (by decide) (by decide)
  refine ⟨Hasher.incremental_keeping, mt streams.mp (by decide), hashed, ?_, ?_⟩
  · intro same
    exact (hashes.mp same).resolve_left (by decide)
  · intro same
    exact ((keys _ _ _ _ _ _ (by decide)).mp same).resolve_left (by decide)

end Notary
