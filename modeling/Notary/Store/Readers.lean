/-
Sets of reader keys.

A set is kept as its keys in rising order without repetition, so two sets with the same members are
equal. Keys are ordered like their bytes, the first byte counting most.

* `Readers.mem_insert`, `Readers.mem_union` — membership after an insertion and after a union.
* `Readers.ext` — sets with the same members are equal.
-/

import Notary.Bytes

namespace Notary

namespace FixedBytes

variable {n : Nat}

/-- The number whose most significant byte comes first. -/
def rank (b : FixedBytes n) : Nat := Bytes.leValue b.toList.reverse

theorem rank_injective {a b : FixedBytes n} (h : a.rank = b.rank) : a = b := by
  have hl : a.toList.reverse.length = b.toList.reverse.length := by simp
  have := congrArg (Bytes.le a.toList.reverse.length) h
  rw [rank, rank, Bytes.le_leValue, hl, Bytes.le_leValue] at this
  exact ext_iff'.2 (List.reverse_inj.1 this)

end FixedBytes

namespace Store

/-- A set of keys. -/
structure Readers where
  /-- The members, in rising order. -/
  keys : List PublicKey := []
  /-- No key stands twice or out of order. -/
  sorted : keys.Pairwise fun a b => a.rank < b.rank := by simp
deriving DecidableEq

namespace Readers

instance : Hashable Readers := ⟨fun r => hash r.keys⟩

instance : Membership PublicKey Readers := ⟨fun r k => k ∈ r.keys⟩

instance (k : PublicKey) (r : Readers) : Decidable (k ∈ r) :=
  inferInstanceAs (Decidable (k ∈ r.keys))

theorem mem_def {k : PublicKey} {r : Readers} : k ∈ r ↔ k ∈ r.keys := Iff.rfl

/-- Puts a key at its place in a rising list. -/
def insertSorted (k : PublicKey) : List PublicKey → List PublicKey
  | [] => [k]
  | a :: rest =>
    if k.rank < a.rank then k :: a :: rest
    else if a.rank < k.rank then a :: insertSorted k rest
    else a :: rest

theorem mem_insertSorted {x k : PublicKey} {l : List PublicKey} :
    x ∈ insertSorted k l ↔ x = k ∨ x ∈ l := by
  induction l with
  | nil => simp [insertSorted]
  | cons a rest ih =>
    unfold insertSorted
    split
    · simp
    · split
      · simp only [List.mem_cons, ih]
        constructor
        · rintro (h | h | h) <;> simp [h]
        · rintro (h | h | h) <;> simp [h]
      · have : k = a := FixedBytes.rank_injective (by omega)
        subst this
        simp

theorem sorted_insertSorted {k : PublicKey} {l : List PublicKey}
    (h : l.Pairwise fun a b => a.rank < b.rank) :
    (insertSorted k l).Pairwise fun a b => a.rank < b.rank := by
  induction l with
  | nil => simp [insertSorted]
  | cons a rest ih =>
    rw [List.pairwise_cons] at h
    unfold insertSorted
    split
    · rename_i hlt
      rw [List.pairwise_cons, List.pairwise_cons]
      refine ⟨?_, h⟩
      intro b hb
      rcases List.mem_cons.1 hb with rfl | hb
      · exact hlt
      · exact Nat.lt_trans hlt (h.1 b hb)
    · split
      · rename_i hlt
        rw [List.pairwise_cons]
        refine ⟨?_, ih h.2⟩
        intro b hb
        rcases mem_insertSorted.1 hb with rfl | hb
        · exact hlt
        · exact h.1 b hb
      · rw [List.pairwise_cons]; exact h

/-- The set with one more member. -/
def insert (k : PublicKey) (r : Readers) : Readers :=
  ⟨insertSorted k r.keys, sorted_insertSorted r.sorted⟩

@[simp] theorem mem_insert {x k : PublicKey} {r : Readers} : x ∈ r.insert k ↔ x = k ∨ x ∈ r :=
  mem_insertSorted

/-- The set of the keys of a list. -/
def ofList (ks : List PublicKey) : Readers := ks.foldl (fun r k => r.insert k) {}

/-- The members of either set. -/
def union (r s : Readers) : Readers := s.keys.foldl (fun r k => r.insert k) r

theorem mem_foldl_insert {x : PublicKey} {ks : List PublicKey} {r : Readers} :
    x ∈ ks.foldl (fun r k => r.insert k) r ↔ x ∈ r ∨ x ∈ ks := by
  induction ks generalizing r with
  | nil => simp
  | cons k rest ih =>
    simp only [List.foldl_cons, ih, mem_insert, List.mem_cons]
    constructor
    · rintro ((h | h) | h) <;> simp [h]
    · rintro (h | h | h) <;> simp [h]

@[simp] theorem mem_ofList {x : PublicKey} {ks : List PublicKey} : x ∈ ofList ks ↔ x ∈ ks := by
  unfold ofList
  rw [mem_foldl_insert]
  simp [mem_def]

@[simp] theorem mem_union {x : PublicKey} {r s : Readers} : x ∈ r.union s ↔ x ∈ r ∨ x ∈ s := by
  unfold union
  rw [mem_foldl_insert, mem_def (r := s)]

theorem keys_ext {l m : List PublicKey} (hl : l.Pairwise fun a b => a.rank < b.rank)
    (hm : m.Pairwise fun a b => a.rank < b.rank) (h : ∀ x, x ∈ l ↔ x ∈ m) : l = m := by
  induction l generalizing m with
  | nil =>
    cases m with
    | nil => rfl
    | cons b m => exact absurd ((h b).2 (by simp)) (by simp)
  | cons a l ih =>
    cases m with
    | nil => exact absurd ((h a).1 (by simp)) (by simp)
    | cons b m =>
      rw [List.pairwise_cons] at hl hm
      have hab : a = b := by
        rcases List.mem_cons.1 ((h a).1 (by simp)) with hab | ha
        · exact hab
        · rcases List.mem_cons.1 ((h b).2 (by simp)) with hba | hb
          · exact hba.symm
          · have := hm.1 a ha
            have := hl.1 b hb
            omega
      subst hab
      congr 1
      refine ih hl.2 hm.2 fun x => ?_
      constructor
      · intro hx
        rcases List.mem_cons.1 ((h x).1 (by simp [hx])) with rfl | hx'
        · exact absurd (hl.1 _ hx) (Nat.lt_irrefl _)
        · exact hx'
      · intro hx
        rcases List.mem_cons.1 ((h x).2 (by simp [hx])) with rfl | hx'
        · exact absurd (hm.1 _ hx) (Nat.lt_irrefl _)
        · exact hx'

/-- Sets with the same members are equal. -/
theorem ext {r s : Readers} (h : ∀ x, x ∈ r ↔ x ∈ s) : r = s := by
  cases r with
  | mk r hr =>
    cases s with
    | mk s hs =>
      have : r = s := keys_ext hr hs h
      subst this
      rfl

end Readers

end Store

end Notary
