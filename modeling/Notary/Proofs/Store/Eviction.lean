/-
What a bounded cache keeps.

The queue of a cache names its keys, and the count tells how many bytes they take. When that is too
much, keys leave from the front, one by one, until the others fit. So what stays is the longest end
of the queue that fits, however large or small the values in it are.

* `within` — the longest end of a list of keys that fits; `within_move` says that keys which left
  are not missed when a key moves to the end.
* `Sound` — map, queue and count of a cache agree.
* `trimmed_evict` — eviction leaves the end of the queue that fits.
* `sound_touch`, `sound_insert` — a cache agrees with itself after a use, and after an insertion.
* `insert?`, `insert?_eq` — an insertion that stops when the count would fall below zero, and never
  does.
-/

import Mathlib.Data.List.Nodup
import Notary.Proofs.Store.CachedReads

namespace Notary.Store

/-! ### The end of a list that fits -/

section Within

variable {κ : Type} {capacity : Nat} {size size' : κ → Nat}

/-- What keys weigh together. -/
def weight (size : κ → Nat) (keys : List κ) : Nat := (keys.map size).sum

@[simp] theorem weight_nil : weight size [] = 0 := rfl

@[simp] theorem weight_cons (k : κ) (keys : List κ) :
    weight size (k :: keys) = size k + weight size keys := List.sum_cons

@[simp] theorem weight_append (keys later : List κ) :
    weight size (keys ++ later) = weight size keys + weight size later := by
  simp [weight]

theorem weight_congr {keys : List κ} (same : ∀ k ∈ keys, size' k = size k) :
    weight size' keys = weight size keys := by
  rw [weight, List.map_congr_left same, weight]

theorem weight_erase [DecidableEq κ] {k : κ} {keys : List κ} (member : k ∈ keys) :
    size k + weight size (keys.erase k) = weight size keys := by
  have perm := (List.perm_cons_erase member).map size
  rw [weight, weight, perm.sum_nat, List.map_cons, List.sum_cons]

/-- The longest end of a list of keys that weighs no more than the capacity. -/
def within (capacity : Nat) (size : κ → Nat) : List κ → List κ
  | [] => []
  | k :: rest =>
    if weight size (k :: rest) ≤ capacity then k :: rest else within capacity size rest

theorem within_of_le {keys : List κ} (fits : weight size keys ≤ capacity) :
    within capacity size keys = keys := by
  cases keys with
  | nil => rfl
  | cons k rest => exact if_pos fits

theorem within_cons_of_lt {k : κ} {rest : List κ} (full : capacity < weight size (k :: rest)) :
    within capacity size (k :: rest) = within capacity size rest :=
  if_neg (Nat.not_le.mpr full)

theorem weight_within_le (keys : List κ) : weight size (within capacity size keys) ≤ capacity := by
  induction keys with
  | nil => exact Nat.zero_le _
  | cons k rest ih =>
    unfold within
    split
    · assumption
    · exact ih

theorem within_suffix (keys : List κ) : within capacity size keys <:+ keys := by
  induction keys with
  | nil => exact List.suffix_rfl
  | cons k rest ih =>
    unfold within
    split
    · exact List.suffix_rfl
    · exact ih.trans (List.suffix_cons k rest)

theorem within_congr {keys : List κ} (same : ∀ k ∈ keys, size' k = size k) :
    within capacity size' keys = within capacity size keys := by
  induction keys with
  | nil => rfl
  | cons k rest ih =>
    rw [within, within, weight_congr same, ih fun k' member => same k' (.tail k member)]

/-- A key is in the end that fits when all from it on fits. -/
theorem mem_within_iff {before behind : List κ} {k : κ} (nodup : (before ++ k :: behind).Nodup) :
    k ∈ within capacity size (before ++ k :: behind) ↔ weight size (k :: behind) ≤ capacity := by
  induction before with
  | nil =>
    rw [List.nil_append]
    by_cases fits : weight size (k :: behind) ≤ capacity
    · exact iff_of_true (by rw [within_of_le fits]; exact List.mem_cons_self) fits
    · rw [within_cons_of_lt (Nat.not_le.mp fits)]
      have away : k ∉ behind := (List.nodup_cons.mp nodup).1
      exact iff_of_false (fun member => away ((within_suffix behind).subset member)) fits
  | cons first rest ih =>
    rw [List.cons_append] at nodup ⊢
    by_cases fits : weight size (first :: (rest ++ k :: behind)) ≤ capacity
    · rw [within_of_le fits]
      simp only [weight_cons, weight_append] at fits
      refine iff_of_true (by simp) ?_
      rw [weight_cons]
      omega
    · rw [within_cons_of_lt (Nat.not_le.mp fits)]
      exact ih (List.nodup_cons.mp nodup).2

/-- When a key moves to the end, whoever keeps only what fits needs nothing that left before. -/
theorem within_move [DecidableEq κ] {keys : List κ} (nodup : keys.Nodup) (k : κ) :
    within capacity size ((within capacity size keys).erase k ++ [k]) =
      within capacity size (keys.erase k ++ [k]) := by
  induction keys with
  | nil => rfl
  | cons first rest ih =>
    by_cases fits : weight size (first :: rest) ≤ capacity
    · rw [within_of_le fits]
    · obtain ⟨away, nodup⟩ := List.nodup_cons.mp nodup
      rw [within_cons_of_lt (Nat.not_le.mp fits), ih nodup]
      by_cases same : first = k
      · subst same
        rw [List.erase_cons_head, List.erase_of_not_mem away]
      · -- The first key is still too heavy: moving another key takes no weight away.
        have heavy : weight size (first :: rest) ≤
            weight size (first :: (rest.erase k ++ [k])) := by
          simp only [weight_cons, weight_append, weight_nil]
          by_cases member : k ∈ rest
          · have weighs : size k + weight size (rest.erase k) = weight size rest :=
              weight_erase member
            omega
          · rw [List.erase_of_not_mem member]
            omega
        rw [List.erase_cons_tail (by simpa using same), List.cons_append,
          within_cons_of_lt (by omega)]

end Within

/-! ### Caches that agree with themselves -/

namespace ByteCache

variable {κ : Type} [DecidableEq κ] [Hashable κ] {c : ByteCache κ} {k : κ} {v : Bytes}
  {queue : List κ}

/-- The bytes that a key takes. -/
def sizeAt (c : ByteCache κ) (k : κ) : Nat := (c.entries[k]?.map List.length).getD 0

/-- The queue names the keys that are held, each once, and the count tells their bytes. -/
structure Sound (c : ByteCache κ) : Prop where
  nodup : c.order.Nodup
  mem_iff : ∀ k, k ∈ c.entries ↔ k ∈ c.order
  used : c.used = weight c.sizeAt c.order

theorem sound_empty (capacity : Nat) : Sound { capacity : ByteCache κ } where
  nodup := List.nodup_nil
  mem_iff k := by simp
  used := rfl

/-- The bytes of the values that are held are what the count tells. -/
theorem Sound.sum_toList (sound : c.Sound) :
    (c.entries.toList.map fun held => held.2.length).sum = c.used := by
  have keys : c.entries.keys.Perm c.order := by
    refine (List.perm_ext_iff_of_nodup (nodup_keys c.entries) sound.nodup).mpr fun k => ?_
    rw [Std.HashMap.mem_keys, sound.mem_iff]
  have sizes : (c.entries.toList.map fun held => held.2.length) = c.entries.keys.map c.sizeAt := by
    rw [← Std.HashMap.map_fst_toList_eq_keys, List.map_map]
    refine List.map_congr_left fun held member => ?_
    rw [Std.HashMap.mem_toList_iff_getElem?_eq_some] at member
    simp [sizeAt, member]
  rw [sizes, sound.used, weight, (keys.map c.sizeAt).sum_nat]

/-- The key in front of a queue leaves. -/
def drop (c : ByteCache κ) (k : κ) : ByteCache κ :=
  { c with used := c.used - c.sizeAt k, entries := c.entries.erase k }

theorem sizeAt_drop {k' : κ} (other : k' ≠ k) : (c.drop k).sizeAt k' = c.sizeAt k' := by
  simp [sizeAt, drop, Std.HashMap.getElem?_erase, Ne.symm other]

theorem Sound.sizeAt_le {rest : List κ} (sound : Sound { c with order := k :: rest }) :
    c.sizeAt k ≤ c.used := by
  have used : c.used = c.sizeAt k + weight c.sizeAt rest := sound.used
  omega

theorem Sound.drop {rest : List κ} (sound : Sound { c with order := k :: rest }) :
    Sound { c.drop k with order := rest } := by
  obtain ⟨away, nodup⟩ := List.nodup_cons.mp sound.nodup
  refine ⟨nodup, ?_, ?_⟩
  · intro k'
    have member : k' ∈ c.entries ↔ k' ∈ k :: rest := sound.mem_iff k'
    have kept : k' ∈ (c.drop k).entries ↔ k ≠ k' ∧ k' ∈ c.entries := by
      simp [ByteCache.drop]
    rw [kept, member, List.mem_cons]
    constructor
    · rintro ⟨other, same | member⟩
      · exact absurd same.symm other
      · exact member
    · intro member
      exact ⟨fun same => away (same ▸ member), .inr member⟩
  · have used : c.used = c.sizeAt k + weight c.sizeAt rest := sound.used
    have same : weight (c.drop k).sizeAt rest = weight c.sizeAt rest :=
      weight_congr fun k' member => sizeAt_drop fun eq => away (eq ▸ member)
    change c.used - c.sizeAt k = weight (c.drop k).sizeAt rest
    rw [same]
    omega

/-- A cache without the keys that left, when this was the queue. -/
structure Trimmed (c : ByteCache κ) (queue : List κ) (r : ByteCache κ) : Prop where
  capacity : r.capacity = c.capacity
  order : r.order = within c.capacity c.sizeAt queue
  entries : ∀ k ∈ r.order, r.entries[k]? = c.entries[k]?
  sound : r.Sound

theorem trimmed_evict (sound : Sound { c with order := queue }) :
    Trimmed c queue (c.evict queue) := by
  induction queue generalizing c with
  | nil => exact ⟨rfl, rfl, fun _ _ => rfl, sound⟩
  | cons k rest ih =>
    have used : c.used = weight c.sizeAt (k :: rest) := sound.used
    have away : k ∉ rest := (List.nodup_cons.mp sound.nodup).1
    unfold evict
    split
    · rename_i room
      exact ⟨rfl, (within_of_le (used ▸ room)).symm, fun _ _ => rfl, sound⟩
    · rename_i full
      have trimmed : Trimmed (c.drop k) rest ((c.drop k).evict rest) := ih sound.drop
      have sizes : ∀ k' ∈ rest, (c.drop k).sizeAt k' = c.sizeAt k' :=
        fun k' member => sizeAt_drop fun eq => away (eq ▸ member)
      refine ⟨trimmed.capacity, ?_, ?_, trimmed.sound⟩
      · rw [within_cons_of_lt (by omega), ← within_congr sizes]
        exact trimmed.order
      · intro k' (member : k' ∈ ((c.drop k).evict rest).order)
        have behind : k' ∈ rest :=
          (within_suffix rest).subset (trimmed.order ▸ member)
        have other : k ≠ k' := fun eq => away (eq ▸ behind)
        refine (trimmed.entries k' member).trans ?_
        simp [ByteCache.drop, Std.HashMap.getElem?_erase, other]

/-- What is left takes no more bytes than it may. -/
theorem Trimmed.used_le {r : ByteCache κ} (trimmed : Trimmed c queue r) : r.used ≤ r.capacity := by
  have sizes : ∀ k ∈ r.order, r.sizeAt k = c.sizeAt k := fun k member => by
    rw [sizeAt, trimmed.entries k member, sizeAt]
  rw [trimmed.sound.used, weight_congr sizes, trimmed.order, trimmed.capacity]
  exact weight_within_le queue

/-! ### Uses and insertions -/

/-- A use moves a key to the end of the queue. -/
theorem sound_touch (sound : c.Sound) (held : k ∈ c.order) : (c.touch k).Sound := by
  have perm : (c.order.erase k ++ [k]).Perm c.order :=
    List.perm_append_comm.trans (List.perm_cons_erase held).symm
  refine ⟨perm.nodup_iff.mpr sound.nodup, ?_, ?_⟩
  · intro k'
    exact (sound.mem_iff k').trans perm.mem_iff.symm
  · exact sound.used.trans (perm.map c.sizeAt).sum_nat.symm

/-- A cache in which a value was put, and from which no key has left for it yet. -/
def placed (c : ByteCache κ) (k : κ) (v : Bytes) : ByteCache κ :=
  { c with
    used := c.used - c.sizeAt k + v.length
    entries := c.entries.insert k v
    order := c.order.erase k ++ [k] }

theorem sizeAt_placed (k' : κ) :
    (c.placed k v).sizeAt k' = if k = k' then v.length else c.sizeAt k' := by
  by_cases same : k = k'
  · subst same
    simp [sizeAt, placed]
  · simp [sizeAt, placed, Std.HashMap.getElem?_insert, same]

theorem sizeAt_of_held {old : Bytes} (held : c.entries[k]? = some old) :
    c.sizeAt k = old.length := by
  simp [sizeAt, held]

theorem sizeAt_of_not_mem (sound : c.Sound) (fresh : k ∉ c.order) : c.sizeAt k = 0 := by
  rw [← sound.mem_iff] at fresh
  simp [sizeAt, Std.HashMap.getElem?_eq_none fresh]

/-- A key without a value is put behind all others. -/
theorem placed_of_none (sound : c.Sound) (missing : c.entries[k]? = none) :
    c.placed k v =
      { c with
        used := c.used + v.length
        entries := c.entries.insert k v
        order := c.order ++ [k] } := by
  have fresh : k ∉ c.order := by
    rw [← sound.mem_iff, ← Std.HashMap.isSome_getElem?_iff_mem, missing]
    exact Bool.false_ne_true
  rw [placed, sizeAt_of_not_mem sound fresh, List.erase_of_not_mem fresh, Nat.sub_zero]

/-- What the other keys take is what is left of the count. -/
theorem Sound.used_sub (sound : c.Sound) (k : κ) :
    c.sizeAt k + weight c.sizeAt (c.order.erase k) = c.used := by
  rw [sound.used]
  by_cases held : k ∈ c.order
  · exact weight_erase held
  · rw [List.erase_of_not_mem held, sizeAt_of_not_mem sound held, Nat.zero_add]

theorem sound_placed (sound : c.Sound) (k : κ) (v : Bytes) : (c.placed k v).Sound := by
  have away : k ∉ c.order.erase k := sound.nodup.not_mem_erase
  refine ⟨?_, ?_, ?_⟩
  · exact List.nodup_append.mpr ⟨sound.nodup.erase k, by simp, by grind⟩
  · intro k'
    have member := sound.mem_iff k'
    simp only [placed, Std.HashMap.mem_insert, beq_iff_eq, List.mem_append, List.mem_singleton]
    by_cases same : k = k'
    · simp [same]
    · rw [member, List.mem_erase_of_ne (Ne.symm same)]
      simp [same, Ne.symm same]
  · have others : weight (c.placed k v).sizeAt (c.order.erase k) =
        weight c.sizeAt (c.order.erase k) :=
      weight_congr fun k' member => by
        rw [sizeAt_placed, if_neg (ne_of_mem_of_not_mem member away).symm]
    have used := sound.used_sub k
    change c.used - c.sizeAt k + v.length =
      weight (c.placed k v).sizeAt (c.order.erase k ++ [k])
    rw [weight_append, others, weight_cons, weight_nil, sizeAt_placed, if_pos rfl]
    omega

/-- A value that fits into the cache is put there, and then keys leave. -/
theorem insert_eq (sound : c.Sound) (fits : v.length ≤ c.capacity) :
    c.insert k v = (c.placed k v).evict (c.placed k v).order := by
  unfold insert
  rw [if_neg (by omega)]
  cases held : c.entries[k]? with
  | some old =>
    rw [placed, sizeAt_of_held held]
    rfl
  | none =>
    rw [placed_of_none sound held]

theorem trimmed_insert (sound : c.Sound) (fits : v.length ≤ c.capacity) :
    Trimmed (c.placed k v) (c.order.erase k ++ [k]) (c.insert k v) := by
  rw [insert_eq sound fits]
  exact trimmed_evict (sound_placed sound k v)

/-- An insertion leaves a cache that agrees with itself, and does not hold too much. -/
theorem sound_insert (sound : c.Sound) (room : c.used ≤ c.capacity) (k : κ) (v : Bytes) :
    (c.insert k v).Sound ∧ (c.insert k v).used ≤ (c.insert k v).capacity := by
  by_cases fits : v.length ≤ c.capacity
  · have trimmed := trimmed_insert (k := k) sound fits
    exact ⟨trimmed.sound, trimmed.used_le⟩
  · rw [insert, if_pos (by omega)]
    exact ⟨sound, room⟩

/-! ### The count never falls below zero -/

/-- What is left of a number, when there is as much of it. -/
def minus? (a b : Nat) : Option Nat := if b ≤ a then some (a - b) else none

theorem minus?_of_le {a b : Nat} (le : b ≤ a) : minus? a b = some (a - b) := if_pos le

/-- An eviction that stops when the count would fall below zero. -/
def evict? (c : ByteCache κ) : List κ → Option (ByteCache κ)
  | [] => some { c with order := [] }
  | k :: rest =>
    if c.used ≤ c.capacity then some { c with order := k :: rest }
    else
      (minus? c.used (c.sizeAt k)).bind fun used =>
        evict? { c with used, entries := c.entries.erase k } rest

/-- An insertion that stops when the count would fall below zero. -/
def insert? (c : ByteCache κ) (k : κ) (v : Bytes) : Option (ByteCache κ) :=
  if c.capacity < v.length then some c
  else
    let c? : Option (ByteCache κ) :=
      match c.entries[k]? with
      | some old => (minus? c.used old.length).map fun used => { c.touch k with used }
      | none => some { c with order := c.order ++ [k] }
    c?.bind fun c' =>
      let c' := { c' with entries := c'.entries.insert k v, used := c'.used + v.length }
      c'.evict? c'.order

theorem evict?_eq (sound : Sound { c with order := queue }) :
    c.evict? queue = some (c.evict queue) := by
  induction queue generalizing c with
  | nil => rfl
  | cons k rest ih =>
    unfold evict? evict
    split
    · rfl
    · rw [minus?_of_le sound.sizeAt_le]
      exact ih sound.drop

/-- No insertion into a cache that agrees with itself has to stop. -/
theorem insert?_eq (sound : c.Sound) (k : κ) (v : Bytes) : c.insert? k v = some (c.insert k v) := by
  have evicted : (c.placed k v).evict? (c.placed k v).order =
      some ((c.placed k v).evict (c.placed k v).order) := evict?_eq (sound_placed sound k v)
  by_cases fits : v.length ≤ c.capacity
  · rw [insert_eq sound fits, ← evicted]
    unfold insert?
    rw [if_neg (by omega)]
    cases held : c.entries[k]? with
    | some old =>
      have le : c.sizeAt k ≤ c.used := by
        have used := sound.used_sub k
        omega
      rw [sizeAt_of_held held] at le
      rw [placed, sizeAt_of_held held]
      dsimp only
      rw [minus?_of_le le]
      rfl
    | none =>
      rw [placed_of_none sound held]
      rfl
  · rw [insert?, insert, if_pos (by omega), if_pos (by omega)]

end ByteCache

end Notary.Store
