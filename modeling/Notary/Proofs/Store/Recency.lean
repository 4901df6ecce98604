/-
When a read is answered from a cache.

A cache keeps the values that were read last. How many it keeps depends on their sizes: a key is
held exactly as long as its value and those of all other keys that were read since fit together.
Values that are larger than the whole cache are left out of account, since they are never kept. This
holds of any store behind the cache, whatever happens to it meanwhile, and also when reads overtake
one another.

* `recency` — the keys that were read, those read last at the end.
* `Recent` — the key was read, and what was read since fits; `mem_within_recency_iff` says that this
  is where the queue of a cache ends.
* `Event`, `run`, `reads` — histories of a store behind caches, and the reads that gave something.
* `Kept`, `kept_run` — what every cache has in every state.
* `Exact`, `exact_run` — the queue of a cache as a function of the reads.
* `fromCache_iff_recent` — all of it together.
-/

import Mathlib.Algebra.BigOperators.Group.Finset.Basic
import Notary.Proofs.Store.Eviction

namespace Notary.Store

/-! ### The keys that were read last -/

section Recency

variable {κ : Type} [DecidableEq κ] {capacity : Nat} {value : κ → Bytes} {seen : List κ} {k : κ}

/-- The keys whose values fit by themselves, each where it was read last. -/
def recency (capacity : Nat) (value : κ → Bytes) (seen : List κ) : List κ :=
  (seen.filter fun k => (value k).length ≤ capacity).dedup

/-- The key was read and its value fits together with the values of all other keys that were read
since and fit by themselves. -/
def Recent (capacity : Nat) (value : κ → Bytes) (seen : List κ) (k : κ) : Prop :=
  ∃ earlier later, seen = earlier ++ k :: later ∧ k ∉ later ∧ (value k).length ≤ capacity ∧
    (∑ x ∈ (k :: later).toFinset with (value x).length ≤ capacity, (value x).length) ≤ capacity

theorem mem_recency_iff : k ∈ recency capacity value seen ↔
    k ∈ seen ∧ (value k).length ≤ capacity := by
  simp [recency]

theorem nodup_recency : (recency capacity value seen).Nodup := List.nodup_dedup _

/-- What is read once more moves to the end. -/
theorem dedup_append_singleton (keys : List κ) (k : κ) :
    (keys ++ [k]).dedup = keys.dedup.erase k ++ [k] := by
  induction keys with
  | nil => simp
  | cons first rest ih =>
    by_cases again : first ∈ rest
    · rw [List.cons_append, List.dedup_cons_of_mem (by simp [again]), ih,
        List.dedup_cons_of_mem again]
    · by_cases same : first = k
      · subst same
        have away : first ∉ rest.dedup := by simpa using again
        rw [List.cons_append, List.dedup_cons_of_mem (by simp), ih,
          List.dedup_cons_of_notMem again, List.erase_cons_head, List.erase_of_not_mem away]
      · rw [List.cons_append, List.dedup_cons_of_notMem (by simp [again, same]), ih,
          List.dedup_cons_of_notMem again, List.erase_cons_tail (by simpa using same),
          List.cons_append]

theorem recency_append_of_le (fits : (value k).length ≤ capacity) :
    recency capacity value (seen ++ [k]) = (recency capacity value seen).erase k ++ [k] := by
  simp [recency, List.filter_append, fits, dedup_append_singleton]

theorem recency_append_of_lt (large : capacity < (value k).length) :
    recency capacity value (seen ++ [k]) = recency capacity value seen := by
  simp [recency, List.filter_append, Nat.not_le.mpr large]

/-- Behind a key stand those that come after it. -/
theorem exists_dedup_eq (earlier : List κ) {later : List κ} (last : k ∉ later) :
    ∃ before, (earlier ++ k :: later).dedup = before ++ k :: later.dedup := by
  have suffix : (k :: later).dedup <:+ (earlier ++ k :: later).dedup := by
    rw [List.dedup_append]
    exact List.suffix_union_right _ _
  obtain ⟨before, whole⟩ := suffix
  exact ⟨before, by rw [← whole, List.dedup_cons_of_notMem last]⟩

/-- Behind a key stand those that were read after it. -/
theorem exists_recency_eq (earlier : List κ) {later : List κ} (last : k ∉ later)
    (fits : (value k).length ≤ capacity) :
    ∃ before, recency capacity value (earlier ++ k :: later) =
      before ++ k :: recency capacity value later := by
  have away : k ∉ later.filter fun x => (value x).length ≤ capacity := by simp [last]
  rw [recency, List.filter_append, List.filter_cons_of_pos (by simpa using fits)]
  exact exists_dedup_eq _ away

/-- What was read since a key, the key with it, weighs what its distinct keys weigh. -/
theorem weight_recency (later : List κ) (last : k ∉ later) (fits : (value k).length ≤ capacity) :
    weight (fun x => (value x).length) (k :: recency capacity value later) =
      ∑ x ∈ (k :: later).toFinset with (value x).length ≤ capacity, (value x).length := by
  have nodup : (k :: recency capacity value later).Nodup :=
    List.nodup_cons.mpr ⟨fun member => last (mem_recency_iff.mp member).1, nodup_recency⟩
  have same : (k :: recency capacity value later).toFinset =
      (k :: later).toFinset.filter fun x => (value x).length ≤ capacity := by
    ext x
    simp only [List.mem_toFinset, Finset.mem_filter, List.mem_cons, mem_recency_iff]
    grind
  rw [← same, weight, List.sum_toFinset _ nodup]

/-- A list in which an element is has it a last time. -/
theorem exists_last {keys : List κ} (member : k ∈ keys) :
    ∃ earlier later, keys = earlier ++ k :: later ∧ k ∉ later := by
  induction keys with
  | nil => simp at member
  | cons first rest ih =>
    by_cases again : k ∈ rest
    · obtain ⟨earlier, later, rfl, last⟩ := ih again
      exact ⟨first :: earlier, later, rfl, last⟩
    · obtain rfl : k = first := by simpa [again] using member
      exact ⟨[], rest, rfl, again⟩

/-- The end of the keys that fits holds those that were read lately. -/
theorem mem_within_recency_iff :
    k ∈ within capacity (fun x => (value x).length) (recency capacity value seen) ↔
      Recent capacity value seen k := by
  constructor
  · intro member
    obtain ⟨read, fits⟩ := mem_recency_iff.mp ((within_suffix _).subset member)
    obtain ⟨earlier, later, rfl, last⟩ := exists_last read
    obtain ⟨before, split⟩ := exists_recency_eq earlier last fits
    have nodup : (before ++ k :: recency capacity value later).Nodup := split ▸ nodup_recency
    rw [split, mem_within_iff nodup, weight_recency later last fits] at member
    exact ⟨earlier, later, rfl, last, fits, member⟩
  · rintro ⟨earlier, later, rfl, last, fits, room⟩
    obtain ⟨before, split⟩ := exists_recency_eq earlier last fits
    have nodup : (before ++ k :: recency capacity value later).Nodup := split ▸ nodup_recency
    rw [split, mem_within_iff nodup, weight_recency later last fits]
    exact room

end Recency

namespace ByteCache

variable {κ : Type} [DecidableEq κ] [Hashable κ] {capacity : Nat} {value : κ → Bytes}
  {seen : List κ} {c c' : ByteCache κ} {k : κ} {v : Bytes}

/-! ### What reads do to a cache -/

/-- A cache after a read: its value was there and was used, or it was put there. -/
def AfterRead (c : ByteCache κ) (k : κ) (v : Bytes) (c' : ByteCache κ) : Prop :=
  (c.entries[k]? = some v ∧ c' = c.touch k) ∨ c' = c.insert k v

/-- What a cache has in every state. -/
structure Kept (capacity : Nat) (c : ByteCache κ) : Prop where
  capacity_eq : c.capacity = capacity
  sound : c.Sound
  room : c.used ≤ capacity

theorem kept_empty (capacity : Nat) : Kept capacity ({ capacity : ByteCache κ }) where
  capacity_eq := rfl
  sound := sound_empty capacity
  room := Nat.zero_le _

theorem capacity_insert (sound : c.Sound) (k : κ) (v : Bytes) :
    (c.insert k v).capacity = c.capacity := by
  by_cases fits : v.length ≤ c.capacity
  · exact (trimmed_insert sound fits).capacity
  · rw [insert, if_pos (by omega)]

theorem Kept.afterRead (kept : Kept capacity c) (served : AfterRead c k v c') :
    Kept capacity c' := by
  obtain ⟨rfl, sound, room⟩ := kept
  rcases served with ⟨held, rfl⟩ | rfl
  · have member : k ∈ c.order := by
      rw [← sound.mem_iff, ← Std.HashMap.isSome_getElem?_iff_mem, held]
      rfl
    exact ⟨rfl, sound_touch sound member, room⟩
  · have same := capacity_insert sound k v
    obtain ⟨sound', room'⟩ := sound_insert sound room k v
    exact ⟨same, sound', same ▸ room'⟩

/-- After these reads a cache holds the values of its keys, and its queue is what fits of the keys
that were read. -/
structure Exact (capacity : Nat) (value : κ → Bytes) (seen : List κ) (c : ByteCache κ) : Prop where
  kept : Kept capacity c
  values : ∀ k v, c.entries[k]? = some v → v = value k
  order : c.order = within capacity (fun k => (value k).length) (recency capacity value seen)

theorem exact_empty (capacity : Nat) (value : κ → Bytes) :
    Exact capacity value [] ({ capacity : ByteCache κ }) where
  kept := kept_empty capacity
  values k v held := by simp at held
  order := rfl

theorem Exact.sizeAt_eq (exactly : Exact capacity value seen c) (member : k ∈ c.order) :
    c.sizeAt k = (value k).length := by
  rw [← exactly.kept.sound.mem_iff, ← Std.HashMap.isSome_getElem?_iff_mem,
    Option.isSome_iff_exists] at member
  obtain ⟨v, held⟩ := member
  rw [sizeAt_of_held held, exactly.values k v held]

theorem Exact.touch (exactly : Exact capacity value seen c) (held : c.entries[k]? = some v) :
    Exact capacity value (seen ++ [k]) (c.touch k) := by
  have member : k ∈ c.order := by
    rw [← exactly.kept.sound.mem_iff, ← Std.HashMap.isSome_getElem?_iff_mem, held]
    rfl
  refine ⟨exactly.kept.afterRead (.inl ⟨held, rfl⟩), exactly.values, ?_⟩
  have fits := (mem_recency_iff.mp ((within_suffix _).subset (exactly.order ▸ member))).2
  have room : weight (fun x => (value x).length) c.order ≤ capacity := by
    rw [exactly.order]
    exact weight_within_le _
  have weighs : (value k).length + weight (fun x => (value x).length) (c.order.erase k) =
      weight (fun x => (value x).length) c.order :=
    @weight_erase κ (fun x => (value x).length) _ k c.order member
  have same : weight (fun x => (value x).length) (c.order.erase k ++ [k]) ≤ capacity := by
    simp only [weight_append, weight_cons, weight_nil]
    omega
  rw [recency_append_of_le fits, ← within_move nodup_recency, ← exactly.order]
  exact (within_of_le same).symm

theorem Exact.insert (exactly : Exact capacity value seen c) (k : κ) :
    Exact capacity value (seen ++ [k]) (c.insert k (value k)) := by
  have kept := exactly.kept.afterRead (k := k) (v := value k) (.inr rfl)
  obtain rfl := exactly.kept.capacity_eq
  refine ⟨kept, ?_, ?_⟩
  · intro k' v held
    rcases entries_insert held with ⟨rfl, rfl⟩ | held
    · rfl
    · exact exactly.values k' v held
  · by_cases fits : (value k).length ≤ c.capacity
    · have sizes : ∀ x ∈ c.order.erase k ++ [k],
          (c.placed k (value k)).sizeAt x = (value x).length := by
        intro x member
        rw [sizeAt_placed]
        split
        · rename_i same
          rw [same]
        · rename_i other
          have behind : x ∈ c.order.erase k := by simpa [Ne.symm other] using member
          exact exactly.sizeAt_eq (List.mem_of_mem_erase behind)
      rw [(trimmed_insert exactly.kept.sound fits).order, recency_append_of_le fits,
        ← within_move nodup_recency, ← exactly.order]
      exact within_congr sizes
    · rw [recency_append_of_lt (Nat.not_le.mp fits), ← exactly.order, ByteCache.insert,
        if_pos (Nat.not_le.mp fits)]

/-- A read of a value of the cache's keys keeps the queue exact. -/
theorem Exact.afterRead (exactly : Exact capacity value seen c) (served : AfterRead c k v c')
    (same : v = value k) : Exact capacity value (seen ++ [k]) c' := by
  subst same
  rcases served with ⟨held, rfl⟩ | rfl
  · exact exactly.touch held
  · exact exactly.insert k

/-- What a cache holds is what was read lately. -/
theorem Exact.getElem?_eq (exactly : Exact capacity value seen c) (k : κ) :
    (Recent capacity value seen k → c.entries[k]? = some (value k)) ∧
      (¬ Recent capacity value seen k → c.entries[k]? = none) := by
  rw [← mem_within_recency_iff, ← exactly.order, ← exactly.kept.sound.mem_iff]
  constructor
  · intro member
    obtain ⟨v, held⟩ := Option.isSome_iff_exists.mp
      (Std.HashMap.isSome_getElem?_iff_mem.mpr member)
    rw [held, exactly.values k v held]
  · exact Std.HashMap.getElem?_eq_none

end ByteCache

namespace CachedStore

open ByteCache

/-! ### Histories -/

/-- One of the two caches. -/
inductive Side where
  | records
  | archives
deriving DecidableEq

def Side.pick {α : Type} : Side → α → α → α
  | .records, a, _ => a
  | .archives, _, b => b

section Histories

variable {σ : Type}

def Side.cache (side : Side) (s : CachedStore σ) : ByteCache ReadKey :=
  side.pick s.records s.archives

/-- An operation through the caches, anything that happens to the inner store meanwhile, or the end
of a read which asked the inner store when others were not yet done. -/
inductive Event (σ : Type) where
  | getRecord (type : String) (hash : Hash) (reader : PublicKey)
  | getArchive (hash : Hash) (reader : PublicKey)
  | putRecord (type : String) (bytes : Bytes) (signer owner : PublicKey) (audience : Readers)
  | inner (change : σ → σ)
  | finish (side : Side) (key : ReadKey) (bytes : Bytes)

/-- A read of the key, when it gave something. -/
def given (key : ReadKey) : Except Fault Bytes → Option (ReadKey × Bytes)
  | .ok bytes => some (key, bytes)
  | .error _ => none

/-- A read through a cache gives nothing and leaves the cache as it was, or serves its value. -/
theorem readThrough_cases (cache : ByteCache ReadKey) (key : ReadKey)
    (fetch : StateM σ (Except Fault Bytes)) (inner : σ) :
    (given key (readThrough cache key fetch inner).1 = none ∧
        (readThrough cache key fetch inner).2.1 = cache) ∨
      ∃ v, given key (readThrough cache key fetch inner).1 = some (key, v) ∧
        AfterRead cache key v (readThrough cache key fetch inner).2.1 := by
  cases held : cache.entries[key]? with
  | some v =>
    rw [readThrough_of_kept held]
    exact .inr ⟨v, rfl, .inl ⟨held, rfl⟩⟩
  | none =>
    unfold readThrough
    simp only [ByteCache.get, held]
    rcases fetch inner with ⟨answer, inner'⟩
    cases answer with
    | error e => exact .inl ⟨rfl, rfl⟩
    | ok v => exact .inr ⟨v, rfl, .inr rfl⟩

variable [ObjectStore σ]

/-- The store after an event. -/
def Event.apply (event : Event σ) (s : CachedStore σ) : CachedStore σ :=
  match event with
  | .getRecord type hash reader => (ObjectStore.getRecord type hash reader s).2
  | .getArchive hash reader => (ObjectStore.getArchive hash reader s).2
  | .putRecord type bytes signer owner audience =>
    (ObjectStore.putRecord type bytes signer owner audience s).2
  | .inner change => { s with inner := change s.inner }
  | .finish .records key bytes => { s with records := s.records.insert key bytes }
  | .finish .archives key bytes => { s with archives := s.archives.insert key bytes }

/-- The store that a history leaves. -/
def run (s : CachedStore σ) (history : List (Event σ)) : CachedStore σ :=
  history.foldl (fun s event => event.apply s) s

/-- The read that an event is for one of the caches, when it gives something. -/
def Event.read? (side : Side) (event : Event σ) (s : CachedStore σ) : Option (ReadKey × Bytes) :=
  match side, event with
  | .records, .getRecord type hash reader =>
    given (reader, hash) (ObjectStore.getRecord type hash reader s).1
  | .archives, .getArchive hash reader =>
    given (reader, hash) (ObjectStore.getArchive hash reader s).1
  | side, .finish other key bytes => if side = other then some (key, bytes) else none
  | _, _ => none

/-- The reads through one of the caches that gave something, in order. -/
def reads (side : Side) (s : CachedStore σ) : List (Event σ) → List (ReadKey × Bytes)
  | [] => []
  | event :: rest => (event.read? side s).toList ++ reads side (event.apply s) rest

/-- An event that is no read for a cache leaves it as it was; any other serves what it gives. -/
theorem cache_apply (side : Side) (event : Event σ) (s : CachedStore σ) :
    (event.read? side s = none ∧ side.cache (event.apply s) = side.cache s) ∨
      ∃ k v, event.read? side s = some (k, v) ∧
        AfterRead (side.cache s) k v (side.cache (event.apply s)) := by
  cases event with
  | getRecord type hash reader =>
    cases side with
    | records =>
      rcases readThrough_cases s.records (reader, hash)
        (ObjectStore.getRecord type hash reader) s.inner with failed | ⟨v, answer, served⟩
      · exact .inl failed
      · exact .inr ⟨_, v, answer, served⟩
    | archives => exact .inl ⟨rfl, rfl⟩
  | getArchive hash reader =>
    cases side with
    | records => exact .inl ⟨rfl, rfl⟩
    | archives =>
      rcases readThrough_cases s.archives (reader, hash)
        (ObjectStore.getArchive hash reader) s.inner with failed | ⟨v, answer, served⟩
      · exact .inl failed
      · exact .inr ⟨_, v, answer, served⟩
  | putRecord type bytes signer owner audience =>
    refine .inl ⟨by cases side <;> rfl, ?_⟩
    change side.cache (CachedStore.putRecord type bytes signer owner audience s).2 = _
    simp only [CachedStore.putRecord]
    split
    · rfl
    · cases side <;> rfl
  | inner change => exact .inl ⟨by cases side <;> rfl, by cases side <;> rfl⟩
  | finish other key bytes =>
    by_cases same : side = other
    · subst same
      refine .inr ⟨key, bytes, ?_, .inr ?_⟩ <;> cases side <;> rfl
    · refine .inl ⟨?_, ?_⟩ <;> cases side <;> cases other <;> first | rfl | exact absurd rfl same

/-- Every cache is kept in order, whatever happens. -/
theorem kept_run {side : Side} {s : CachedStore σ} {capacity : Nat}
    (kept : Kept capacity (side.cache s)) (history : List (Event σ)) :
    Kept capacity (side.cache (s.run history)) := by
  induction history generalizing s with
  | nil => exact kept
  | cons event rest ih =>
    refine ih (s := event.apply s) ?_
    rcases cache_apply side event s with ⟨-, same⟩ | ⟨k, v, -, served⟩
    · exact same ▸ kept
    · exact kept.afterRead served

/-- The queue of a cache is exact after any history in which the values of its keys do not
change. -/
theorem exact_run {side : Side} {s : CachedStore σ} {capacity : Nat} {value : ReadKey → Bytes}
    {seen : List ReadKey} (exactly : Exact capacity value seen (side.cache s))
    {history : List (Event σ)} (fixed : ∀ read ∈ reads side s history, read.2 = value read.1) :
    Exact capacity value (seen ++ (reads side s history).map (·.1))
      (side.cache (s.run history)) := by
  induction history generalizing s seen with
  | nil =>
    rw [reads, List.map_nil, List.append_nil]
    exact exactly
  | cons event rest ih =>
    unfold reads at fixed ⊢
    rcases cache_apply side event s with ⟨nothing, same⟩ | ⟨k, v, read, served⟩
    · rw [nothing] at fixed ⊢
      exact ih (same ▸ exactly) fixed
    · rw [read] at fixed ⊢
      simp only [Option.toList_some, List.cons_append, List.nil_append, List.forall_mem_cons]
        at fixed
      rw [List.map_append, ← List.append_assoc]
      exact ih (exactly.afterRead served fixed.1) fixed.2

/-! ### The next read -/

/-- The next read of the key gives the value that is held, without a question to the inner store. -/
def FromCache (cache : ByteCache ReadKey) (key : ReadKey) (v : Bytes) : Prop :=
  ∀ (τ : Type) (fetch : StateM τ (Except Fault Bytes)) (inner : τ),
    readThrough cache key fetch inner = (.ok v, cache.touch key, inner)

/-- The next read of the key gives what the inner store says when it is asked. -/
def FromInner (cache : ByteCache ReadKey) (key : ReadKey) : Prop :=
  ∀ (τ : Type) (fetch : StateM τ (Except Fault Bytes)) (inner : τ),
    (readThrough cache key fetch inner).1 = (fetch inner).1 ∧
      (readThrough cache key fetch inner).2.2 = (fetch inner).2

/-- What is in order in a cache of so many bytes. -/
structure Orderly (capacity : Nat) (cache : ByteCache ReadKey) : Prop where
  /-- The queue lists each key that is held once, and nothing else. -/
  nodup : cache.order.Nodup
  mem_order_iff : ∀ key, key ∈ cache.order ↔ key ∈ cache.entries
  /-- The count is that of the bytes that are held, and they are not too many. -/
  used_eq : cache.used = (cache.entries.toList.map fun held => held.2.length).sum
  used_le : cache.used ≤ capacity
  /-- No insertion takes more from the count than there is. -/
  never_below : ∀ key v, cache.insert? key v = some (cache.insert key v)

theorem orderly_of_kept {capacity : Nat} {cache : ByteCache ReadKey} (kept : Kept capacity cache) :
    Orderly capacity cache where
  nodup := kept.sound.nodup
  mem_order_iff key := (kept.sound.mem_iff key).symm
  used_eq := kept.sound.sum_toList.symm
  used_le := kept.room
  never_below := insert?_eq kept.sound

theorem fromCache_of_held {cache : ByteCache ReadKey} {key : ReadKey} {v : Bytes}
    (held : cache.entries[key]? = some v) : FromCache cache key v :=
  fun _ fetch inner => readThrough_of_kept held fetch inner

theorem fromInner_of_missing {cache : ByteCache ReadKey} {key : ReadKey}
    (missing : cache.entries[key]? = none) : FromInner cache key :=
  fun _ fetch inner => readThrough_of_not_kept missing fetch inner

/-- A read does not come from both. -/
theorem not_fromInner_of_fromCache {cache : ByteCache ReadKey} {key : ReadKey} {v : Bytes}
    (fromCache : FromCache cache key v) : ¬ FromInner cache key := by
  intro fromInner
  let fetch : StateM Bool (Except Fault Bytes) := fun _ => (.ok v, true)
  have asked := (fromInner Bool fetch false).2
  rw [fromCache Bool fetch false] at asked
  exact Bool.false_ne_true asked

/-- After any history the caches are in order. When the values of keys do not change, the next read
of a key is answered from the cache exactly if the key was read lately. -/
theorem fromCache_iff_recent (inner : σ) (recordBytes archiveBytes : Nat)
    (history : List (Event σ)) (side : Side) :
    let s := (new inner recordBytes archiveBytes).run history
    let seen := reads side (new inner recordBytes archiveBytes) history
    let capacity := side.pick recordBytes archiveBytes
    Orderly capacity (side.cache s) ∧
      ∀ value : ReadKey → Bytes, (∀ read ∈ seen, read.2 = value read.1) → ∀ key,
        (FromCache (side.cache s) key (value key) ↔ Recent capacity value (seen.map (·.1)) key) ∧
          (FromInner (side.cache s) key ↔ ¬ Recent capacity value (seen.map (·.1)) key) := by
  intro s seen capacity
  have empty : side.cache (new inner recordBytes archiveBytes) = { capacity } := by
    cases side <;> rfl
  refine ⟨orderly_of_kept (kept_run (empty ▸ kept_empty capacity) history), ?_⟩
  intro value fixed key
  have exactly : Exact capacity value ([] ++ seen.map (·.1)) (side.cache s) :=
    exact_run (empty ▸ exact_empty capacity value) fixed
  obtain ⟨held, missing⟩ := exactly.getElem?_eq key
  by_cases recent : Recent capacity value (seen.map (·.1)) key
  · have fromCache := fromCache_of_held (held recent)
    exact ⟨iff_of_true fromCache recent,
      iff_of_false (not_fromInner_of_fromCache fromCache) (not_not_intro recent)⟩
  · have fromInner := fromInner_of_missing (missing recent)
    exact ⟨iff_of_false (fun fromCache => not_fromInner_of_fromCache fromCache fromInner) recent,
      iff_of_true fromInner recent⟩

end Histories

namespace Cabinet

/-- The hashes of an archive of two bytes and of one of a single byte. -/
def large : Hash := contentHash [1, 1]

def small : Hash := contentHash [2]

theorem small_ne_large : small ≠ large := by decide +kernel

def value (key : ReadKey) : Bytes := if key.2 = large then [1, 1] else [2]

/-- A store of the two archives. -/
def stored : MemoryStore where
  objects := (Std.HashMap.insert {} large ⟨.archive, [1, 1], .everyone, none⟩).insert small
    ⟨.archive, [2], .everyone, none⟩

theorem lookup_stored {key : ReadKey} (known : key.2 = large ∨ key.2 = small) :
    stored.lookup key.2 key.1 .archive = .ok (value key) := by
  have found : stored.objects[key.2]? = some ⟨.archive, value key, .everyone, none⟩ := by
    rw [stored, value]
    rcases known with same | same
    · rw [same, Std.HashMap.getElem?_insert, if_neg (by simpa using small_ne_large),
        Std.HashMap.getElem?_insert_self, if_pos rfl]
    · rw [same, Std.HashMap.getElem?_insert_self, if_neg small_ne_large]
  exact MemoryStore.lookup_of_admits found rfl .archive

/-- The two archives are behind the cache, and what it holds of them is right. -/
structure Stocked (s : CachedStore MemoryStore) : Prop where
  objects : s.inner.objects = stored.objects
  values : ∀ key v, s.archives.entries[key]? = some v → v = value key

theorem Stocked.getArchive {s : CachedStore MemoryStore} (stocked : Stocked s) {key : ReadKey}
    (known : key.2 = large ∨ key.2 = small) :
    (ObjectStore.getArchive key.2 key.1 s).1 = .ok (value key) ∧
      Stocked (ObjectStore.getArchive key.2 key.1 s).2 := by
  have through : ObjectStore.getArchive key.2 key.1 s =
      ((readThrough s.archives key (ObjectStore.getArchive key.2 key.1) s.inner).1,
        { s with
          archives := (readThrough s.archives key (ObjectStore.getArchive key.2 key.1) s.inner).2.1
          inner := (readThrough s.archives key (ObjectStore.getArchive key.2 key.1) s.inner).2.2 }) :=
    rfl
  rw [through]
  cases held : s.archives.entries[key]? with
  | some v =>
    obtain rfl := stocked.values key v held
    rw [readThrough_of_kept held]
    exact ⟨rfl, stocked.objects, stocked.values⟩
  | none =>
    have answer : ObjectStore.getArchive key.2 key.1 s.inner =
        (.ok (value key), { s.inner with reads := s.inner.reads + 1 }) := by
      have same : s.inner.lookup key.2 key.1 .archive = .ok (value key) := by
        rw [← lookup_stored known, MemoryStore.lookup, MemoryStore.lookup, stocked.objects]
      rw [← same]
      rfl
    simp only [readThrough, ByteCache.get, held, answer]
    refine ⟨trivial, stocked.objects, fun k v kept => ?_⟩
    rcases entries_insert kept with ⟨rfl, rfl⟩ | kept
    · rfl
    · exact stocked.values k v kept

/-- Every read of the two archives gives something, from the cache or from the store. -/
theorem reads_eq {keys : List ReadKey} (known : ∀ key ∈ keys, key.2 = large ∨ key.2 = small)
    {s : CachedStore MemoryStore} (stocked : Stocked s) :
    reads .archives s (keys.map fun key => .getArchive key.2 key.1) =
      keys.map fun key => (key, value key) := by
  induction keys generalizing s with
  | nil => rfl
  | cons key rest ih =>
    rw [List.forall_mem_cons] at known
    obtain ⟨answer, later⟩ := stocked.getArchive known.1
    have first : Event.read? .archives (.getArchive key.2 key.1) s = some (key, value key) := by
      change given key (ObjectStore.getArchive key.2 key.1 s).1 = _
      rw [answer]
      rfl
    rw [List.map_cons, reads, first, List.map_cons]
    exact congrArg _ (ih known.2 later)

/-- Another reader. -/
def other : PublicKey := ⟨List.replicate 32 7, rfl⟩

theorem zero_ne_other : FixedBytes.zero ≠ other := by decide

/-- The first archive is read, then the second, the first once more, and the first by another
reader. -/
def keys : List ReadKey :=
  [(FixedBytes.zero, large), (FixedBytes.zero, small), (FixedBytes.zero, large), (other, large)]

theorem within_of_ne {l s : Hash} (different : s ≠ l) :
    let value : ReadKey → Bytes := fun key => if key.2 = l then [1, 1] else [2]
    within 4 (fun key => (value key).length)
        (recency 4 value
          [(FixedBytes.zero, l), (FixedBytes.zero, s), (FixedBytes.zero, l), (other, l)]) =
      [(FixedBytes.zero, l), (other, l)] := by
  simp [recency, within, different, different.symm, zero_ne_other]

theorem within_keys : within 4 (fun key => (value key).length) (recency 4 value keys) =
    [(FixedBytes.zero, large), (other, large)] := within_of_ne small_ne_large

end Cabinet

open Cabinet in
/-- Of an archive of two bytes and one of a single byte, a cache of four bytes keeps the larger one,
when that is read again before a third value comes in. -/
theorem larger_kept_when_read_again :
    let s := (new stored 0 4).run (keys.map fun key => .getArchive key.2 key.1)
    (∀ read ∈ reads .archives (new stored 0 4) (keys.map fun key => .getArchive key.2 key.1),
        read.2 = value read.1) ∧
      FromCache s.archives (FixedBytes.zero, large) [1, 1] ∧
      FromInner s.archives (FixedBytes.zero, small) := by
  have known : ∀ key ∈ keys, key.2 = large ∨ key.2 = small := by simp [keys]
  have stocked : Stocked (new stored 0 4) := ⟨rfl, fun key v held => by simp [new] at held⟩
  have read := reads_eq known stocked
  have fixed : ∀ read ∈ reads .archives (new stored 0 4)
      (keys.map fun key => .getArchive key.2 key.1), read.2 = value read.1 := by
    rw [read]
    intro given member
    obtain ⟨key, -, rfl⟩ := List.mem_map.mp member
    rfl
  obtain ⟨-, exactly⟩ := fromCache_iff_recent stored 0 4
    (keys.map fun key => .getArchive key.2 key.1) .archives
  have seen : (reads .archives (new stored 0 4)
      (keys.map fun key => .getArchive key.2 key.1)).map (·.1) = keys := by
    rw [read, List.map_map]
    exact List.map_id keys
  replace exactly := exactly value fixed
  have capacity : Side.archives.pick 0 4 = 4 := rfl
  simp only [seen, capacity, ← mem_within_recency_iff, within_keys] at exactly
  refine ⟨fixed, ?_, ?_⟩
  · have held : value (FixedBytes.zero, large) = [1, 1] := if_pos rfl
    rw [← held]
    refine (exactly (FixedBytes.zero, large)).1.mpr ?_
    exact List.mem_cons_self
  · refine (exactly (FixedBytes.zero, small)).2.mpr ?_
    simp [small_ne_large]

end CachedStore

end Notary.Store
