/-
Which contexts a cache keeps, and which context a request is given.

The queue of a cache names the keys that were requested last, as many different ones as there is
room for. So a context is found again exactly if fewer other keys were requested since its key was,
and every context is either cached or has been reported when it left.

* `latest` — the keys that were requested last; `mem_latest_iff` says when a key is among them.
* `trimmed_evict` — eviction takes what is too much from the front of the queue.
* `Use`, `after`, `visits` — histories of a cache, and the requests in them with their answers.
* `Kept`, `kept_after` — what a cache has after every history.
* `Answered`, `Dismissed`, `Accounted` — the next answer, the keys that leave for it, and the
  contexts that have left; `latest_kept_of_history` says all of it.
-/

import Notary.Context.Cache
import Notary.Proofs.Store.Recency

namespace Notary.Context

open Notary.Store

/-! ### The keys that were requested last -/

section Latest

theorem weight_one {κ : Type} (keys : List κ) : weight (fun _ => 1) keys = keys.length := by
  simp [weight]

/-- Keys that weigh one each fit as long as there are no more of them than there is room for. -/
theorem within_one {κ : Type} (room : Nat) (keys : List κ) :
    within room (fun _ => 1) keys = keys.drop (keys.length - room) := by
  induction keys with
  | nil => simp [within]
  | cons first rest ih =>
    rw [within, weight_one]
    split
    · rename_i fits
      rw [Nat.sub_eq_zero_of_le fits, List.drop_zero]
    · rename_i full
      have more : (first :: rest).length - room = rest.length - room + 1 := by
        rw [List.length_cons] at full ⊢
        omega
      rw [ih, more, List.drop_succ_cons]

variable {κ : Type} [DecidableEq κ] {room : Nat} {seen : List κ} {k : κ}

/-- So many different keys that were requested last, each where it was requested last. -/
def latest (room : Nat) (seen : List κ) : List κ := seen.dedup.drop (seen.dedup.length - room)

theorem nodup_latest : (latest room seen).Nodup := (List.nodup_dedup _).sublist (List.drop_sublist _ _)

theorem length_latest_le : (latest room seen).length ≤ room := by
  rw [latest, List.length_drop]
  omega

/-- A request moves its key to the end. Who keeps only the latest keys needs no others for that. -/
theorem latest_append (room : Nat) (seen : List κ) (k : κ) :
    latest room (seen ++ [k]) = ((latest room seen).erase k ++ [k]).drop
      (((latest room seen).erase k ++ [k]).length - room) := by
  rw [latest, dedup_append_singleton, ← within_one, ← within_move (List.nodup_dedup _), within_one,
    within_one, latest]

/-- A key is among the latest when fewer others were requested since than there is room for. -/
theorem mem_latest_iff (earlier : List κ) {later : List κ} (last : k ∉ later) :
    k ∈ latest room (earlier ++ k :: later) ↔ later.toFinset.card < room := by
  obtain ⟨before, split⟩ := exists_dedup_eq earlier last
  have nodup : (before ++ k :: later.dedup).Nodup := split ▸ List.nodup_dedup _
  rw [latest, ← within_one, split, mem_within_iff nodup, weight_one, List.length_cons,
    List.card_toFinset]
  exact Nat.succ_le_iff

theorem mem_of_mem_latest (member : k ∈ latest room seen) : k ∈ seen :=
  List.mem_dedup.mp (List.mem_of_mem_drop member)

end Latest

namespace ContextCache

/-! ### Eviction -/

/-- Eviction takes keys from the front of a queue, and the entries of these keys, until what is left
is no more than there is room for. -/
structure Trimmed (capacity : Nat) (entries : List (CacheKey × Nat)) (queue : List CacheKey)
    (left : List (CacheKey × Nat) × List CacheKey × List (CacheKey × Nat)) : Prop where
  queue_eq : left.2.1 = queue.drop (queue.length - capacity)
  keys_eq : left.2.2.map (·.1) ++ left.2.1 = queue
  perm : (left.2.2 ++ left.1).Perm entries

theorem trimmed_evict {capacity : Nat} {entries : List (CacheKey × Nat)} {queue : List CacheKey}
    (keys : (entries.map (·.1)).Perm queue) (nodup : queue.Nodup) :
    Trimmed capacity entries queue (evict capacity entries queue) := by
  induction queue generalizing entries with
  | nil => exact ⟨by simp [evict], rfl, .refl _⟩
  | cons key rest ih =>
    have size : entries.length = rest.length + 1 := by simpa using keys.length_eq
    unfold evict
    split
    · rename_i fits
      exact ⟨by simp [← size, Nat.sub_eq_zero_of_le fits], rfl, .refl _⟩
    · rename_i full
      obtain ⟨away, nodup⟩ := List.nodup_cons.mp nodup
      have gone : (entries.filter fun e => e.1 == key).map (·.1) = [key] := by
        have alone : (key :: rest).filter (· == key) = [key] := by
          rw [List.filter_cons_of_pos (by simp), List.filter_eq_nil_iff.mpr]
          intro k member
          simpa using ne_of_mem_of_not_mem member away
        have found := keys.filter (· == key)
        rw [alone, List.perm_singleton, List.filter_map] at found
        exact found
      have left : ((entries.filter fun e => e.1 != key).map (·.1)).Perm rest := by
        have others : (key :: rest).filter (· != key) = rest := by
          rw [List.filter_cons_of_neg (by simp), List.filter_eq_self.mpr]
          intro k member
          simpa using ne_of_mem_of_not_mem member away
        have found := keys.filter (· != key)
        rw [others, List.filter_map] at found
        exact found
      obtain ⟨queue_eq, keys_eq, perm⟩ := ih left nodup
      have more : (key :: rest).length - capacity = rest.length - capacity + 1 := by
        rw [List.length_cons]
        omega
      refine ⟨?_, ?_, ?_⟩
      · rw [more, List.drop_succ_cons]
        exact queue_eq
      · simp only [List.map_append, List.append_assoc, gone]
        rw [keys_eq, List.singleton_append]
      · simp only [List.append_assoc]
        exact (perm.append_left _).trans (List.filter_append_perm _ entries)

/-! ### Histories -/

/-- What happens around a cache: a context is requested, or one that was handed out is changed. -/
inductive Use where
  | request (key : CacheKey)
  | change (place : Nat) (context : Context)

/-- A request with its answer: the place of the context, and the entries that left for it. -/
structure Visit where
  key : CacheKey
  place : Nat
  gone : List (CacheKey × Nat)

/-- The request of a key. -/
def visit (c : ContextCache) (key : CacheKey) : Visit :=
  ⟨key, (c.request key).1, (c.request key).2.1⟩

/-- The cache after a use. -/
def Use.apply (c : ContextCache) : Use → ContextCache
  | .request key => (c.request key).2.2
  | .change place context => c.setContext place context

/-- The cache that a history leaves. -/
def after (c : ContextCache) (history : List Use) : ContextCache := history.foldl Use.apply c

/-- The requests of a history with their answers, in order. -/
def visits (c : ContextCache) : List Use → List Visit
  | [] => []
  | .request key :: rest => c.visit key :: (c.request key).2.2.visits rest
  | .change place context :: rest => (c.setContext place context).visits rest

/-- The last request of a key. -/
def last? (visits : List Visit) (key : CacheKey) : Option Visit :=
  (visits.filter (·.key = key)).getLast?

theorem last?_append_singleton (visits : List Visit) (v : Visit) (key : CacheKey) :
    last? (visits ++ [v]) key = if v.key = key then some v else last? visits key := by
  unfold last?
  split <;> simp [*]

theorem last?_of_split {earlier between : List Visit} {v : Visit} {key : CacheKey}
    (same : v.key = key) (last : key ∉ between.map (·.key)) :
    last? (earlier ++ v :: between) key = some v := by
  have none : between.filter (·.key = key) = [] := by
    rw [List.filter_eq_nil_iff]
    intro w member
    simpa using ne_of_mem_of_not_mem (List.mem_map_of_mem member) last
  simp [last?, same, none]

/-- What a cache with so much room has after these visits. -/
structure Kept (room : Nat) (visits : List Visit) (c : ContextCache) : Prop where
  capacity_eq : c.capacity = room
  queue_eq : c.queue = latest room (visits.map (·.key))
  /-- Every key in the queue has one entry, and no other key has any. -/
  keys : (c.entries.map (·.1)).Perm c.queue
  /-- An entry is what the last request of its key was given. -/
  recalled : ∀ e ∈ c.entries, (last? visits e.1).map (·.place) = some e.2
  /-- Every context that was made has left once, or is cached. -/
  made : ((visits.flatMap (·.gone) ++ c.entries).map (·.2)).Perm (List.range c.contexts.length)
  /-- What left or is cached is what requests were given. -/
  given : ∀ e, e ∈ visits.flatMap (·.gone) ++ c.entries ↔ e ∈ visits.map fun v => (v.key, v.place)

theorem kept_new (capacity : Nat) : Kept (max capacity 1) [] (new capacity) where
  capacity_eq := rfl
  queue_eq := by simp [latest, new]
  keys := .refl _
  recalled e member := by simp [new] at member
  made := .refl _
  given e := by simp [new]

variable {room : Nat} {visits : List Visit} {c : ContextCache} {key : CacheKey} {i : Nat}

theorem Kept.setContext (kept : Kept room visits c) (place : Nat) (context : Context) :
    Kept room visits (c.setContext place context) where
  capacity_eq := kept.capacity_eq
  queue_eq := kept.queue_eq
  keys := kept.keys
  recalled := kept.recalled
  made := by simpa [ContextCache.setContext] using kept.made
  given := kept.given

theorem Kept.nodup_queue (kept : Kept room visits c) : c.queue.Nodup :=
  kept.queue_eq ▸ nodup_latest

theorem Kept.nodup_keys (kept : Kept room visits c) : (c.entries.map (·.1)).Nodup :=
  kept.keys.nodup_iff.mpr kept.nodup_queue

/-- A key is cached when it has an entry. -/
theorem lookup_eq_some_iff (nodup : (c.entries.map (·.1)).Nodup) :
    c.entries.lookup key = some i ↔ (key, i) ∈ c.entries := by
  constructor
  · intro found
    obtain ⟨before, behind, split, -⟩ := List.lookup_eq_some_iff.mp found
    simp [split]
  · intro member
    obtain ⟨before, behind, split⟩ := List.append_of_mem member
    refine List.lookup_eq_some_iff.mpr ⟨before, behind, split, ?_⟩
    rw [split, List.map_append, List.nodup_append] at nodup
    intro e member
    have other := nodup.2.2 e.1 (List.mem_map_of_mem member) key (by simp)
    simpa [bne_iff_ne] using other.symm

theorem lookup_eq_none_iff : c.entries.lookup key = none ↔ key ∉ c.entries.map (·.1) := by
  rw [List.lookup_eq_none_iff, List.mem_map]
  constructor
  · rintro missing ⟨e, member, rfl⟩
    simpa using missing e member
  · intro missing e member
    simpa using fun same => missing ⟨e, member, same.symm⟩

/-! ### One request -/

/-- What a request does to a cache. -/
structure Turned (c : ContextCache) (key : CacheKey) (v : Visit) (c' : ContextCache) : Prop where
  key_eq : v.key = key
  capacity_eq : c'.capacity = c.capacity
  queue_eq : c'.queue =
    (c.queue.erase key ++ [key]).drop ((c.queue.erase key ++ [key]).length - c.capacity)
  /-- The keys that leave are those at the front, in their order. -/
  left_eq : v.gone.map (·.1) ++ c'.queue = c.queue.erase key ++ [key]
  keys : (c'.entries.map (·.1)).Perm c'.queue
  /-- The context of the key was cached, or is made. -/
  outcome :
    ((key, v.place) ∈ c.entries ∧ v.gone = [] ∧ c'.entries = c.entries ∧
        c'.contexts = c.contexts) ∨
      (key ∉ c.entries.map (·.1) ∧ v.place = c.contexts.length ∧
        (v.gone ++ c'.entries).Perm (c.entries ++ [(key, v.place)]) ∧
        c'.contexts = c.contexts ++ [.empty])

theorem Kept.length_queue_le (kept : Kept room visits c) : c.queue.length ≤ c.capacity := by
  rw [kept.queue_eq, kept.capacity_eq]
  exact length_latest_le

theorem turned_of_cached (kept : Kept room visits c) (found : c.entries.lookup key = some i) :
    Turned c key (c.visit key) (c.request key).2.2 := by
  have request : c.request key = (i, [], { c with queue := c.queue.erase key ++ [key] }) := by
    rw [ContextCache.request, found]
  have entry : (key, i) ∈ c.entries := (lookup_eq_some_iff kept.nodup_keys).mp found
  have member : key ∈ c.queue := kept.keys.subset (List.mem_map_of_mem entry)
  have moved : c.queue.Perm (c.queue.erase key ++ [key]) :=
    (List.perm_cons_erase member).trans (List.perm_append_singleton _ _).symm
  have fits : (c.queue.erase key ++ [key]).length ≤ c.capacity :=
    moved.length_eq ▸ kept.length_queue_le
  rw [visit, request]
  refine ⟨rfl, rfl, ?_, rfl, kept.keys.trans moved, .inl ⟨entry, rfl, rfl, rfl⟩⟩
  rw [Nat.sub_eq_zero_of_le fits, List.drop_zero]

theorem turned_of_missing (kept : Kept room visits c) (missing : c.entries.lookup key = none) :
    Turned c key (c.visit key) (c.request key).2.2 := by
  have away : key ∉ c.entries.map (·.1) := lookup_eq_none_iff.mp missing
  have unqueued : key ∉ c.queue := fun member => away (kept.keys.symm.subset member)
  have keys : ((c.entries ++ [(key, c.contexts.length)]).map (·.1)).Perm (c.queue ++ [key]) := by
    rw [List.map_append]
    exact kept.keys.append_right [key]
  have nodup : (c.queue ++ [key]).Nodup :=
    List.nodup_append.mpr ⟨kept.nodup_queue, List.nodup_singleton key,
      fun k member k' single => by
        rw [List.mem_singleton.mp single]
        exact ne_of_mem_of_not_mem member unqueued⟩
  have trimmed := @trimmed_evict c.capacity _ _ keys nodup
  have request : c.request key =
      (c.contexts.length,
        (evict c.capacity (c.entries ++ [(key, c.contexts.length)]) (c.queue ++ [key])).2.2,
        { c with
          entries := (evict c.capacity (c.entries ++ [(key, c.contexts.length)])
            (c.queue ++ [key])).1
          queue := (evict c.capacity (c.entries ++ [(key, c.contexts.length)])
            (c.queue ++ [key])).2.1
          contexts := c.contexts ++ [.empty] }) := by
    rw [ContextCache.request, missing]
  generalize evict c.capacity (c.entries ++ [(key, c.contexts.length)]) (c.queue ++ [key]) = left
    at trimmed request
  obtain ⟨queue_eq, left_eq, perm⟩ := trimmed
  have kept : (left.1.map (·.1)).Perm left.2.1 := by
    have whole := (perm.map (·.1)).trans (left_eq ▸ keys)
    rw [List.map_append] at whole
    exact (List.perm_append_left_iff _).mp whole
  rw [visit, request]
  rw [← List.erase_of_not_mem unqueued] at queue_eq left_eq
  exact ⟨rfl, rfl, queue_eq, left_eq, kept, .inr ⟨away, rfl, perm, rfl⟩⟩

theorem turned_request (kept : Kept room visits c) (key : CacheKey) :
    Turned c key (c.visit key) (c.request key).2.2 := by
  cases found : c.entries.lookup key with
  | some i => exact turned_of_cached kept found
  | none => exact turned_of_missing kept found

/-- What is cached before a request or given to it is cached behind it or leaves. -/
theorem Turned.mem_iff {v : Visit} {c' : ContextCache} (turned : Turned c key v c')
    (e : CacheKey × Nat) : e ∈ v.gone ++ c'.entries ↔ e ∈ c.entries ∨ e = (key, v.place) := by
  rcases turned.outcome with ⟨entry, gone, entries, -⟩ | ⟨-, -, perm, -⟩
  · rw [gone, entries, List.nil_append, iff_self_or]
    rintro rfl
    exact entry
  · rw [perm.mem_iff, List.mem_append, List.mem_singleton]

/-- The entry of the key is the one that the request was given. -/
theorem Turned.eq_of_key_eq {v : Visit} {c' : ContextCache} (turned : Turned c key v c')
    (nodup : (c.entries.map (·.1)).Nodup) {e : CacheKey × Nat} (member : e ∈ v.gone ++ c'.entries)
    (same : e.1 = key) : e = (key, v.place) := by
  refine ((turned.mem_iff e).mp member).elim (fun old => ?_) id
  rcases turned.outcome with ⟨entry, -⟩ | ⟨away, -⟩
  · exact List.inj_on_of_nodup_map nodup old entry same
  · exact absurd (same ▸ List.mem_map_of_mem old) away

theorem Kept.place_lt (kept : Kept room visits c) {e : CacheKey × Nat}
    (member : e ∈ visits.flatMap (·.gone) ++ c.entries) : e.2 < c.contexts.length :=
  List.mem_range.mp (kept.made.subset (List.mem_map_of_mem member))

/-- One more request keeps all this. -/
theorem Kept.append {v : Visit} {c' : ContextCache} (kept : Kept room visits c)
    (turned : Turned c key v c') : Kept room (visits ++ [v]) c' where
  capacity_eq := turned.capacity_eq.trans kept.capacity_eq
  queue_eq := by
    rw [turned.queue_eq, kept.queue_eq, kept.capacity_eq, List.map_append, List.map_singleton,
      turned.key_eq, latest_append]
  keys := turned.keys
  recalled := by
    intro e member
    have behind : e ∈ v.gone ++ c'.entries := List.mem_append_right _ member
    rw [last?_append_singleton, turned.key_eq]
    split
    · rename_i same
      rw [turned.eq_of_key_eq kept.nodup_keys behind same.symm]
      rfl
    · rename_i other
      rcases (turned.mem_iff e).mp behind with old | rfl
      · exact kept.recalled e old
      · exact absurd rfl other
  made := by
    rw [List.flatMap_append, List.flatMap_singleton, List.append_assoc, List.map_append]
    rcases turned.outcome with ⟨-, gone, entries, contexts⟩ | ⟨-, place, perm, contexts⟩
    · rw [gone, entries, contexts, List.nil_append, ← List.map_append]
      exact kept.made
    · have more := (perm.map (·.2)).append_left ((visits.flatMap (·.gone)).map (·.2))
      refine more.trans ?_
      rw [List.map_append, ← List.append_assoc, ← List.map_append, contexts, List.length_append,
        List.length_singleton, List.range_succ, place]
      exact kept.made.append_right _
  given := by
    intro e
    have before := kept.given e
    have turn := turned.mem_iff e
    rw [List.mem_append] at before turn
    simp only [List.flatMap_append, List.flatMap_singleton, List.append_assoc, List.mem_append,
      List.map_append, List.map_singleton, List.mem_singleton, turned.key_eq, ← before, turn]
    exact or_assoc.symm

/-- A history keeps all this, since every use in it does. -/
theorem Kept.after (kept : Kept room visits c) (history : List Use) :
    Kept room (visits ++ c.visits history) (c.after history) := by
  induction history generalizing c visits with
  | nil =>
    rw [ContextCache.visits, List.append_nil]
    exact kept
  | cons use rest ih =>
    cases use with
    | change place context => exact ih (kept.setContext place context)
    | request key =>
      have later := ih (kept.append (turned_request kept key))
      rwa [List.append_assoc] at later

theorem kept_after (capacity : Nat) (history : List Use) :
    Kept (max capacity 1) ((new capacity).visits history) ((new capacity).after history) :=
  (kept_new capacity).after history

/-! ### The next request -/

theorem exists_last_visit (member : key ∈ visits.map (·.key)) :
    ∃ earlier v between, visits = earlier ++ v :: between ∧ v.key = key ∧
      key ∉ between.map (·.key) := by
  obtain ⟨before, behind, split, last⟩ := exists_last member
  obtain ⟨earlier, tail, rfl, rfl, rest⟩ := List.map_eq_append_iff.mp split
  obtain ⟨v, between, rfl, same, rfl⟩ := List.map_eq_cons_iff.mp rest
  exact ⟨earlier, v, between, rfl, same, last⟩

theorem Kept.mem_queue_iff (kept : Kept room visits c) {earlier between : List Visit} {v : Visit}
    (split : visits = earlier ++ v :: between) (same : v.key = key)
    (last : key ∉ between.map (·.key)) :
    key ∈ c.queue ↔ (between.map (·.key)).toFinset.card < room := by
  rw [kept.queue_eq, split, List.map_append, List.map_cons, same]
  exact mem_latest_iff _ last

/-- The keys in a cache are those that were requested last. -/
structure Filled (room : Nat) (seen : List CacheKey) (c : ContextCache) : Prop where
  /-- The queue names them, the one that was requested longest ago in front. -/
  queue_eq : c.queue = latest room seen
  nodup : c.queue.Nodup
  /-- Each of them has one entry, and nothing else has any. -/
  keys : (c.entries.map (·.1)).Perm c.queue
  contains_iff : ∀ key, c.contains key = true ↔ key ∈ c.queue
  size_eq : c.size = min room seen.toFinset.card

/-- What the next request of a key is given. -/
structure Answered (room : Nat) (visits : List Visit) (c : ContextCache) (key : CacheKey) :
    Prop where
  /-- The context that the last request of the key was given, exactly if fewer other keys were
  requested in between than there is room for. -/
  same_iff : ∀ earlier v between, visits = earlier ++ v :: between → v.key = key →
    key ∉ between.map (·.key) →
      ((c.request key).1 = v.place ↔ (between.map (·.key)).toFinset.card < room)
  /-- In every other case an empty context that nobody was given before. -/
  made : (∀ earlier v between, visits = earlier ++ v :: between → v.key = key →
    key ∉ between.map (·.key) → room ≤ (between.map (·.key)).toFinset.card) →
      (c.request key).1 ∉ visits.map (·.place) ∧
        (c.request key).2.2.contexts = c.contexts ++ [.empty] ∧
        (c.request key).1 = c.contexts.length

/-- What leaves a cache when a key is requested. -/
structure Dismissed (c : ContextCache) (key : CacheKey) : Prop where
  /-- The keys that leave are those that were requested longest ago, reported in this order. -/
  order : (c.request key).2.1.map (·.1) ++ (c.request key).2.2.queue = c.queue.erase key ++ [key]
  /-- What is reported is what leaves. -/
  mem_iff : ∀ e, e ∈ (c.request key).2.1 ↔ e ∈ c.entries ∧ e ∉ (c.request key).2.2.entries

/-- Where the contexts are that were made. -/
structure Accounted (visits : List Visit) (c : ContextCache) : Prop where
  /-- Each was reported once, or is cached. -/
  once : ((visits.flatMap (·.gone) ++ c.entries).map (·.2)).Perm (List.range c.contexts.length)
  /-- Each was reported, or is cached, with the key for which it was given out. -/
  own : ∀ e, e ∈ visits.flatMap (·.gone) ++ c.entries ↔ e ∈ visits.map fun v => (v.key, v.place)

theorem Kept.filled (kept : Kept room visits c) : Filled room (visits.map (·.key)) c where
  queue_eq := kept.queue_eq
  nodup := kept.nodup_queue
  keys := kept.keys
  contains_iff key := by
    rw [ContextCache.contains, ← kept.keys.mem_iff, Option.isSome_iff_ne_none, ne_eq,
      lookup_eq_none_iff, not_not]
  size_eq := by
    have size : c.size = c.queue.length := by simpa [ContextCache.size] using kept.keys.length_eq
    rw [size, kept.queue_eq, latest, List.length_drop, List.card_toFinset]
    omega

theorem Kept.answered (kept : Kept room visits c) (key : CacheKey) :
    Answered room visits c key := by
  have turned := turned_request kept key
  have given : ∀ v ∈ visits, v.place < c.contexts.length := by
    intro v member
    exact kept.place_lt ((kept.given (v.key, v.place)).mpr
      (List.mem_map_of_mem (f := fun v => (v.key, v.place)) member))
  rcases turned.outcome with ⟨entry, -⟩ | ⟨away, place, -, contexts⟩
  · have queued : key ∈ c.queue := kept.keys.subset (List.mem_map_of_mem entry)
    refine ⟨?_, ?_⟩
    · intro earlier v between split same last
      have recalled := kept.recalled _ entry
      rw [split, last?_of_split same last] at recalled
      exact iff_of_true (Option.some.inj recalled).symm ((kept.mem_queue_iff split same last).mp queued)
    · intro never
      have requested : key ∈ visits.map (·.key) := mem_of_mem_latest (kept.queue_eq ▸ queued)
      obtain ⟨earlier, v, between, split, same, last⟩ := exists_last_visit requested
      have few := (kept.mem_queue_iff split same last).mp queued
      exact absurd few (Nat.not_lt.mpr (never earlier v between split same last))
  · have unqueued : key ∉ c.queue := fun member => away (kept.keys.symm.subset member)
    refine ⟨?_, ?_⟩
    · intro earlier v between split same last
      have inside := given v (by simp [split])
      refine iff_of_false (fun again => ?_) (mt (kept.mem_queue_iff split same last).mpr unqueued)
      exact absurd (place.symm.trans again) (Nat.ne_of_gt inside)
    · intro _
      refine ⟨fun member => ?_, contexts, place⟩
      obtain ⟨v, held, again⟩ := List.mem_map.mp member
      exact absurd (again.trans place) (Nat.ne_of_lt (given v held))

theorem Kept.dismissed (kept : Kept room visits c) (some : 0 < room) (key : CacheKey) :
    Dismissed c key := by
  have turned := turned_request kept key
  have later := kept.append turned
  have nodup : (c.queue.erase key ++ [key]).Nodup :=
    List.nodup_append.mpr ⟨kept.nodup_queue.erase key, List.nodup_singleton key,
      fun k member k' single => by
        rw [List.mem_singleton.mp single]
        exact ne_of_mem_of_not_mem member kept.nodup_queue.not_mem_erase⟩
  have apart : ∀ e ∈ (c.visit key).gone, e.1 ∉ (c.request key).2.2.queue := by
    intro e member queued
    rw [← turned.left_eq] at nodup
    exact (List.nodup_append.mp nodup).2.2 e.1 (List.mem_map_of_mem member) e.1 queued rfl
  -- The key itself stays, since it is the last in the queue and there is room for one.
  have stays : key ∈ (c.request key).2.2.queue := by
    rw [later.queue_eq, List.map_append, List.map_singleton, turned.key_eq]
    exact (mem_latest_iff _ List.not_mem_nil).mpr (by simpa using some)
  refine ⟨turned.left_eq, fun e => ?_⟩
  constructor
  · intro member
    refine ⟨?_, fun held => apart e member (turned.keys.subset (List.mem_map_of_mem held))⟩
    rcases (turned.mem_iff e).mp (List.mem_append_left _ member) with old | rfl
    · exact old
    · exact absurd stays (apart _ member)
  · rintro ⟨old, missing⟩
    have behind := (turned.mem_iff e).mpr (.inl old)
    exact (List.mem_append.mp behind).resolve_right missing

/-- After any history a cache holds the keys that were requested last, the next request is given the
context of its key if that is among them, and a new one otherwise, and every context that leaves is
reported once, with its key, when it leaves. -/
theorem latest_kept_of_history (capacity : Nat) (history : List Use) :
    let room := max capacity 1
    let c := (new capacity).after history
    let visits := (new capacity).visits history
    Filled room (visits.map (·.key)) c ∧
      (∀ key, Answered room visits c key ∧ Dismissed c key) ∧ Accounted visits c := by
  intro room c visits
  have kept : Kept room visits c := kept_after capacity history
  have some : 0 < room := Nat.lt_of_lt_of_le Nat.one_pos (Nat.le_max_right _ _)
  exact ⟨kept.filled, fun key => ⟨kept.answered key, kept.dismissed some key⟩,
    kept.made, kept.given⟩

/-- With room for two contexts, the key that was not requested again makes room for the third. -/
example :
    let key (n : Nat) : CacheKey := ⟨FixedBytes.ofNat 32 n⟩
    ((new 2).visits ([1, 2, 1, 3].map fun n => .request (key n))).map (fun v => (v.place, v.gone)) =
      [(0, []), (1, []), (0, []), (2, [(key 2, 1)])] := by
  decide

end ContextCache

end Notary.Context
