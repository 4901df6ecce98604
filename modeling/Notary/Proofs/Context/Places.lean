/-
Places of contexts.

A cache never gives a place to two keys: a key that has left gets a new place when it is requested
again.

* `context_request`, `context_setContext` — the contexts behind a request and behind a change.
* `Owned`, `owned_request` — every place belongs to the key for which it was made.
-/

import Notary.Context.Cache

namespace Notary.Context.ContextCache

/-! ### Contexts -/

/-- Asking for a context changes none; a new one is like a place where there is none. -/
theorem context_request (cache : ContextCache) (key : CacheKey) (j : Nat) :
    (cache.request key).2.2.context j = cache.context j := by
  unfold request
  cases cache.entries.lookup key with
  | some i => rfl
  | none =>
    simp only [context, List.getElem?_append]
    split
    · rfl
    · rename_i outside
      rw [List.getElem?_eq_none (Nat.le_of_not_lt outside)]
      cases j - cache.contexts.length <;> rfl

theorem context_setContext (cache : ContextCache) (i j : Nat) (c : Context) :
    (cache.setContext i c).context j = cache.context j ∨
      i = j ∧ (cache.setContext i c).context j = c := by
  simp only [setContext, context, List.getElem?_set]
  by_cases same : i = j
  · by_cases inside : i < cache.contexts.length
    · exact .inr ⟨same, by simp [same, same ▸ inside]⟩
    · left
      subst same
      simp [inside]
  · exact .inl (by simp [same])

/-- The first context of a new cache is found again under its key. -/
theorem context_setContext_new (capacity : Nat) (key : CacheKey) (c : Context) :
    let cache := ((new capacity).request key).2.2.setContext ((new capacity).request key).1 c
    cache.context (cache.request key).1 = c := by
  have room : 1 ≤ max capacity 1 := Nat.le_max_right _ _
  simp [request, new, evict, room, setContext, context]

/-! ### Keys -/

/-- Eviction adds no entry. -/
theorem mem_of_mem_evict {capacity : Nat} {entries : List (CacheKey × Nat)} {queue : List CacheKey}
    {entry : CacheKey × Nat} (member : entry ∈ (evict capacity entries queue).1) :
    entry ∈ entries := by
  induction queue generalizing entries with
  | nil => exact member
  | cons key rest ih =>
    unfold evict at member
    split at member
    · exact member
    · exact (List.mem_filter.mp (ih member)).1

/-- A key either has its place already, or it gets the first place that is free. -/
theorem request_cases (cache : ContextCache) (key : CacheKey) :
    ((key, (cache.request key).1) ∈ cache.entries ∧
        (cache.request key).2.2.entries = cache.entries ∧
        (cache.request key).2.2.contexts.length = cache.contexts.length) ∨
      ((cache.request key).1 = cache.contexts.length ∧
        (∀ entry ∈ (cache.request key).2.2.entries,
          entry ∈ cache.entries ∨ entry = (key, cache.contexts.length)) ∧
        (cache.request key).2.2.contexts.length = cache.contexts.length + 1) := by
  unfold request
  cases found : cache.entries.lookup key with
  | some i =>
    obtain ⟨before, behind, split, -⟩ := List.lookup_eq_some_iff.mp found
    exact .inl ⟨by simp [split], rfl, rfl⟩
  | none =>
    refine .inr ⟨rfl, ?_, by simp⟩
    intro entry member
    simpa using mem_of_mem_evict member

/-- Every cached place is that of a context, and belongs to the key of its entry. -/
def Owned (cache : ContextCache) (owner : Nat → CacheKey) : Prop :=
  ∀ entry ∈ cache.entries, entry.2 < cache.contexts.length ∧ owner entry.2 = entry.1

theorem Owned.setContext {cache : ContextCache} {owner : Nat → CacheKey}
    (owned : cache.Owned owner) (i : Nat) (c : Context) : (cache.setContext i c).Owned owner := by
  intro entry member
  obtain ⟨inside, owns⟩ := owned entry member
  exact ⟨by simpa [ContextCache.setContext] using inside, owns⟩

/-- A request gives a place that belongs to the key, and no place to another owner. -/
theorem owned_request {cache : ContextCache} {owner : Nat → CacheKey} (owned : cache.Owned owner)
    (key : CacheKey) :
    ∃ owner', (cache.request key).2.2.Owned owner' ∧ owner' (cache.request key).1 = key ∧
      (cache.request key).1 < (cache.request key).2.2.contexts.length ∧
      cache.contexts.length ≤ (cache.request key).2.2.contexts.length ∧
      ∀ j < cache.contexts.length, owner' j = owner j := by
  rcases cache.request_cases key with ⟨member, entries, contexts⟩ | ⟨place, entries, contexts⟩
  · obtain ⟨inside, owns⟩ := owned _ member
    refine ⟨owner, ?_, owns, contexts ▸ inside, Nat.le_of_eq contexts.symm, fun _ _ => rfl⟩
    intro entry held
    rw [entries] at held
    rw [contexts]
    exact owned entry held
  · refine ⟨fun j => if j = cache.contexts.length then key else owner j, ?_, ?_, ?_, ?_, ?_⟩
    · intro entry held
      rcases entries entry held with old | rfl
      · obtain ⟨inside, owns⟩ := owned entry old
        exact ⟨by omega, (if_neg (Nat.ne_of_lt inside)).trans owns⟩
      · exact ⟨by omega, if_pos rfl⟩
    · simp [place]
    · omega
    · omega
    · intro j inside
      exact if_neg (Nat.ne_of_lt inside)

end Notary.Context.ContextCache
