/-
What a context answers.

A context keeps every name that it resolved, and a kept name is not looked for again. Which names it
keeps depends on what it was asked; what it answers does not, as long as no archive is registered.

* `Context.answer` — what a name resolves to.
* `recalled?_resolve` — the names that a context keeps after it resolved one more.
* `answer_resolve` — resolving a name changes no answer.
-/

import Notary.Context.Basic

namespace Notary.Context

open Notary.Symbol

/-- What a name resolves to. -/
def answer (c : Context) (s : Surroundings) (name : String) : Except Fault Resolved :=
  (c.resolve s name).1.result

/-- What the scopes hold under a name, asked in the order for it. -/
def sought (c : Context) (s : Surroundings) (name : String) : Except Fault Resolved :=
  (c.search s name (order s.registries name)).result

/-! ### Searches -/

theorem search_congr {c c' : Context} (same : c.registered = c'.registered) (s : Surroundings)
    (name : String) (origins : List Origin) :
    c.search s name origins = c'.search s name origins := by
  induction origins with
  | nil => rfl
  | cons origin rest ih =>
    have here : c.findIn s name origin = c'.findIn s name origin := by
      cases origin with
      | isolated => simp only [findIn, find, same]
      | parent => rfl
      | global => rfl
    simp only [search, here, ih]

theorem sought_congr {c c' : Context} (same : c.registered = c'.registered) (s : Surroundings)
    (name : String) : c.sought s name = c'.sought s name := by
  rw [sought, sought, search_congr same]

theorem name_of_search {c : Context} {s : Surroundings} {name : String} {origins : List Origin}
    {r : Resolved} (found : (c.search s name origins).result = .ok r) : r.name = name := by
  induction origins with
  | nil => simp [search] at found
  | cons origin rest ih =>
    unfold search at found
    cases here : c.findIn s name origin with
    | error e => simp [here] at found
    | ok target =>
      cases target with
      | none => exact ih (by simpa [here] using found)
      | some target =>
        obtain rfl : ⟨name, origin, target⟩ = r := by simpa [here] using found
        rfl

/-! ### Kept names -/

/-- A kept name is answered as before, any other name by a search. -/
theorem answer_eq (c : Context) (s : Surroundings) (name : String) :
    c.answer s name =
      match c.recalled? name with
      | some r => .ok r
      | none => c.sought s name := by
  unfold answer resolve sought
  cases c.recalled? name with
  | some r => rfl
  | none =>
    cases found : (c.search s name (order s.registries name)).result with
    | error e => simp [found]
    | ok r => simp [found]

@[simp] theorem registered_resolve (c : Context) (s : Surroundings) (name : String) :
    (c.resolve s name).2.registered = c.registered := by
  unfold resolve
  cases c.recalled? name with
  | some r => rfl
  | none => cases found : (c.search s name (order s.registries name)).result <;> simp [found]

/-- A hit is kept unless its name is kept already; nothing else changes. -/
theorem recalled?_resolve (c : Context) (s : Surroundings) (n name : String) :
    (c.resolve s n).2.recalled? name =
      (c.recalled? name).or (if n = name then (c.answer s n).toOption else none) := by
  rw [answer_eq]
  unfold resolve sought
  cases kept : c.recalled? n with
  | some r =>
    by_cases same : n = name
    · subst same
      simp [kept]
    · simp [same]
  | none =>
    cases found : (c.search s n (order s.registries n)).result with
    | error e => simp [found, Except.toOption]
    | ok r =>
      have named := name_of_search found
      simp only [recalled?, found, List.find?_append, Except.toOption]
      by_cases same : n = name <;> simp [named, same]

/-- Resolving a name changes no answer. -/
theorem answer_resolve (c : Context) (s : Surroundings) (n name : String) :
    (c.resolve s n).2.answer s name = c.answer s name := by
  rw [answer_eq, answer_eq c s name, recalled?_resolve,
    sought_congr (registered_resolve c s n) s name]
  cases kept : c.recalled? name with
  | some r => rfl
  | none =>
    by_cases same : n = name
    · subst same
      rw [answer_eq, kept]
      cases c.sought s n <;> simp [Except.toOption]
    · simp [same]

end Notary.Context
