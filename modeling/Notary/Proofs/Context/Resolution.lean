/-
Names over a whole history: the first hit stays, and a miss is never kept.

What a context answers depends on when it was asked. Only the calls for a name count, and of these
only the earliest one at which a scope held it; so an archive that comes later changes no answer
that was given, and a name that the host has and has handed to no provider is the host's for good.

* `hit?` — the first scope that holds a name, in the order for it.
* `calls` — the contexts at which a history resolves a name.
* `answer_after` — the answer is the earliest success among the calls, whatever fails between them.
* `answer_of_earliest_call` — the answer as a hit or a miss, and what no later step can change.
* `answers_beside_archive` — a name that an archive and the host both hold.
-/

import Notary.Proofs.Context.Roots

namespace Notary.Context

open Notary.Symbol

/-! ### Hits -/

/-- The first scope that holds a name, in the order for it, with what it holds. -/
def hit? (c : Context) (s : Surroundings) (name : String) : Option Resolved :=
  (order s.registries name).findSome? fun origin =>
    (c.findIn s name origin).toOption.join.map (⟨name, origin, ·⟩)

/-- The archives can be read where a name is looked for. -/
def Readable (c : Context) (name : String) : Prop := ∀ e, c.find name ≠ .error e

/-- Where nothing fails, a search gives the first hit, or there is none. -/
theorem search_of_readable {c : Context} {name : String} (readable : c.Readable name)
    (s : Surroundings) (origins : List Origin) :
    (c.search s name origins).result =
      match origins.findSome? fun origin =>
        (c.findIn s name origin).toOption.join.map (⟨name, origin, ·⟩) with
      | some r => .ok r
      | none => .error (.notFound name) := by
  induction origins with
  | nil => rfl
  | cons origin rest ih =>
    rw [search, List.findSome?_cons]
    cases here : c.findIn s name origin with
    | error e =>
      cases origin with
      | isolated => exact absurd here (readable e)
      | parent => cases here
      | global => cases here
    | ok held =>
      cases held with
      | none => exact ih
      | some target => rfl

theorem sought_of_readable {c : Context} {name : String} (readable : c.Readable name)
    (s : Surroundings) :
    c.sought s name =
      match c.hit? s name with
      | some r => .ok r
      | none => .error (.notFound name) :=
  search_of_readable readable s _

/-- What a search finds where nothing fails is the first hit. -/
theorem findSome?_sought {name : String} {asked : List Context}
    (readable : ∀ call ∈ asked, call.Readable name) (s : Surroundings) :
    asked.findSome? (fun call => (call.sought s name).toOption) =
      asked.findSome? (·.hit? s name) := by
  induction asked with
  | nil => rfl
  | cons call rest ih =>
    rw [List.findSome?_cons, List.findSome?_cons, sought_of_readable (readable call (by simp)),
      ih fun later member => readable later (by simp [member])]
    cases call.hit? s name <;> rfl

/-- A name that the host is asked for first is the host's if the host has it. -/
theorem sought_of_host {s : Surroundings} {name : String} {target : Target}
    (hosts : (isReserved name || !s.registries.claims name) = true)
    (held : s.host.find? name = some target) (c : Context) :
    c.sought s name = .ok ⟨name, .parent, target⟩ := by
  rw [sought, order, if_pos hosts, search, findIn, held]

/-! ### Calls -/

/-- The contexts at which a history resolves a name. -/
def calls (s : Surroundings) (name : String) : Context → List Step → List Context
  | _, [] => []
  | c, step :: rest =>
    (if step = .resolve name then [c] else []) ++ calls s name (step.apply s c) rest

theorem calls_append (s : Surroundings) (name : String) (c : Context) (first later : List Step) :
    calls s name c (first ++ later) =
      calls s name c first ++ calls s name (c.after s first) later := by
  induction first generalizing c with
  | nil => rfl
  | cons step rest ih =>
    rw [List.cons_append, calls, calls, ih, List.append_assoc]
    rfl

theorem calls_eq_nil {s : Surroundings} {name : String} {history : List Step}
    (never : .resolve name ∉ history) (c : Context) : calls s name c history = [] := by
  induction history generalizing c with
  | nil => rfl
  | cons step rest ih =>
    obtain ⟨other, later⟩ := List.ne_and_not_mem_of_not_mem_cons never
    rw [calls, if_neg (Ne.symm other), ih later, List.append_nil]

/-- A step keeps a name only when it resolves the name, and finds it. -/
theorem recalled?_apply (s : Surroundings) (step : Step) (c : Context) (name : String) :
    (step.apply s c).recalled? name =
      (c.recalled? name).or
        (if step = .resolve name then (c.answer s name).toOption else none) := by
  cases step with
  | register hash bytes =>
    rw [if_neg Step.noConfusion, Option.or_none, Step.apply]
    rcases register_cases c s hash bytes with ⟨e, failed⟩ | ⟨r, -, done⟩
    · rw [failed]
    · rw [done]
      rfl
  | resolve n =>
    rw [Step.apply, recalled?_resolve]
    by_cases same : n = name
    · rw [if_pos same, if_pos (same ▸ rfl), same]
    · rw [if_neg same, if_neg fun equal => same (Step.resolve.inj equal)]

/-- The answer after a history: what is kept, else the earliest success among the calls for the
name, else what the scopes hold now. -/
theorem answer_after (s : Surroundings) (name : String) (c : Context) (history : List Step) :
    (c.after s history).answer s name =
      match (c.recalled? name).or
        ((calls s name c history).findSome? fun call => (call.sought s name).toOption) with
      | some r => .ok r
      | none => (c.after s history).sought s name := by
  induction history generalizing c with
  | nil =>
    rw [after, List.foldl_nil, calls, List.findSome?_nil, Option.or_none]
    exact answer_eq ..
  | cons step rest ih =>
    rw [after, List.foldl_cons, ← after, ih, recalled?_apply, calls, List.findSome?_append,
      Option.or_assoc]
    cases kept : c.recalled? name with
    | some r => rfl
    | none =>
      by_cases called : step = .resolve name
      · rw [if_pos called, if_pos called, answer_eq, kept, List.findSome?_singleton]
      · rw [if_neg called, if_neg called, List.findSome?_nil]

/-- A kept name is answered alike after everything that follows. -/
theorem answer_after_of_recalled {c : Context} {name : String} {r : Resolved}
    (kept : c.recalled? name = some r) (s : Surroundings) (history : List Step) :
    (c.after s history).answer s name = .ok r := by
  rw [answer_after, kept, Option.some_or]

/-- What a call answers is kept when it is a hit, and a name is kept only then. -/
theorem recalled?_resolve_self (c : Context) (s : Surroundings) (name : String) :
    (c.resolve s name).2.recalled? name = (c.answer s name).toOption := by
  rw [recalled?_resolve, if_pos rfl, answer_eq]
  cases c.recalled? name with
  | some r => rfl
  | none => rfl

/-- For a new context, any history and any name: when the archives could be read at each call for
the name, this one included, the answer is the first hit at the earliest call that had any, and
when there was none the name is not found. A hit stays the answer after everything that follows. A
name that was missed is looked for again when it is next resolved, and found if a scope has come to
hold it. A name that the host is asked for first is always the host's if the host has it. -/
theorem answer_of_earliest_call (s : Surroundings) (history : List Step) (name : String) :
    let c := Context.empty.after s history
    let asked := calls s name .empty (history ++ [.resolve name])
    ((∀ call ∈ asked, call.Readable name) →
        c.answer s name =
          match asked.findSome? (·.hit? s name) with
          | some r => .ok r
          | none => .error (.notFound name)) ∧
      (∀ r, c.answer s name = .ok r →
        ∀ later, ((c.resolve s name).2.after s later).answer s name = .ok r) ∧
      (∀ e, c.answer s name = .error e → ∀ later, .resolve name ∉ later →
        let c' := (c.resolve s name).2.after s later
        c'.Readable name → ∀ r, c'.hit? s name = some r → c'.answer s name = .ok r) ∧
      ((isReserved name || !s.registries.claims name) = true →
        ∀ target, s.host.find? name = some target →
          c.answer s name = .ok ⟨name, .parent, target⟩) := by
  intro c asked
  refine ⟨?_, ?_, ?_, ?_⟩
  · intro readable
    have split : asked = calls s name .empty history ++ [c] := by
      simp only [asked, calls_append, calls, if_true, List.append_nil, c]
    have now : c.sought s name = _ := sought_of_readable (readable c (by simp [split])) s
    have before : ∀ call ∈ calls s name .empty history, call.Readable name :=
      fun call member => readable call (by simp [split, member])
    rw [answer_after, findSome?_sought before, now, split, List.findSome?_append,
      List.findSome?_singleton]
    cases (calls s name .empty history).findSome? (·.hit? s name) <;> rfl
  · intro r answered later
    refine answer_after_of_recalled ?_ s later
    rw [recalled?_resolve_self, answered]
    rfl
  · intro e missed later never c' readable r found
    rw [answer_after, calls_eq_nil never, recalled?_resolve_self, missed]
    exact (sought_of_readable readable s).trans (by rw [found])
  · intro hosts target held
    rw [answer_after, sought_of_host hosts held]
    cases found : (calls s name .empty history).findSome? fun call =>
        (call.sought s name).toOption with
    | none => rfl
    | some r =>
      obtain ⟨call, -, same⟩ := List.exists_of_findSome?_eq_some found
      rw [sought_of_host hosts held] at same
      cases same
      rfl

/-! ### A name with two holders -/

namespace TwoHolders

/-- An archive with one entry, `p/C.wasm`. -/
def archive : Bytes :=
  [80, 75, 3, 4, 20, 0, 0, 0, 0, 0, 0, 0, 33, 0, 27, 223, 5, 165, 1, 0, 0, 0, 1, 0, 0, 0, 8, 0, 0,
   0, 112, 47, 67, 46, 119, 97, 115, 109, 1, 80, 75, 1, 2, 20, 0, 20, 0, 0, 0, 0, 0, 0, 0, 33, 0,
   27, 223, 5, 165, 1, 0, 0, 0, 1, 0, 0, 0, 8, 0, 0, 0, 0, 0, 0, 0, 0, 0, 0, 0, 128, 1, 0, 0, 0, 0,
   112, 47, 67, 46, 119, 97, 115, 109, 80, 75, 5, 6, 0, 0, 0, 0, 1, 0, 1, 0, 54, 0, 0, 0, 39, 0, 0,
   0, 0, 0]

def entry : Archive.Entry := ⟨"p/C.wasm", false, .stored, 2768625435, some [1]⟩

theorem ofBytes?_archive : Archive.ofBytes? archive = some [entry] := by
  decide +kernel

/-- The archive when it is registered. -/
def kept : Registered where
  hashes := [.zero]
  roots := [[entry]]
  modules := [("p.C", ⟨0, "p/C.wasm"⟩)]

/-- The context behind the archive. -/
def filled : Context := { registered := kept }

/-- The host has a module of the same name. -/
def around (registries : Registries) : Surroundings where
  host := { modules := [("p.C", [2])] }
  global := {}
  registries := registries

theorem add_archive (r : Registries) :
    Registered.add {} (around r) .zero archive = .ok kept := by
  have scanned : Archive.scan true archive =
      some { entries := [entry], modules := [("p.C", "p/C.wasm")] } := by
    rw [Archive.scan, ofBytes?_archive]
    rfl
  have root : Registered.addRoot {} (around r) true .zero archive =
      .ok ({ kept with hashes := [] }, []) := by
    have writable : (around r).canWrite = true := rfl
    simp only [Registered.addRoot, writable, scanned]
    rfl
  have nested : (around r).options.readNestedArchives = true := rfl
  have some : archive.isEmpty = false := rfl
  simp only [Registered.add, nested, root, some]
  rfl

theorem find_kept : kept.find "p.C" = .ok (some (.module [1])) := by
  have place : kept.modules.lookup "p.C" = some ⟨0, "p/C.wasm"⟩ := rfl
  have content : Archive.read? [entry] "p/C.wasm" = some [1] := by decide +kernel
  have root : kept.roots[0]? = some [entry] := rfl
  simp only [Registered.find, place, root, content]

/-- The name is the archive's for those who ask the context first. -/
def claimed : Registries := { contracts := { roots := ["p.C"] } }

/-- The archive comes, and nothing else. -/
def history : List Step := [.register .zero archive]

theorem after_history (r : Registries) : Context.empty.after (around r) history = filled := by
  have stepped : Context.empty.register (around r) .zero archive = (.ok (), filled) := by
    have added : Registered.add Context.empty.registered (around r) .zero archive = .ok kept :=
      add_archive r
    rw [register, added]
    rfl
  change (Context.empty.register (around r) .zero archive).2 = _
  rw [stepped]

end TwoHolders

open TwoHolders in
/-- A name that the host and an archive both have. Asked behind the archive, a context that is asked
first has it from there. Asked in front of it as well, the name stays the host's, and so it is in
any case when nobody claims it. -/
theorem answers_beside_archive :
    claimed.claims "p.C" = true ∧ (around {}).host.find? "p.C" = some (.module [2]) ∧
      (∀ call ∈ calls (around claimed) "p.C" .empty (history ++ [.resolve "p.C"]),
        call.Readable "p.C") ∧
      (Context.empty.after (around claimed) history).answer (around claimed) "p.C" =
        .ok ⟨"p.C", .isolated, .module [1]⟩ ∧
      (Context.empty.after (around claimed) (.resolve "p.C" :: history)).answer (around claimed)
        "p.C" = .ok ⟨"p.C", .parent, .module [2]⟩ ∧
      (Context.empty.after (around {}) history).answer (around {}) "p.C" =
        .ok ⟨"p.C", .parent, .module [2]⟩ := by
  have claims : claimed.claims "p.C" = true := by decide
  have asked : calls (around claimed) "p.C" .empty (history ++ [.resolve "p.C"]) =
      [filled] := by
    rw [calls_append, after_history]
    rfl
  have readable : ∀ call ∈ calls (around claimed) "p.C" .empty (history ++ [.resolve "p.C"]),
      call.Readable "p.C" := by
    rw [asked]
    intro call member e failed
    obtain rfl := List.mem_singleton.mp member
    rw [find, filled, find_kept] at failed
    cases failed
  have hit : hit? filled (around claimed) "p.C" =
      some ⟨"p.C", .isolated, .module [1]⟩ := by
    have order : order (around claimed).registries "p.C" = [.isolated, .parent, .global] := by
      decide
    have here : findIn filled (around claimed) "p.C" .isolated =
        .ok (some (.module [1])) := find_kept
    rw [hit?, order, List.findSome?_cons, here]
    rfl
  have first := (answer_of_earliest_call (around claimed) history "p.C").1 readable
  have early : Context.empty.answer (around claimed) "p.C" = .ok ⟨"p.C", .parent, .module [2]⟩ :=
    rfl
  have stays := (answer_of_earliest_call (around claimed) [] "p.C").2.1 _ early history
  have hosts := (answer_of_earliest_call (around {}) history "p.C").2.2.2 (by decide) _ rfl
  have asked' : Context.empty.after (around claimed) (.resolve "p.C" :: history) =
      ((Context.empty.after (around claimed) []).resolve (around claimed) "p.C").2.after
        (around claimed) history := by
    rw [after, List.foldl_cons]
    rfl
  refine ⟨claims, rfl, readable, ?_, ?_, hosts⟩
  · rw [first, asked, List.findSome?_singleton, hit]
  · rw [asked']
    exact stays

end Notary.Context
