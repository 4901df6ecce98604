/-
The roots of a context, and the order in which they are searched.

An archive becomes a root behind all roots before it, and the archives inside it become roots behind
it. A symbol keeps the root and the entry that defined it first. So the archives that a history of
registrations adds say what a context holds: a name is the first module of that name in the order of
the roots, and the message type of the name when there is no such module.

* `Step`, `after` — histories of registrations and of names that are resolved.
* `rootsOf`, `searchOrder` — the roots of an archive, and those of all archives that a history adds.
* `Registered.Searches` — what is registered are these roots, with the first module of each symbol
  and the schemas of all of them.
* `find_in_search_order` — registering is done as a whole or not at all, and the first root that
  defines a name is what is found.
-/

import Notary.Proofs.Archive.Contents
import Notary.Proofs.Context.Answers
import Notary.Proofs.Context.Hashes

namespace Notary.Context

open Notary.Archive Notary.Symbol

/-! ### Histories -/

/-- An archive is registered, or a name is resolved. -/
inductive Step where
  | register (hash : Hash) (bytes : Bytes)
  | resolve (name : String)
deriving DecidableEq

/-- The context after a step. -/
def Step.apply (s : Surroundings) (step : Step) (c : Context) : Context :=
  match step with
  | .register hash bytes => (c.register s hash bytes).2
  | .resolve name => (c.resolve s name).2

/-- The context that a history leaves. -/
def after (c : Context) (s : Surroundings) (history : List Step) : Context :=
  history.foldl (fun c step => step.apply s c) c

/-- The content that a step adds: that of an archive whose registration succeeds, when its hash is
new and there is any content. -/
def Step.added? (s : Surroundings) (c : Context) : Step → Option Bytes
  | .register hash bytes =>
    match (c.register s hash bytes).1 with
    | .ok () => if c.isRegistered hash || bytes.isEmpty then none else some bytes
    | .error _ => none
  | .resolve _ => none

/-- The archives that a history adds, in the order of their registrations. -/
def added (s : Surroundings) : Context → List Step → List Bytes
  | _, [] => []
  | c, step :: rest => (step.added? s c).toList ++ added s (step.apply s c) rest

/-- The roots of an archive: its own entries, and then those of each archive inside it. -/
def rootsOf (s : Surroundings) (bytes : Bytes) : List (List Entry) :=
  match Archive.ofBytes? bytes with
  | none => []
  | some es => es :: (nestedIn s.options.readNestedArchives es).filterMap Archive.ofBytes?

/-- The roots of all archives that a history adds to a new context. -/
def searchOrder (s : Surroundings) (history : List Step) : List (List Entry) :=
  (added s .empty history).flatMap (rootsOf s)

/-! ### Roots and modules -/

/-- The place is that of the first entry that defines the symbol, in the first root that has one. -/
def First (roots : List (List Entry)) (symbol : String) (p : Place) : Prop :=
  ∃ es e, roots[p.root]? = some es ∧ es.find? (·.defines symbol) = some e ∧ e.name = p.entry ∧
    ∀ earlier ∈ roots.take p.root, earlier.find? (·.defines symbol) = none

theorem find?_flatten_eq_none {roots : List (List Entry)} {symbol : String}
    (missing : ∀ es ∈ roots, es.find? (·.defines symbol) = none) :
    roots.flatten.find? (·.defines symbol) = none := by
  induction roots with
  | nil => rfl
  | cons es rest ih =>
    rw [List.flatten_cons, List.find?_append, missing es (by simp), Option.none_or]
    exact ih fun es' member => missing es' (by simp [member])

/-- The first place of a symbol is that of the entry which comes first in all roots. -/
theorem First.find?_flatten {roots : List (List Entry)} {symbol : String} {p : Place}
    (first : First roots symbol p) :
    ∃ es e, roots[p.root]? = some es ∧ e ∈ es ∧ e.name = p.entry ∧
      roots.flatten.find? (·.defines symbol) = some e := by
  obtain ⟨es, e, root, found, name, earlier⟩ := first
  refine ⟨es, e, root, List.mem_of_find?_eq_some found, name, ?_⟩
  obtain ⟨inside, rfl⟩ := List.getElem?_eq_some_iff.mp root
  have split : roots = roots.take p.root ++ roots[p.root] :: roots.drop (p.root + 1) := by simp
  rw [split, List.flatten_append, List.find?_append, find?_flatten_eq_none earlier,
    Option.none_or, List.flatten_cons, List.find?_append, found, Option.some_or]

/-- A place stays the first when roots come behind all others. -/
theorem First.append {roots : List (List Entry)} {symbol : String} {p : Place}
    (first : First roots symbol p) (more : List (List Entry)) :
    First (roots ++ more) symbol p := by
  obtain ⟨es, e, root, found, name, earlier⟩ := first
  obtain ⟨inside, same⟩ := List.getElem?_eq_some_iff.mp root
  refine ⟨es, e, ?_, found, name, ?_⟩
  · rw [List.getElem?_append_left inside, root]
  · rwa [List.take_append_of_le_length (Nat.le_of_lt inside)]

namespace Registered

/-- The pool with the schemas of entries. -/
def poolOf? (pool : Schema.Pool) (schemas : List (String × Bytes)) : Option Schema.Pool :=
  schemas.foldlM (fun p entry => p.addSet? entry.2) pool

theorem poolOf?_append (pool : Schema.Pool) (first later : List (String × Bytes)) :
    poolOf? pool (first ++ later) = (poolOf? pool first).bind (poolOf? · later) :=
  List.foldlM_append

/-- What is registered are these roots, each with its names once. Every symbol has its first place
in them, and the pool holds the schemas of all of them. -/
structure Searches (r : Registered) (roots : List (List Entry)) : Prop where
  roots_eq : r.roots = roots
  nodup : ∀ es ∈ roots, (es.map (·.name)).Nodup
  first : ∀ symbol p, r.modules.lookup symbol = some p → First roots symbol p
  missing : ∀ symbol, r.modules.lookup symbol = none →
    ∀ es ∈ roots, es.find? (·.defines symbol) = none
  pool_eq : poolOf? {} (roots.flatMap schemasOf) = some r.pool

theorem searches_empty : Searches {} [] := by
  constructor <;> simp [poolOf?]

/-- Other hashes do not count. -/
theorem Searches.congr {r : Registered} {roots : List (List Entry)} (searches : r.Searches roots)
    (hashes : List Hash) : Searches { r with hashes } roots :=
  ⟨searches.roots_eq, searches.nodup, searches.first, searches.missing, searches.pool_eq⟩

/-- A name is the first module of that name, else the message type of that name. -/
theorem Searches.find_eq {r : Registered} {roots : List (List Entry)} (searches : r.Searches roots)
    (name : String) :
    r.find name =
      match roots.flatten.find? (·.defines name) with
      | none => .ok (ofPool? r.pool name)
      | some e =>
        match e.content? with
        | none => .error .scratch
        | some code => .ok (some (.module code)) := by
  unfold find
  cases known : r.modules.lookup name with
  | none => rw [find?_flatten_eq_none (searches.missing name known)]
  | some p =>
    obtain ⟨es, e, root, member, named, found⟩ := (searches.first name p known).find?_flatten
    have read := read?_of_mem (searches.nodup es (List.mem_of_getElem? root)) member
    cases content : e.content? <;>
      simp only [searches.roots_eq, root, found, ← named, read, content]

/-! ### One more root -/

/-- Modules of an archive are added, unless their symbols are there. -/
theorem lookup_addModules (modules : List (String × String)) (root : Nat) (r : Registered)
    (symbol : String) :
    (modules.foldl (fun r (m : String × String) => r.addModule m.1 ⟨root, m.2⟩) r).modules.lookup
        symbol =
      (r.modules.lookup symbol).or ((modules.lookup symbol).map (⟨root, ·⟩)) := by
  induction modules generalizing r with
  | nil => simp
  | cons m rest ih =>
    rw [List.foldl_cons, ih, List.lookup_cons]
    unfold addModule
    by_cases same : symbol = m.1
    · subst same
      cases known : r.modules.lookup m.1 with
      | none => simp [List.lookup_append, known]
      | some p => simp [known]
    · rw [beq_eq_false_iff_ne.mpr same]
      split
      · rfl
      · rw [List.lookup_append, List.lookup_cons, beq_eq_false_iff_ne.mpr same, List.lookup_nil,
          Option.or_none]

theorem addModules_eq (modules : List (String × String)) (root : Nat) (r : Registered) :
    ∃ modules', modules.foldl (fun r (m : String × String) => r.addModule m.1 ⟨root, m.2⟩) r =
      { r with modules := modules' } := by
  induction modules generalizing r with
  | nil => exact ⟨r.modules, rfl⟩
  | cons m rest ih =>
    rw [List.foldl_cons, addModule]
    split
    · exact ih r
    · obtain ⟨modules', same⟩ := ih { r with modules := r.modules ++ [(m.1, ⟨root, m.2⟩)] }
      exact ⟨modules', same⟩

/-- Schemas change the pool alone. -/
theorem eq_of_foldlM_addSchema {schemas : List (String × Bytes)} {r r' : Registered}
    (added : schemas.foldlM addSchema r = .ok r') :
    poolOf? r.pool schemas = some r'.pool ∧ r' = { r with pool := r'.pool } := by
  induction schemas generalizing r with
  | nil =>
    cases added
    exact ⟨rfl, rfl⟩
  | cons entry rest ih =>
    rw [List.foldlM_cons, addSchema] at added
    cases set : r.pool.addSet? entry.2 with
    | none =>
      rw [set] at added
      cases added
    | some pool =>
      rw [set] at added
      obtain ⟨later, same⟩ := ih added
      refine ⟨?_, same⟩
      rw [poolOf?, List.foldlM_cons, set]
      exact later

/-- A root that comes last defines the symbols that have no place yet. -/
theorem Searches.addRoot {r : Registered} {roots : List (List Entry)} (searches : r.Searches roots)
    {es : List Entry} (nodup : (es.map (·.name)).Nodup) {pool : Schema.Pool}
    (set : poolOf? r.pool (schemasOf es) = some pool) {modules : List (String × Place)}
    (added : ∀ symbol, modules.lookup symbol =
      (r.modules.lookup symbol).or (((modulesOf es).lookup symbol).map (⟨roots.length, ·⟩))) :
    Searches ⟨r.hashes, roots ++ [es], modules, pool⟩ (roots ++ [es]) := by
  refine ⟨rfl, ?_, ?_, ?_, ?_⟩
  · intro es' member
    rcases List.mem_append.mp member with old | new
    · exact searches.nodup es' old
    · rwa [List.mem_singleton.mp new]
  · intro symbol p known
    rw [added] at known
    cases old : r.modules.lookup symbol with
    | some p' =>
      rw [old, Option.some_or] at known
      cases known
      exact (searches.first symbol _ old).append [es]
    | none =>
      rw [old, Option.none_or, lookup_modulesOf] at known
      obtain ⟨entry, named, rfl⟩ := Option.map_eq_some_iff.mp known
      obtain ⟨e, found, rfl⟩ := Option.map_eq_some_iff.mp named
      refine ⟨es, e, by simp, found, rfl, ?_⟩
      rw [List.take_append_of_le_length (Nat.le_refl _), List.take_length]
      exact searches.missing symbol old
  · intro symbol unknown
    rw [added, Option.or_eq_none_iff, Option.map_eq_none_iff, lookup_modulesOf,
      Option.map_eq_none_iff] at unknown
    intro es' member
    rcases List.mem_append.mp member with old | new
    · exact searches.missing symbol unknown.1 es' old
    · rw [List.mem_singleton.mp new]
      exact unknown.2
  · rw [List.flatMap_append, poolOf?_append, searches.pool_eq, Option.bind_some,
      List.flatMap_singleton]
    exact set

/-- An archive becomes the last root. What is inside it is given back. -/
theorem searches_addRoot {s : Surroundings} {r r' : Registered} {roots : List (List Entry)}
    {readNested : Bool} {hash : Hash} {bytes : Bytes} {nested : List Bytes}
    (searches : r.Searches roots)
    (added : r.addRoot s readNested hash bytes = .ok (r', nested)) :
    ∃ es, Archive.ofBytes? bytes = some es ∧ nested = nestedIn readNested es ∧
      r'.Searches (roots ++ [es]) := by
  unfold addRoot at added
  split at added
  · cases added
  · split at added
    · cases added
    · rename_i c scanned
      obtain ⟨es, read, rfl⟩ := scan_eq_some scanned
      split at added
      · cases added
      · rename_i r₁ schemas
        obtain ⟨set, same⟩ := eq_of_foldlM_addSchema schemas
        have place : r₁.roots.length = roots.length := by rw [same, searches.roots_eq]
        have found := lookup_addModules (modulesOf es) roots.length r₁
        obtain ⟨modules, filled⟩ := addModules_eq (modulesOf es) roots.length r₁
        simp only [place, Except.ok.injEq, Prod.mk.injEq] at added
        obtain ⟨rfl, rfl⟩ := added
        refine ⟨es, read, rfl, ?_⟩
        rw [filled] at found ⊢
        rw [same] at found ⊢
        simp only [searches.roots_eq]
        exact searches.addRoot (nodup_ofBytes read) set found

/-- The archives inside an archive become roots behind it. -/
theorem searches_addNested {s : Surroundings} {nested : List Bytes} {r r' : Registered}
    {roots : List (List Entry)} (searches : r.Searches roots)
    (added : nested.foldlM (addNested s) r = .ok r') :
    r'.Searches (roots ++ nested.filterMap Archive.ofBytes?) := by
  induction nested generalizing r roots with
  | nil =>
    cases added
    simpa using searches
  | cons bytes rest ih =>
    rw [List.foldlM_cons, addNested] at added
    cases rooted : r.addRoot s false (contentHash bytes) bytes with
    | error e =>
      rw [rooted] at added
      cases added
    | ok result =>
      rw [rooted] at added
      obtain ⟨es, read, -, here⟩ := searches_addRoot searches rooted
      rw [List.filterMap_cons_some read, List.append_cons]
      exact ih here added

/-- A new archive with content adds its roots; any other adds its hash at most. -/
theorem searches_add {s : Surroundings} {r r' : Registered} {roots : List (List Entry)}
    (searches : r.Searches roots) {hash : Hash} {bytes : Bytes}
    (added : r.add s hash bytes = .ok r') :
    r'.Searches (roots ++
      if r.hashes.contains hash || bytes.isEmpty then [] else rootsOf s bytes) := by
  unfold add at added
  split at added
  · rename_i known
    cases added
    rw [known, Bool.true_or, if_pos rfl, List.append_nil]
    exact searches
  · rename_i fresh
    split at added
    · rename_i empty
      cases added
      rw [empty, Bool.or_true, if_pos rfl, List.append_nil]
      exact searches.congr _
    · rename_i filled
      split at added
      · cases added
      · rename_i r₁ nested rooted
        obtain ⟨es, read, rfl, here⟩ := searches_addRoot searches rooted
        split at added
        · cases added
        · rename_i r₂ inner
          cases added
          rw [Bool.eq_false_iff.mpr fresh, Bool.eq_false_iff.mpr filled]
          simp only [Bool.or_false, Bool.false_eq_true, if_false, rootsOf, read]
          have behind := (searches_addNested here inner).congr (r₂.hashes ++ [hash])
          rwa [← List.append_cons] at behind

end Registered

/-! ### Whole histories -/

/-- A registration either fails and leaves the context as it was, or it leaves what it adds. -/
theorem register_cases (c : Context) (s : Surroundings) (hash : Hash) (bytes : Bytes) :
    (∃ e, c.register s hash bytes = (.error e, c)) ∨
      ∃ r, c.registered.add s hash bytes = .ok r ∧
        c.register s hash bytes = (.ok (), { c with registered := r }) := by
  unfold register
  cases added : c.registered.add s hash bytes with
  | error e => exact .inl ⟨e, rfl⟩
  | ok r => exact .inr ⟨r, rfl, rfl⟩

theorem searches_apply {s : Surroundings} {c : Context} {roots : List (List Entry)}
    (searches : c.registered.Searches roots) (step : Step) :
    (step.apply s c).registered.Searches
      (roots ++ (step.added? s c).toList.flatMap (rootsOf s)) := by
  cases step with
  | resolve name =>
    simpa [Step.apply, Step.added?] using searches
  | register hash bytes =>
    rcases register_cases c s hash bytes with ⟨e, failed⟩ | ⟨r, added, done⟩
    · simpa [Step.apply, Step.added?, failed] using searches
    · have here : r.Searches
          (roots ++ if c.isRegistered hash || bytes.isEmpty then [] else rootsOf s bytes) :=
        Registered.searches_add searches added
      simp only [Step.apply, Step.added?, done]
      by_cases nothing : (c.isRegistered hash || bytes.isEmpty) = true
      · rwa [if_pos nothing] at here ⊢
      · rw [if_neg nothing] at here ⊢
        rwa [Option.toList_some, List.flatMap_singleton]

theorem searches_after {s : Surroundings} {c : Context} {roots : List (List Entry)}
    (searches : c.registered.Searches roots) (history : List Step) :
    (c.after s history).registered.Searches
      (roots ++ (added s c history).flatMap (rootsOf s)) := by
  induction history generalizing c roots with
  | nil => simpa [after, added] using searches
  | cons step rest ih =>
    rw [added, List.flatMap_append, ← List.append_assoc]
    exact ih (searches_apply searches step)

/-- After any history of registrations and of names that are resolved: a registration that fails
leaves the context as it was, one of a known hash changes nothing, and one without content adds its
hash alone. A name is found as the first module of that name in the order of search, which is that
of the archives added so far, each with the archives inside it behind it; its content is read, and
not being able to is a fault. Only a name that is no module anywhere is looked for among the
message types, which are those of all schemas in that order. The place that is kept for a symbol is
that of its first entry, in the root that holds it. -/
theorem find_in_search_order (s : Surroundings) (history : List Step) :
    let c := Context.empty.after s history
    let roots := searchOrder s history
    (∀ hash bytes e, (c.register s hash bytes).1 = .error e →
        (c.register s hash bytes).2 = c) ∧
      (∀ hash bytes, c.isRegistered hash = true → c.register s hash bytes = (.ok (), c)) ∧
      (∀ hash, c.isRegistered hash = false →
        c.register s hash [] = (.ok (), { c with
          registered := { c.registered with hashes := c.registered.hashes ++ [hash] } })) ∧
      (∀ name, c.find name =
        match roots.flatten.find? (·.defines name) with
        | none => .ok (ofPool? c.registered.pool name)
        | some e =>
          match e.content? with
          | none => .error .scratch
          | some code => .ok (some (.module code))) ∧
      Registered.poolOf? {} (roots.flatMap schemasOf) = some c.registered.pool ∧
      c.registered.roots = roots ∧
      ∀ symbol p, c.registered.modules.lookup symbol = some p →
        ∃ es e, roots[p.root]? = some es ∧ e ∈ es ∧ e.name = p.entry ∧
          roots.flatten.find? (·.defines symbol) = some e := by
  intro c roots
  have searches : c.registered.Searches roots := by
    have whole := searches_after (s := s) (c := .empty) Registered.searches_empty history
    rwa [List.nil_append] at whole
  refine ⟨?_, ?_, ?_, searches.find_eq, searches.pool_eq, searches.roots_eq, ?_⟩
  · intro hash bytes e failed
    rcases register_cases c s hash bytes with ⟨e', same⟩ | ⟨r, -, same⟩
    · rw [same]
    · rw [same] at failed
      cases failed
  · intro hash bytes known
    have known' : c.registered.hashes.contains hash = true := known
    rw [register, Registered.add, if_pos known']
  · intro hash fresh
    have fresh' : c.registered.hashes.contains hash = false := fresh
    simp only [register, Registered.add, fresh', Bool.false_eq_true, if_false, List.isEmpty_nil,
      if_true]
  · intro symbol p known
    exact (searches.first symbol p known).find?_flatten

end Notary.Context
