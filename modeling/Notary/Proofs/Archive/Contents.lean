/-
What an archive holds, by the names of its entries.

An archive lists every name once. Its name says what an entry is for, so the modules, the schemas
and the archives inside an archive can be read off the list of its entries.

* `nodup_ofBytes` — the names of the entries of an archive are different.
* `Entry.defines_iff` — the symbol of a module, read off the path of its entry.
* `modulesOf`, `schemasOf`, `nestedOf` — what entries hold, in their order.
* `scan_eq_some` — scanning an archive gives these.
-/

import Mathlib.Data.List.Basic
import Mathlib.Data.List.TakeWhile
import Notary.Archive.Layout

namespace Notary.Archive

/-! ### Names -/

theorem map_name_insertEntry (es : List Entry) (e : Entry) :
    (insertEntry es e).map (·.name) =
      if e.name ∈ es.map (·.name) then es.map (·.name) else es.map (·.name) ++ [e.name] := by
  unfold insertEntry
  by_cases known : e.name ∈ es.map (·.name)
  · have found : es.any (·.name == e.name) = true := by simpa using known
    rw [if_pos known, if_pos found, List.map_map]
    refine List.map_congr_left fun e' _ => ?_
    by_cases same : e'.name = e.name <;> simp [same]
  · have missing : ¬ es.any (·.name == e.name) = true := by simpa using known
    rw [if_neg known, if_neg missing, List.map_append, List.map_singleton]

theorem nodup_foldl_insertEntry {es : List Entry} (nodup : (es.map (·.name)).Nodup)
    (more : List Entry) : ((more.foldl insertEntry es).map (·.name)).Nodup := by
  induction more generalizing es with
  | nil => exact nodup
  | cons e rest ih =>
    refine ih ?_
    rw [map_name_insertEntry]
    split
    · exact nodup
    · rename_i fresh
      exact List.nodup_append.mpr ⟨nodup, by simp, by grind⟩

/-- The names of the entries of an archive are different. -/
theorem nodup_ofBytes {bs : Bytes} {es : List Entry} (read : ofBytes? bs = some es) :
    (es.map (·.name)).Nodup := by
  obtain ⟨place, -, entries⟩ := List.exists_of_findSome?_eq_some read
  obtain ⟨listed, -, rfl⟩ := Option.map_eq_some_iff.mp entries
  have none : (([] : List Entry).map (·.name)).Nodup := List.nodup_nil
  exact nodup_foldl_insertEntry none listed

/-- An entry is read by its name. -/
theorem read?_of_mem {es : List Entry} (nodup : (es.map (·.name)).Nodup) {e : Entry}
    (member : e ∈ es) : read? es e.name = e.content? := by
  have found : es.find? (·.name == e.name) = some e := by
    induction es with
    | nil => cases member
    | cons first rest ih =>
      rw [List.map_cons, List.nodup_cons] at nodup
      rcases List.mem_cons.mp member with rfl | behind
      · simp
      · have other : ¬ (first.name == e.name) = true := by
          rw [beq_iff_eq]
          intro same
          exact nodup.1 (same ▸ List.mem_map_of_mem behind)
        rw [List.find?_cons, Bool.eq_false_iff.mpr other]
        exact ih nodup.2 behind
  rw [read?, found, Option.bind_some]

/-! ### What entries are for -/

theorem getLast?_of_isSuffixOf {ending cs : List Char} {c : Char} (last : ending.getLast? = some c)
    (ends : ending.isSuffixOf cs = true) : cs.getLast? = some c := by
  obtain ⟨start, rfl⟩ := List.isSuffixOf_iff_suffix.mp ends
  rw [List.getLast?_append, last, Option.some_or]

/-- A directory is nothing else. -/
theorem role_of_isDirectory {name : String} (directory : isDirectory name = true) :
    Role.ofName name = .ignored := by
  have other {ending : List Char} {c : Char} (last : ending.getLast? = some c) (noSlash : c ≠ '/')
      (noBackslash : c ≠ '\\') : ending.isSuffixOf name.toList = false := by
    rw [Bool.eq_false_iff]
    intro ends
    simp [isDirectory, getLast?_of_isSuffixOf last ends, noSlash, noBackslash] at directory
  have noModule : moduleSymbol? name = none := by
    have noEnding : ".wasm".toList.isSuffixOf name.toList = false :=
      other rfl (by decide) (by decide)
    rw [moduleSymbol?, stripEnding?, noEnding]
    rfl
  have noSchema : endsWith ".desc" name = false := other rfl (by decide) (by decide)
  have noJar : endsWith ".jar" name = false := other rfl (by decide) (by decide)
  have noZip : endsWith ".zip" name = false := other rfl (by decide) (by decide)
  simp [Role.ofName, noModule, noSchema, noJar, noZip]

theorem ofName_eq_module_iff {name symbol : String} :
    Role.ofName name = .module symbol ↔ moduleSymbol? name = some symbol := by
  unfold Role.ofName
  cases moduleSymbol? name with
  | none => grind
  | some own => simp

/-- The entry is the module of a symbol. -/
def Entry.defines (symbol : String) (e : Entry) : Bool := moduleSymbol? e.name == some symbol

/-! ### Paths of modules -/

/-- A path: directories, each with a mark behind it, and a file. -/
def path (mark : Char) (dirs : List (List Char)) (file : List Char) : List Char :=
  dirs.flatMap (· ++ [mark]) ++ file

/-- The parts of the path of a module, behind all slashes in front. No part has a slash in it. A
directory between others may have no name, the first one and the file have names. -/
structure IsModulePath (dirs : List (List Char)) (file : List Char) : Prop where
  plain : ∀ dir ∈ dirs, '/' ∉ dir
  plainFile : '/' ∉ file
  first : dirs.head? ≠ some []
  named : file ≠ []

/-- Every text is a path. -/
theorem exists_path (cs : List Char) :
    ∃ dirs file, (∀ dir ∈ dirs, '/' ∉ dir) ∧ '/' ∉ file ∧ cs = path '/' dirs file := by
  induction cs with
  | nil => exact ⟨[], [], by simp, by simp, rfl⟩
  | cons c rest ih =>
    obtain ⟨dirs, file, plain, plainFile, rfl⟩ := ih
    by_cases slash : c = '/'
    · exact ⟨[] :: dirs, file, by simpa using plain, plainFile, by simp [path, slash]⟩
    · cases dirs with
      | nil => exact ⟨[], c :: file, by simp, by simp [plainFile, Ne.symm slash], rfl⟩
      | cons dir dirs =>
        refine ⟨(c :: dir) :: dirs, file, ?_, plainFile, rfl⟩
        simpa [Ne.symm slash] using plain

/-- Between the parts of a path, one mark is put for another. -/
theorem map_path {dirs : List (List Char)} {file : List Char} (plain : ∀ dir ∈ dirs, '/' ∉ dir)
    (plainFile : '/' ∉ file) :
    (path '/' dirs file).map (fun c => if c == '/' then '.' else c) = path '.' dirs file := by
  have kept {cs : List Char} (none : '/' ∉ cs) :
      cs.map (fun c => if c == '/' then '.' else c) = cs := by
    refine (List.map_congr_left fun c member => ?_).trans (List.map_id' cs)
    have other : c ≠ '/' := fun same => none (same ▸ member)
    simp [other]
  simp only [path, List.map_append, List.map_flatMap, kept plainFile]
  refine congrArg (· ++ file) (List.flatMap_congr fun dir member => ?_)
  rw [kept (plain dir member)]
  rfl

/-- The path of a module neither starts with a slash nor ends with one. -/
theorem IsModulePath.ends {dirs : List (List Char)} {file : List Char}
    (parts : IsModulePath dirs file) :
    (∃ c, (path '/' dirs file).head? = some c ∧ c ≠ '/') ∧
      ∃ c, (path '/' dirs file).getLast? = some c ∧ c ≠ '/' := by
  constructor
  · cases dirs with
    | nil =>
      obtain ⟨c, cs, rfl⟩ := List.exists_cons_of_ne_nil parts.named
      exact ⟨c, rfl, fun same => parts.plainFile (same ▸ List.mem_cons_self)⟩
    | cons dir dirs =>
      have name : dir ≠ [] := fun none => parts.first (by rw [none, List.head?_cons])
      obtain ⟨c, cs, rfl⟩ := List.exists_cons_of_ne_nil name
      exact ⟨c, rfl, fun same => parts.plain _ List.mem_cons_self (same ▸ List.mem_cons_self)⟩
  · have last := List.getLast?_eq_some_getLast parts.named
    refine ⟨file.getLast parts.named, ?_, fun same => parts.plainFile (same ▸ List.getLast_mem _)⟩
    rw [path, List.getLast?_append, last, Option.some_or]

/-- A text that starts with no slash and ends with none is the path of a module. -/
theorem exists_isModulePath {cs : List Char} {c : Char} (starts : cs.head? ≠ some '/')
    (last : cs.getLast? = some c) (ends : c ≠ '/') :
    ∃ dirs file, IsModulePath dirs file ∧ cs = path '/' dirs file := by
  obtain ⟨dirs, file, plain, plainFile, rfl⟩ := exists_path cs
  refine ⟨dirs, file, ⟨plain, plainFile, ?_, ?_⟩, rfl⟩
  · intro unnamed
    cases dirs with
    | nil => cases unnamed
    | cons dir dirs =>
      obtain rfl : dir = [] := Option.some.inj unnamed
      exact starts rfl
  · rintro rfl
    rcases List.eq_nil_or_concat dirs with rfl | ⟨before, dir, rfl⟩
    · cases last
    · simp [path, Ne.symm ends] at last

theorem stripEnding?_eq_some_iff {ending cs stem : List Char} :
    stripEnding? ending cs = some stem ↔ cs = stem ++ ending := by
  unfold stripEnding?
  by_cases ends : ending.isSuffixOf cs = true
  · obtain ⟨start, rfl⟩ := List.isSuffixOf_iff_suffix.mp ends
    rw [if_pos ends, List.length_append, Nat.add_sub_cancel, List.take_left, Option.some.injEq,
      List.append_cancel_right_eq]
  · rw [if_neg ends]
    refine iff_of_false nofun fun whole => ends ?_
    exact List.isSuffixOf_iff_suffix.mpr ⟨stem, whole.symm⟩

theorem moduleSymbol?_eq_some_iff {name symbol : String} :
    moduleSymbol? name = some symbol ↔
      ∃ stem c, name.toList = stem ++ ".wasm".toList ∧ stem.getLast? = some c ∧ c ≠ '/' ∧
        symbol.toList =
          (stem.dropWhile (· == '/')).map fun c => if c == '/' then '.' else c := by
  unfold moduleSymbol?
  cases strips : stripEnding? ".wasm".toList name.toList with
  | none =>
    refine iff_of_false nofun ?_
    rintro ⟨stem, -, whole, -⟩
    rw [stripEnding?_eq_some_iff.mpr whole] at strips
    cases strips
  | some stem =>
    have unique (stem' : List Char) : name.toList = stem' ++ ".wasm".toList ↔ stem = stem' := by
      rw [← stripEnding?_eq_some_iff, strips, Option.some.injEq]
    simp only [unique]
    rcases last : stem.getLast? with - | c
    · simp [last]
    · by_cases slash : c = '/'
      · subst slash
        simp [last]
      · simp only [Option.some.injEq]
        constructor
        · rintro rfl
          exact ⟨stem, c, rfl, last, slash, String.toList_ofList⟩
        · rintro ⟨_, _, rfl, -, -, symbol⟩
          rw [← symbol, String.ofList_toList]

/-- The symbol of a module is read off the path of its entry: behind any slashes in front,
`a/b/C.wasm` is `a.b.C`. -/
theorem Entry.defines_iff {symbol : String} {e : Entry} :
    e.defines symbol = true ↔ ∃ slashes dirs file, IsModulePath dirs file ∧
      e.name.toList = List.replicate slashes '/' ++ path '/' dirs file ++ ".wasm".toList ∧
      symbol.toList = path '.' dirs file := by
  rw [Entry.defines, beq_iff_eq, moduleSymbol?_eq_some_iff]
  constructor
  · rintro ⟨stem, c, name, last, ends, symbol⟩
    have split : stem = stem.takeWhile (· == '/') ++ stem.dropWhile (· == '/') :=
      List.takeWhile_append_dropWhile.symm
    have front : stem.takeWhile (· == '/') =
        List.replicate (stem.takeWhile (· == '/')).length '/' :=
      List.eq_replicate_iff.mpr ⟨rfl, fun d member => by simpa using List.mem_takeWhile_imp member⟩
    have starts : (stem.dropWhile (· == '/')).head? ≠ some '/' := by
      intro slash
      have none := List.head?_dropWhile_not (· == '/') stem
      simp [slash] at none
    have last' : (stem.dropWhile (· == '/')).getLast? = some c := by
      rw [split, front, List.getLast?_append] at last
      cases behind : (stem.dropWhile (· == '/')).getLast? with
      | some d => rwa [behind, Option.some_or] at last
      | none =>
        rw [behind, Option.none_or] at last
        exact absurd (List.eq_of_mem_replicate (List.mem_of_getLast? last)) ends
    obtain ⟨dirs, file, parts, rest⟩ := exists_isModulePath starts last' ends
    have whole : stem = List.replicate (stem.takeWhile (· == '/')).length '/' ++
        path '/' dirs file := by
      rw [← front, ← rest]
      exact split
    refine ⟨_, dirs, file, parts, name.trans (congrArg (· ++ ".wasm".toList) whole), ?_⟩
    rw [symbol, rest, map_path parts.plain parts.plainFile]
  · rintro ⟨slashes, dirs, file, parts, name, symbol⟩
    obtain ⟨⟨d, head, starts⟩, c, last, ends⟩ := parts.ends
    refine ⟨_, c, name, ?_, ends, ?_⟩
    · rw [List.getLast?_append, last, Option.some_or]
    · have front : ∀ c ∈ List.replicate slashes '/', (c == '/') = true := by simp
      obtain ⟨cs, whole⟩ : ∃ cs, path '/' dirs file = d :: cs := List.head?_eq_some_iff.mp head
      have kept : (path '/' dirs file).dropWhile (· == '/') = path '/' dirs file := by
        rw [whole, List.dropWhile_cons_of_neg (by simpa using starts)]
      rw [List.dropWhile_append_of_pos front, kept, map_path parts.plain parts.plainFile, symbol]

example : moduleSymbol? "/a/b/C.wasm" = some "a.b.C" := by decide

/-! ### What entries hold -/

/-- The modules among entries, each with the name of its entry. -/
def modulesOf (es : List Entry) : List (String × String) :=
  es.filterMap fun e => (moduleSymbol? e.name).map (·, e.name)

/-- The schemas among entries, each with the name of its entry. -/
def schemasOf (es : List Entry) : List (String × Bytes) :=
  es.filterMap fun e => if Role.ofName e.name = .schema then e.content?.map (e.name, ·) else none

/-- The archives among entries. -/
def nestedOf (es : List Entry) : List Bytes :=
  es.filterMap fun e => if Role.ofName e.name = .nested then e.content? else none

/-- The entry of a symbol is the first that defines it. -/
theorem lookup_modulesOf (es : List Entry) (symbol : String) :
    (modulesOf es).lookup symbol = (es.find? (·.defines symbol)).map (·.name) := by
  induction es with
  | nil => rfl
  | cons e rest ih =>
    unfold modulesOf at ih ⊢
    cases own : moduleSymbol? e.name with
    | none =>
      have other : ¬ e.defines symbol = true := by simp [Entry.defines, own]
      rw [List.filterMap_cons, own, List.find?_cons, Bool.eq_false_iff.mpr other]
      exact ih
    | some s =>
      rw [List.filterMap_cons, own, List.find?_cons, Option.map_some, List.lookup_cons]
      by_cases same : symbol = s
      · simp [Entry.defines, own, same]
      · have other : ¬ e.defines symbol = true := by simp [Entry.defines, own, Ne.symm same]
        rw [Bool.eq_false_iff.mpr other, beq_eq_false_iff_ne.mpr same]
        exact ih

/-! ### Scanning -/

/-- What is inside an archive, or nothing when it is not to be read. -/
def nestedIn (readNested : Bool) (es : List Entry) : List Bytes :=
  if readNested then nestedOf es else []

/-- What an archive holds, by the names of its entries. -/
def contentsOf (readNested : Bool) (es : List Entry) (c : Contents) : Contents :=
  ⟨c.entries, c.modules ++ modulesOf es, c.schemas ++ schemasOf es,
    c.nested ++ nestedIn readNested es⟩

theorem contentsOf_cons (readNested : Bool) (e : Entry) (rest : List Entry) (c : Contents) :
    contentsOf readNested (e :: rest) c =
      contentsOf readNested rest (contentsOf readNested [e] c) := by
  have one : e :: rest = [e] ++ rest := rfl
  rw [one]
  cases readNested <;>
    simp only [contentsOf, modulesOf, schemasOf, nestedIn, nestedOf, List.filterMap_append,
      List.append_assoc, Bool.false_eq_true, if_true, if_false, List.append_nil]

/-- An entry adds what it holds by its name. -/
theorem add_eq_some {readNested : Bool} {c c' : Contents} {e : Entry}
    (added : c.add readNested e = some c') : c' = contentsOf readNested [e] c := by
  have noModule (other : ∀ symbol, Role.ofName e.name ≠ .module symbol) :
      moduleSymbol? e.name = none := by
    rw [Option.eq_none_iff_forall_ne_some]
    exact fun symbol own => other symbol (ofName_eq_module_iff.mpr own)
  unfold Contents.add at added
  split at added
  · cases added
  · split at added
    · rename_i directory
      have role := role_of_isDirectory directory
      cases added
      simp [contentsOf, modulesOf, schemasOf, nestedIn, nestedOf, role, noModule]
    · cases role : Role.ofName e.name with
      | module symbol =>
        rw [role] at added
        cases added
        simp [contentsOf, modulesOf, schemasOf, nestedIn, nestedOf, role,
          ofName_eq_module_iff.mp role]
      | schema =>
        simp only [role] at added
        obtain ⟨bs, content, rfl⟩ := Option.map_eq_some_iff.mp added
        simp [contentsOf, modulesOf, schemasOf, nestedIn, nestedOf, role, content, noModule]
      | nested =>
        simp only [role] at added
        cases readNested with
        | false =>
          cases added
          simp [contentsOf, modulesOf, schemasOf, nestedIn, role, noModule]
        | true =>
          obtain ⟨bs, content, rfl⟩ := Option.map_eq_some_iff.mp added
          simp [contentsOf, modulesOf, schemasOf, nestedIn, nestedOf, role, content, noModule]
      | ignored =>
        rw [role] at added
        cases added
        simp [contentsOf, modulesOf, schemasOf, nestedIn, nestedOf, role, noModule]

theorem foldlM_add_eq_some {readNested : Bool} {es : List Entry} {c c' : Contents}
    (added : es.foldlM (Contents.add readNested) c = some c') :
    c' = contentsOf readNested es c := by
  induction es generalizing c with
  | nil =>
    cases added
    cases readNested <;> simp [contentsOf, modulesOf, schemasOf, nestedIn, nestedOf]
  | cons e rest ih =>
    rw [List.foldlM_cons] at added
    obtain ⟨c₁, first, later⟩ := Option.bind_eq_some_iff.mp added
    rw [contentsOf_cons, ← add_eq_some first]
    exact ih later

/-- Scanning an archive gives its entries, and what they hold by their names. -/
theorem scan_eq_some {readNested : Bool} {bs : Bytes} {c : Contents}
    (scanned : scan readNested bs = some c) :
    ∃ es, ofBytes? bs = some es ∧
      c = ⟨es, modulesOf es, schemasOf es, nestedIn readNested es⟩ := by
  unfold scan at scanned
  cases read : ofBytes? bs with
  | none => simp [read] at scanned
  | some es =>
    rw [read] at scanned
    exact ⟨es, rfl, foldlM_add_eq_some scanned⟩

end Notary.Archive
