/-
Pools that were made by adding files.

A pool starts empty and grows by files. So its fields were all declared: a stretch of values stands
only where the kind allows it, a default value is one of the kind, and the types that fields name
are there.

* `Made` — the pools that come from adding files.
* `Field.Sound`, `Sound` — what holds of the fields of such a pool.
* `Made.sound` — it holds of all of them.
-/

import Notary.Proofs.Schema.Scalars
import Notary.Schema.Annotation

namespace Notary.Schema

namespace Pool

/-- The pools that come from adding files. What their options say is found out when they are
there. -/
inductive Made : Pool → Prop where
  | empty : Made {}
  | link {p q : Pool} {files : List FileDecl} (made : Made p) (linked : p.link? files = some q) :
      Made q
  | settle {p : Pool} (made : Made p) (declared : List Declared) : Made (p.settle declared)

theorem Made.addSet? {p q : Pool} {bs : Bytes} (made : p.Made) (added : p.addSet? bs = some q) :
    q.Made := by
  unfold Pool.addSet? at added
  split at added
  · cases added
  · obtain ⟨linked, link, added⟩ := Option.bind_eq_some_iff.mp added
    obtain ⟨_, -, same⟩ := Option.bind_eq_some_iff.mp added
    cases same
    exact (made.link link).settle _

theorem made_sharedPool : sharedPool.Made := by
  unfold sharedPool
  cases linked : ({} : Pool).link? Shared.files with
  | none => exact .empty
  | some q => exact Made.empty.link linked

/-! ### Names of types -/

theorem isSome_type?_iff {p : Pool} {name : String} :
    (p.type? name).isSome ↔ name ∈ p.types.map (·.name) := by
  rw [type?, List.find?_isSome, List.mem_map]
  simp

theorem name_of_type? {p : Pool} {name : String} {t : MessageType} (found : p.type? name = some t) :
    t.name = name := by
  simpa using List.find?_some found

theorem mem_of_type? {p : Pool} {name : String} {t : MessageType} (found : p.type? name = some t) :
    t ∈ p.types :=
  List.mem_of_find?_eq_some found

end Pool

/-! ### Sound fields -/

/-- The message type that values of the kind are of. -/
def Kind.type? : Kind → Option String
  | .scalar _ => none
  | .message name | .group name => some name

/-- A field whose type is in the pool, whose default value is one of its kind, and whose values
stand in one stretch only where that is a list of values that may. -/
structure Field.Sound (p : Pool) (f : Field) : Prop where
  packed : f.packed = true → f.arity = .list ∧ ∃ k, f.kind = .scalar k ∧ k.isPackable = true
  default : ∀ d k, f.default? = some d → f.kind = .scalar k → k.Restores d
  typed : ∀ name, f.kind.type? = some name → (p.type? name).isSome

/-- More types do not matter. -/
theorem Field.Sound.mono {p q : Pool} {f : Field} (sound : f.Sound p)
    (names : p.types.map (·.name) ⊆ q.types.map (·.name)) : f.Sound q :=
  ⟨sound.packed, sound.default, fun name typed =>
    Pool.isSome_type?_iff.mpr (names (Pool.isSome_type?_iff.mp (sound.typed name typed)))⟩

/-- Messages do not stand in one stretch. -/
theorem Field.Sound.bare_of_typed {p : Pool} {f : Field} (sound : f.Sound p) {name : String}
    (typed : f.kind.type? = some name) : f.packed = false := by
  rw [Bool.eq_false_iff]
  intro packed
  obtain ⟨-, k, kind, -⟩ := sound.packed packed
  rw [kind] at typed
  cases typed

/-- A declared default value is one of the kind of the field. -/
theorem FieldType.restores_of_default? {type : FieldType} {text : Option String} {d : Datum}
    {k : ScalarKind} (given : type.default? text = some (some d)) (kind : type.kind = .scalar k) :
    k.Restores d := by
  cases type with
  | scalar k' =>
    cases kind
    cases text with
    | none => cases given
    | some s =>
      obtain ⟨d', found, same⟩ := Option.map_eq_some_iff.mp given
      cases same
      exact ScalarKind.restores_of_ofText? found
  | enumeration e =>
    cases kind
    cases text with
    | none =>
      obtain ⟨first, -, rfl⟩ := Option.map_eq_some_iff.mp (Option.some.inj given)
      exact ScalarKind.restores_ofInt_enumeration first.2
    | some s =>
      obtain ⟨d', found, same⟩ := Option.map_eq_some_iff.mp given
      cases same
      exact ScalarKind.restores_of_ofText? found
  | message name => cases kind
  | group name => cases kind

namespace Pool.View

variable {v : View}

/-- A name stands for a definition of the pool, one of those that are wanted. -/
theorem of_wanted? {isWanted : Meaning → Bool} {name : String} {d : Definition}
    (found : v.wanted? isWanted name = some d) :
    d ∈ v.pool.definitions ∧ isWanted d.meaning = true := by
  obtain ⟨defined, passes⟩ := Option.filter_eq_some_iff.mp found
  exact ⟨List.mem_of_find?_eq_some defined, (Bool.and_eq_true_iff.mp passes).2⟩

theorem of_resolve? {isWanted : Meaning → Bool} {name : String} {d : Definition}
    (found : v.resolve? isWanted name = some d) :
    d ∈ v.pool.definitions ∧ isWanted d.meaning = true := by
  unfold resolve? at found
  split at found
  · exact of_wanted? found
  · split at found
    · cases found
    · obtain ⟨scope, -, wanted⟩ := List.exists_of_findSome?_eq_some found
      exact of_wanted? wanted
    · obtain ⟨scope, -, wanted⟩ := Option.bind_eq_some_iff.mp found
      exact of_wanted? wanted

/-- A field of messages names a message type that is defined. -/
theorem declared_of_fieldType? {f : FieldDecl} {type : FieldType}
    (found : v.fieldType? f = some type) {name : String} (typed : type.kind.type? = some name) :
    ∃ d ∈ v.pool.definitions, d.meaning = .message ∧ d.name = name := by
  unfold fieldType? at found
  split at found
  · split at found
    · cases found
    · cases found
      cases typed
  · split at found
    · cases found
    · rename_i d resolved
      obtain ⟨member, wanted⟩ := of_resolve? resolved
      split at found
      · obtain ⟨e, -, rfl⟩ := Option.map_eq_some_iff.mp found
        cases typed
      · rename_i other
        have message : d.meaning = .message := by
          cases meaning : d.meaning <;> simp_all
        split at found
        · cases found
          cases typed
          exact ⟨d, member, message, rfl⟩
        · cases found
          cases typed
          exact ⟨d, member, message, rfl⟩

/-- A field of messages, whatever the number of its values. -/
theorem sound_of_message {p : Pool} {f : Field} (bare : f.packed = false) {name : String}
    (kind : f.kind = .message name ∨ f.kind = .group name) (typed : (p.type? name).isSome) :
    f.Sound p := by
  refine ⟨?_, ?_, ?_⟩
  · intro packed
    rw [bare] at packed
    cases packed
  · intro d k _ scalar
    rcases kind with message | group
    · rw [message] at scalar
      cases scalar
    · rw [group] at scalar
      cases scalar
  · intro other named
    rcases kind with message | group
    · rw [message] at named
      cases named
      exact typed
    · rw [group] at named
      cases named
      exact typed

/-- A field whose type was found is sound. -/
theorem sound_of_field? (declared : ∀ d ∈ v.pool.definitions, d.meaning = .message →
      (v.pool.type? d.name).isSome)
    {isThird : Bool} {f : FieldDecl} {field : Field} (found : v.field? isThird f = some field) :
    field.Sound v.pool := by
  simp only [field?, Option.bind_eq_bind, Option.bind_eq_some_iff] at found
  obtain ⟨type, typed, default?, given, same⟩ := found
  have inPool : ∀ name, type.kind.type? = some name → (v.pool.type? name).isSome := by
    intro name named
    obtain ⟨d, member, meaning, rfl⟩ := declared_of_fieldType? typed named
    exact declared d member meaning
  cases kind : type.kind with
  | scalar k =>
    simp only [kind] at same
    cases same
    refine ⟨?_, ?_, ?_⟩
    · intro packed
      simp only [Bool.and_eq_true, decide_eq_true_eq] at packed
      exact ⟨by simp [packed.1.1], k, rfl, packed.1.2⟩
    · intro d k' default same
      cases same
      obtain rfl : default? = some d := default
      exact FieldType.restores_of_default? given kind
    · intro name named
      cases named
  | message name =>
    have here := inPool name (by rw [kind]; rfl)
    simp only [kind] at same
    cases same
    refine sound_of_message (by simp) (.inl ?_) here
    split <;> rfl
  | group name =>
    have here := inPool name (by rw [kind]; rfl)
    simp only [kind] at same
    cases same
    refine sound_of_message (by simp) ?_ here
    split
    · exact .inl rfl
    · exact .inr rfl

end Pool.View

namespace Pool

/-- All fields are sound, and every name of a message type stands for one. -/
structure Sound (p : Pool) : Prop where
  fields : ∀ t ∈ p.types, ∀ f ∈ t.fields, f.Sound p
  extensions : ∀ e ∈ p.extensions, e.2.Sound p
  declared : ∀ d ∈ p.definitions, d.meaning = .message → (p.type? d.name).isSome

/-! ### Adding files -/

/-- Taking names takes no others. -/
theorem mem_of_foldlM_define? {ds : List Definition} {p q : Pool}
    (taken : ds.foldlM define? p = some q) {d : Definition} (member : d ∈ q.definitions) :
    d ∈ p.definitions ∨ d ∈ ds := by
  induction ds generalizing p with
  | nil =>
    cases taken
    exact .inl member
  | cons first rest ih =>
    rw [List.foldlM_cons, Option.bind_eq_bind, Option.bind_eq_some_iff] at taken
    obtain ⟨r, here, later⟩ := taken
    rcases ih later with old | new
    · unfold define? at here
      split at here
      · cases here
        rcases List.mem_append.mp old with older | newer
        · exact .inl older
        · exact .inr (by simp [List.mem_singleton.mp newer])
      · split at here
        · cases here
          exact .inl old
        · cases here
    · exact .inr (List.mem_cons_of_mem _ new)

theorem mem_of_foldlM_addFile? {files : List FileDecl} {p q : Pool}
    (added : files.foldlM addFile? p = some q) {d : Definition} (member : d ∈ q.definitions) :
    d ∈ p.definitions ∨ ∃ f ∈ files, d ∈ f.definitions := by
  induction files generalizing p with
  | nil =>
    cases added
    exact .inl member
  | cons first rest ih =>
    rw [List.foldlM_cons, Option.bind_eq_bind, Option.bind_eq_some_iff] at added
    obtain ⟨r, here, later⟩ := added
    rcases ih later with old | ⟨f, inRest, defined⟩
    · unfold addFile? at here
      split at here
      · cases here
      · rcases mem_of_foldlM_define? here old with older | newer
        · exact .inl older
        · exact .inr ⟨first, List.mem_cons_self, newer⟩
    · exact .inr ⟨f, List.mem_cons_of_mem _ inRest, defined⟩

/-- The message types among the names of a file are those that it declares. -/
theorem declared_of_mem_definitions {f : FileDecl} {d : Definition} (member : d ∈ f.definitions)
    (meaning : d.meaning = .message) : d.name ∈ f.declared.map (·.name) := by
  unfold FileDecl.definitions at member
  simp only [List.mem_append, List.mem_map, List.mem_flatMap, List.mem_cons] at member
  rcases member with (((⟨_, -, rfl⟩ | ⟨c, declared, rfl | ⟨_, -, rfl⟩⟩) |
    ⟨_, -, rfl | ⟨_, -, rfl⟩⟩) | ⟨_, -, rfl | ⟨_, -, rfl⟩⟩) | ⟨_, -, rfl⟩
  case inl.inl.inl.inr.inl => exact List.mem_map.mpr ⟨c, declared, rfl⟩
  -- Everything else that takes a name is no message type.
  all_goals cases meaning

/-- What comes of a list of steps comes of one of them. -/
theorem exists_of_mem_mapM {α β : Type} {step : α → Option β} {as : List α} {bs : List β}
    (mapped : as.mapM step = some bs) {b : β} (member : b ∈ bs) : ∃ a ∈ as, step a = some b := by
  induction as generalizing bs with
  | nil =>
    cases mapped
    cases member
  | cons a rest ih =>
    simp only [List.mapM_cons, Option.bind_eq_bind, Option.bind_eq_some_iff] at mapped
    obtain ⟨first, here, others, later, same⟩ := mapped
    cases same
    rcases List.mem_cons.mp member with rfl | inRest
    · exact ⟨a, List.mem_cons_self, here⟩
    · obtain ⟨a', inAs, found⟩ := ih later inRest
      exact ⟨a', List.mem_cons_of_mem _ inAs, found⟩

theorem map_of_mapM {α β γ : Type} {step : α → Option β} {f : α → γ} {g : β → γ}
    (keeps : ∀ {a b}, step a = some b → g b = f a) {as : List α} {bs : List β}
    (mapped : as.mapM step = some bs) : bs.map g = as.map f := by
  induction as generalizing bs with
  | nil =>
    cases mapped
    rfl
  | cons a rest ih =>
    simp only [List.mapM_cons, Option.bind_eq_bind, Option.bind_eq_some_iff] at mapped
    obtain ⟨first, here, others, later, same⟩ := mapped
    cases same
    rw [List.map_cons, List.map_cons, keeps here, ih later]

/-- The type of a declaration whose fields have been found, and stand in number order. -/
theorem messageType?_eq {p : Pool} {isThird : Bool} {d : Declared} (fields : List Field)
    (found : (d.decl.fields.mapM fun f =>
      View.field? ⟨p, p.visible d.file, qualify d.name f.name⟩ isThird f) = some fields)
    (sorted : fields.Pairwise fun a b => a.number ≤ b.number) :
    p.messageType? isThird d = some { outline d with fields } := by
  have same : fields.mergeSort (fun a b => a.number ≤ b.number) = fields :=
    List.mergeSort_of_pairwise (sorted.imp decide_eq_true)
  unfold messageType?
  rw [found]
  simp only [Option.bind_eq_bind, Option.bind_some, same]
  rfl

/-- The contents of a file without outer fields whose types have been found. -/
theorem contents?_eq {p : Pool} {f : FileDecl} {isThird : Bool} {types : List MessageType}
    (third : f.isThird? = some isThird) (ready : (f.dependencies.all p.hasFile && p.hasFunctions f))
    (typed : f.declared.mapM (p.messageType? isThird) = some types)
    (own : f.declaredExtensions = []) : p.contents? f = some (types, []) := by
  refine Option.bind_eq_some_iff.mpr ⟨isThird, third, ?_⟩
  refine Option.bind_eq_some_iff.mpr ⟨(), if_pos ready, ?_⟩
  refine Option.bind_eq_some_iff.mpr ⟨types, typed, ?_⟩
  rw [own]
  rfl

theorem name_of_messageType? {p : Pool} {isThird : Bool} {d : Declared} {t : MessageType}
    (found : p.messageType? isThird d = some t) : t.name = d.name := by
  simp only [messageType?, Option.bind_eq_bind, Option.bind_eq_some_iff] at found
  obtain ⟨fields, -, same⟩ := found
  cases same
  rfl

/-- The contents of a file: the types that it declares, with sound fields. -/
theorem of_contents? {p : Pool} {f : FileDecl}
    {contents : List MessageType × List (String × Field)} (found : p.contents? f = some contents)
    (declared : ∀ d ∈ p.definitions, d.meaning = .message → (p.type? d.name).isSome) :
    contents.1.map (·.name) = f.declared.map (·.name) ∧
      (∀ t ∈ contents.1, ∀ field ∈ t.fields, field.Sound p) ∧
      ∀ e ∈ contents.2, e.2.Sound p := by
  obtain ⟨isThird, -, found⟩ := Option.bind_eq_some_iff.mp found
  obtain ⟨_, -, found⟩ := Option.bind_eq_some_iff.mp found
  obtain ⟨types, typed, found⟩ := Option.bind_eq_some_iff.mp found
  obtain ⟨extensions, extended, same⟩ := Option.bind_eq_some_iff.mp found
  cases same
  refine ⟨map_of_mapM name_of_messageType? typed, ?_, ?_⟩
  · intro t member field inside
    obtain ⟨d, -, found⟩ := exists_of_mem_mapM typed member
    simp only [messageType?, Option.bind_eq_bind, Option.bind_eq_some_iff] at found
    obtain ⟨fields, all, same⟩ := found
    cases same
    obtain ⟨decl, -, one⟩ := exists_of_mem_mapM all (List.mem_mergeSort.mp inside)
    exact View.sound_of_field? declared one
  · intro e member
    obtain ⟨⟨scope, decl⟩, -, found⟩ := exists_of_mem_mapM extended member
    obtain ⟨_, -, found⟩ := Option.bind_eq_some_iff.mp found
    obtain ⟨extendee, -, found⟩ := Option.bind_eq_some_iff.mp found
    obtain ⟨_, -, found⟩ := Option.bind_eq_some_iff.mp found
    obtain ⟨_, -, found⟩ := Option.bind_eq_some_iff.mp found
    obtain ⟨field, one, same⟩ := Option.bind_eq_some_iff.mp found
    cases same
    have sound := View.sound_of_field? declared one
    exact ⟨sound.packed, sound.default, sound.typed⟩

/-- A pool with the names of a number of files, and a type for each message type among them. -/
theorem Sound.declared_of_added {p named q : Pool} (sound : p.Sound) {files : List FileDecl}
    (added : files.foldlM addFile? p = some named) (definitions : q.definitions = named.definitions)
    (types : q.types.map (·.name) =
      p.types.map (·.name) ++ files.flatMap fun f => f.declared.map (·.name)) :
    ∀ d ∈ q.definitions, d.meaning = .message → (q.type? d.name).isSome := by
  intro d member meaning
  rw [definitions] at member
  rw [isSome_type?_iff, types, List.mem_append]
  rcases mem_of_foldlM_addFile? added member with old | ⟨f, fresh, new⟩
  · exact .inl (isSome_type?_iff.mp (sound.declared d old meaning))
  · exact .inr (List.mem_flatMap.mpr ⟨f, fresh, declared_of_mem_definitions new meaning⟩)

/-- Files are linked in two rounds: at first their types are there by name alone, and then with the
types of their fields. -/
theorem link?_eq_some {p q : Pool} {files : List FileDecl} (linked : p.link? files = some q) :
    ∃ (named outlined : Pool) (contents : List (List MessageType × List (String × Field))),
      (p.fresh files).foldlM addFile? p = some named ∧
      outlined.definitions = named.definitions ∧
      outlined.types = p.types ++ ((p.fresh files).flatMap FileDecl.declared).map outline ∧
      (p.fresh files).mapM outlined.contents? = some contents ∧
      q.definitions = named.definitions ∧
      q.types = p.types ++ contents.flatMap Prod.fst ∧
      q.extensions = p.extensions ++ contents.flatMap Prod.snd := by
  simp only [link?, Option.bind_eq_bind, Option.bind_eq_some_iff] at linked
  obtain ⟨named, added, contents, found, same⟩ := linked
  cases same
  refine ⟨named, _, contents, added, ?_, ?_, found, rfl, rfl, rfl⟩ <;> rfl

theorem Sound.link {p q : Pool} {files : List FileDecl} (sound : p.Sound)
    (linked : p.link? files = some q) : q.Sound := by
  obtain ⟨named, outlined, contents, added, definitions, outlines, found, definitions', types,
    extensions⟩ := link?_eq_some linked
  have first : outlined.types.map (·.name) =
      p.types.map (·.name) ++ (p.fresh files).flatMap fun f => f.declared.map (·.name) := by
    rw [outlines, List.map_append, List.map_map, List.map_flatMap]
    rfl
  have declared := sound.declared_of_added added definitions first
  have each : contents.map (fun c => c.1.map (·.name)) =
      (p.fresh files).map fun f => f.declared.map (·.name) :=
    map_of_mapM (fun here => (of_contents? here declared).1) found
  have second : q.types.map (·.name) =
      p.types.map (·.name) ++ (p.fresh files).flatMap fun f => f.declared.map (·.name) := by
    rw [types, List.map_append, List.map_flatMap, List.flatMap_def, each, ← List.flatMap_def]
  have old : p.types.map (·.name) ⊆ q.types.map (·.name) := by
    rw [second]
    exact List.subset_append_left _ _
  have new : outlined.types.map (·.name) ⊆ q.types.map (·.name) := by
    rw [first, second]
    exact List.Subset.refl _
  refine ⟨?_, ?_, sound.declared_of_added added definitions' second⟩
  · intro t member f inside
    rw [types] at member
    rcases List.mem_append.mp member with before | now
    · exact (sound.fields t before f inside).mono old
    · obtain ⟨c, inContents, inTypes⟩ := List.mem_flatMap.mp now
      obtain ⟨file, -, here⟩ := exists_of_mem_mapM found inContents
      exact ((of_contents? here declared).2.1 t inTypes f inside).mono new
  · intro e member
    rw [extensions] at member
    rcases List.mem_append.mp member with before | now
    · exact (sound.extensions e before).mono old
    · obtain ⟨c, inContents, inExtensions⟩ := List.mem_flatMap.mp now
      obtain ⟨file, -, here⟩ := exists_of_mem_mapM found inContents
      exact ((of_contents? here declared).2.2 e inExtensions).mono new

/-! ### Options -/

/-- A list of entries becomes a map, whose values are of the same type. -/
theorem sound_settleField {p : Pool} {f : Field} (sound : f.Sound p) (q : Pool) :
    (q.settleField f).Sound p := by
  have map : ∀ name, f.kind = .message name ∨ f.kind = .group name →
      ({ f with arity := .map, kind := .message name } : Field).Sound p := by
    intro name kind
    have bare : f.packed = false := by
      rw [Bool.eq_false_iff]
      intro packed
      obtain ⟨-, k, scalar, -⟩ := sound.packed packed
      rcases kind with message | group
      · cases message ▸ scalar
      · cases group ▸ scalar
    refine View.sound_of_message bare (.inl rfl) (sound.typed name ?_)
    rcases kind with message | group
    · rw [message]
      rfl
    · rw [group]
      rfl
  unfold settleField
  split
  · rename_i name _ kind
    split
    · exact map name (.inl kind)
    · exact sound
  · rename_i name _ kind
    split
    · exact map name (.inr kind)
    · exact sound
  · exact sound

theorem Sound.settle {p : Pool} (sound : p.Sound) (declared : List Declared) :
    (p.settle declared).Sound := by
  have names : (p.settle declared).types.map (·.name) = p.types.map (·.name) := by
    simp only [Pool.settle, List.map_map]
    refine List.map_congr_left ?_
    intro t _
    simp only [Function.comp_apply]
    split <;> rfl
  have kept : p.types.map (·.name) ⊆ (p.settle declared).types.map (·.name) := by
    rw [names]
    exact List.Subset.refl _
  refine ⟨?_, ?_, ?_⟩
  · intro t member f inside
    simp only [Pool.settle, List.map_map] at member
    obtain ⟨t', inTypes, rfl⟩ := List.mem_map.mp member
    obtain ⟨f', inFields, rfl⟩ := List.mem_map.mp inside
    refine (sound_settleField (sound.fields t' inTypes f' ?_) _).mono kept
    dsimp only at inFields
    split at inFields <;> exact inFields
  · intro e member
    obtain ⟨⟨type, f⟩, inside, rfl⟩ := List.mem_map.mp member
    exact (sound_settleField (sound.extensions _ inside) _).mono kept
  · intro d member meaning
    exact isSome_type?_iff.mpr (kept (isSome_type?_iff.mp (sound.declared d member meaning)))

/-- The fields of a type are sound, and so are those that were added to it from outside. -/
theorem Sound.of_field? {p : Pool} (sound : p.Sound) {t : MessageType} (member : t ∈ p.types)
    {n : Nat} {f : Field} (found : p.field? t n = some f) : f.Sound p ∧ f.number = n := by
  unfold Pool.field? at found
  split at found
  · rename_i g own
    cases found
    exact ⟨sound.fields t member f (List.mem_of_find?_eq_some own), by
      simpa using List.find?_some own⟩
  · obtain ⟨e, outer, rfl⟩ := Option.map_eq_some_iff.mp found
    have passes := List.find?_some outer
    simp only [Bool.and_eq_true, beq_iff_eq] at passes
    exact ⟨sound.extensions e (List.mem_of_find?_eq_some outer), passes.2⟩

/-- So are the fields of entries. -/
theorem Sound.of_entryField? {p : Pool} (sound : p.Sound) {t : MessageType} (member : t ∈ p.types)
    {n : Nat} {f : Field} (found : t.entryField? n = some f) : f.Sound p := by
  unfold MessageType.entryField? at found
  split at found
  · obtain ⟨g, key, rfl⟩ := Option.map_eq_some_iff.mp found
    have whole := sound.fields t member g (List.mem_of_find?_eq_some key)
    refine ⟨whole.packed, ?_, whole.typed⟩
    intro d k given
    cases given
  · split at found
    · obtain ⟨g, value, rfl⟩ := Option.map_eq_some_iff.mp found
      have whole := sound.fields t member g (List.mem_of_find?_eq_some value)
      exact ⟨whole.packed, whole.default, whole.typed⟩
    · cases found

theorem Made.sound {p : Pool} (made : p.Made) : p.Sound := by
  induction made with
  | empty => exact ⟨by simp, by simp, by simp⟩
  | link _ linked ih => exact ih.link linked
  | settle _ declared ih => exact ih.settle declared

end Pool

end Notary.Schema
