/-
What a module says about itself, read, indexed and written again.

A description that is written comes back as it was, with the index that reading made. The index holds
the position of each function, so a function is found by its name; a name that is declared a second
time is reported, and the first such name is the one.

* `written_parameter`, `written_function`, `written_description` — the documents, shape by shape.
* `indexFunctions_ok`, `indexFunctions_error` — an index, and the name that cannot be entered.
* `ContractMetadata.Indexed` — each function under its own name, and nothing else.
* `ContractMetadata.parse_indexed_and_rewritten` — all of it, for every text.
-/

import Notary.Proofs.Guest.Loading
import Notary.Proofs.Metadata.Written

namespace Notary.Metadata

open Json

/-! ### Descriptions that are written -/

theorem written_recordKind (k : RecordKind) : Written RecordKind.read (writeText k.name) k :=
  written_variant (by cases k <;> rfl)

theorem written_parameter (p : Parameter) : Written parameterShape.read p.write p := by
  have fills : Fills parameterShape.blank
      (parameterShape.fields.zip [writeText p.recordType.name, writeText p.name,
        writeBoolean p.isOptional, writeText p.typeName])
      ⟨some p.recordType, some p.name, some p.isOptional, some p.typeName⟩ := by
    refine .value rfl (written_recordKind p.recordType) ?_
    refine .value rfl (written_text p.name) ?_
    refine .value rfl (written_boolean p.isOptional) ?_
    exact .value rfl (written_text p.typeName) (.done _)
  exact written_object (by decide) fills rfl

/-- A function comes back with or without the name of the record that makes it be skipped. -/
theorem written_function (f : FunctionDescriptor) : Written functionShape.read f.write f := by
  have parameters : Written (list parameterShape.read) (writeList (f.parameters.map (·.write)))
      f.parameters := written_list fun p _ => written_parameter p
  -- The fields that are always written; the draft is what the last field is read into.
  have fills {ws : List (List Char)} {d : FunctionDraft}
      (last : Fills ⟨some f.name, some f.methodName, some f.invokedBy, some f.parameters,
        some f.returnType, none⟩ ((functionShape.fields.drop 5).zip ws) d) :
      Fills functionShape.blank
        (functionShape.fields.zip (writeText f.name :: writeText f.methodName ::
          writeText f.invokedBy :: writeList (f.parameters.map (·.write)) ::
          writeText f.returnType :: ws)) d := by
    refine .value rfl (written_text f.name) ?_
    refine .value rfl (written_text f.methodName) ?_
    refine .value rfl (written_text f.invokedBy) ?_
    refine .value rfl parameters ?_
    exact .value rfl (written_text f.returnType) last
  have distinct : (functionShape.fields.map (·.name)).Nodup := by decide
  obtain ⟨name, methodName, invokedBy, ps, returnType, skip⟩ := f
  cases skip with
  | none =>
    have filled := @fills [] _ (.done _)
    exact written_object distinct filled rfl
  | some r =>
    have filled := @fills [writeText r] _ (.value rfl (written_text r).nullable (.done _))
    exact written_object distinct filled rfl

theorem written_description (d : Description) : Written descriptionShape.read d.write d := by
  have texts (ss : List String) : Written (list text) (writeList (ss.map writeText)) ss :=
    written_list fun s _ => written_text s
  have functions : Written (list functionShape.read) (writeList (d.functions.map (·.write)))
      d.functions := written_list fun f _ => written_function f
  have fills : Fills descriptionShape.blank
      (descriptionShape.fields.zip [writeList (d.scopeSpecificationUuids.map writeText),
        writeList (d.participants.map writeText), writeText d.name, writeText d.description,
        writeText d.websiteUrl, writeText d.iconUrl, writeList (d.functions.map (·.write))])
      ⟨some d.scopeSpecificationUuids, some d.participants, some d.name, some d.description,
        some d.websiteUrl, some d.iconUrl, some d.functions⟩ := by
    refine .value rfl (texts d.scopeSpecificationUuids) ?_
    refine .value rfl (texts d.participants) ?_
    refine .value rfl (written_text d.name) ?_
    refine .value rfl (written_text d.description) ?_
    refine .value rfl (written_text d.websiteUrl) ?_
    refine .value rfl (written_text d.iconUrl) ?_
    exact .value rfl functions (.done _)
  exact written_object (by decide) fills rfl

/-! ### The index -/

section Index

variable {f : FunctionDescriptor} {fs : List FunctionDescriptor} {i : Nat} {n : String}
  {index index' : Std.HashMap String Nat}

/-- Functions whose names are not in an index with the name of a function have other names. -/
theorem name_not_mem (fresh : ∀ g ∈ fs, g.name ∉ index.insert f.name i) :
    f.name ∉ fs.map (·.name) ∧ ∀ g ∈ fs, g.name ∉ index := by
  simp only [Std.HashMap.mem_insert, beq_iff_eq, not_or] at fresh
  refine ⟨fun repeated => ?_, fun g member => (fresh g member).2⟩
  obtain ⟨g, member, same⟩ := List.mem_map.mp repeated
  exact (fresh g member).1 same.symm

/-- An index that is made holds the position of the first function with a name. The names are new
and differ. -/
theorem indexFunctions_ok (made : indexFunctions fs i index = .ok index') :
    (fs.map (·.name)).Nodup ∧ (∀ f ∈ fs, f.name ∉ index) ∧
      ∀ n : String, index'[n]? = ((fs.findIdx? (·.name == n)).map (· + i)).or index[n]? := by
  induction fs generalizing i index with
  | nil =>
    cases made
    simp
  | cons f fs ih =>
    simp only [indexFunctions] at made
    split at made
    · cases made
    · rename_i new
      rw [Bool.not_eq_true, Std.HashMap.contains_eq_false_iff_not_mem] at new
      obtain ⟨distinct, fresh, found⟩ := ih made
      obtain ⟨other, fresh⟩ := name_not_mem fresh
      refine ⟨List.nodup_cons.mpr ⟨other, distinct⟩, List.forall_mem_cons.mpr ⟨new, fresh⟩, ?_⟩
      intro n
      rw [found, List.findIdx?_cons, Std.HashMap.getElem?_insert]
      by_cases same : f.name = n
      · have none : fs.findIdx? (·.name == n) = none := by
          simpa [List.findIdx?_eq_none_iff, ← same] using other
        simp [none, same]
      · have later : (· + i) ∘ (· + 1) = (· + (i + 1)) := by
          funext j
          simp only [Function.comp_apply]
          omega
        simp [same, later]

/-- A name that cannot be entered is in the index already or that of a function in front. All
functions in front are entered. -/
theorem indexFunctions_error (refused : indexFunctions fs i index = .error n) :
    ∃ before f after, fs = before ++ f :: after ∧ f.name = n ∧
      (before.map (·.name)).Nodup ∧ (∀ g ∈ before, g.name ∉ index) ∧
      (n ∈ index ∨ n ∈ before.map (·.name)) := by
  induction fs generalizing i index with
  | nil => cases refused
  | cons f fs ih =>
    simp only [indexFunctions] at refused
    split at refused
    · rename_i known
      cases refused
      exact ⟨[], f, fs, rfl, rfl, .nil, by simp, .inl (Std.HashMap.contains_iff_mem.mp known)⟩
    · rename_i new
      rw [Bool.not_eq_true, Std.HashMap.contains_eq_false_iff_not_mem] at new
      obtain ⟨before, again, after, rfl, name, distinct, fresh, repeated⟩ := ih refused
      obtain ⟨other, fresh⟩ := name_not_mem fresh
      refine ⟨f :: before, again, after, rfl, name, List.nodup_cons.mpr ⟨other, distinct⟩,
        List.forall_mem_cons.mpr ⟨new, fresh⟩, ?_⟩
      rw [Std.HashMap.mem_insert, beq_iff_eq] at repeated
      rw [List.map_cons, List.mem_cons]
      grind

end Index

/-! ### Metadata -/

/-- The name of the first function that has the name of a function in front of it. -/
def RepeatedFirst (fs : List FunctionDescriptor) (name : String) : Prop :=
  ∃ before f after, fs = before ++ f :: after ∧ f.name = name ∧ (before.map (·.name)).Nodup ∧
    name ∈ before.map (·.name)

theorem RepeatedFirst.not_nodup {fs : List FunctionDescriptor} {n : String}
    (repeated : RepeatedFirst fs n) :
    ¬ (fs.map (·.name)).Nodup := by
  obtain ⟨before, f, after, rfl, rfl, -, member⟩ := repeated
  rw [List.map_append, List.map_cons, List.nodup_append]
  rintro ⟨-, -, disjoint⟩
  exact disjoint _ member _ List.mem_cons_self rfl

namespace ContractMetadata

/-- Names tell functions apart, and every name leads to its function. -/
structure Indexed (m : ContractMetadata) : Prop where
  distinct : (m.functions.map (·.name)).Nodup
  found : ∀ n f, m.function? n = some f ↔ f ∈ m.functions ∧ f.name = n
  missing : ∀ n, m.function? n = none ↔ ∀ f ∈ m.functions, f.name ≠ n

variable {d : Description} {m : ContractMetadata} {bs : Bytes} {n : String}

theorem toDescription_of_ofDescription (made : ofDescription d = .ok m) : m.toDescription = d := by
  cases index : indexFunctions d.functions 0 {} with
  | error e => simp [ofDescription, index, Except.map] at made
  | ok index' =>
    simp only [ofDescription, index, Except.map, Except.ok.injEq] at made
    rw [← made]

theorem indexed_of_ofDescription (made : ofDescription d = .ok m) : Indexed m := by
  cases index : indexFunctions d.functions 0 {} with
  | error e => simp [ofDescription, index, Except.map] at made
  | ok index' =>
    simp only [ofDescription, index, Except.map, Except.ok.injEq] at made
    subst made
    obtain ⟨distinct, -, positions⟩ := indexFunctions_ok index
    have first (n : String) : function? { d with index := index' } n =
        d.functions.find? (·.name == n) := by
      simp [function?, positions, List.find?_eq_bind_findIdx?_getElem?]
    refine ⟨distinct, fun n f => ?_, fun n => ?_⟩
    · rw [first]
      constructor
      · intro found
        exact ⟨List.mem_of_find?_eq_some found, by simpa using List.find?_some found⟩
      · rintro ⟨member, rfl⟩
        exact find?_of_nodup distinct member
    · rw [first]
      simp

/-- A description has metadata unless a name is repeated; then the first such name is reported. -/
theorem ofDescription_cases (d : Description) :
    (∃ m, ofDescription d = .ok m) ∨
      ∃ n, ofDescription d = .error n ∧ RepeatedFirst d.functions n := by
  cases index : indexFunctions d.functions 0 {} with
  | ok index' => exact .inl ⟨_, by rw [ofDescription, index, Except.map]⟩
  | error n =>
    obtain ⟨before, f, after, split, name, distinct, -, repeated⟩ := indexFunctions_error index
    rw [or_iff_right Std.HashMap.not_mem_empty] at repeated
    refine .inr ⟨n, by rw [ofDescription, index, Except.map], ?_⟩
    exact ⟨before, f, after, split, name, distinct, repeated⟩

theorem exists_ofDescription (distinct : (d.functions.map (·.name)).Nodup) :
    ∃ m, ofDescription d = .ok m ∧ m.toDescription = d := by
  rcases ofDescription_cases d with ⟨m, made⟩ | ⟨n, -, repeated⟩
  · exact ⟨m, made, toDescription_of_ofDescription made⟩
  · exact absurd distinct repeated.not_nodup

/-- What is read from bytes is what a description stands for. -/
theorem ofDescription_of_parse (parsed : parse bs = .ok m) :
    ofDescription m.toDescription = .ok m := by
  unfold parse at parsed
  split at parsed
  · cases parsed
  · unfold ofText at parsed
    split at parsed
    · cases parsed
    · rename_i d _
      cases made : ofDescription d with
      | error n =>
        rw [made] at parsed
        cases parsed
      | ok m' =>
        rw [made] at parsed
        cases parsed
        rw [toDescription_of_ofDescription made, made]

/-- A description that is written is read as what it stands for. -/
theorem parse_write_of_ok (made : ofDescription d = .ok m) :
    parse (Bytes.ofText (String.ofList d.write)) = .ok m := by
  have reads := (written_description d).reads []
  rw [List.append_nil] at reads
  rw [parse_ofText reads, made]
  rfl

/-- What is accepted has functions with different names, each found by its name and nothing else
found, and it comes back, index included, when it is written and read again. Every description whose
functions have different names is written as a document that is accepted; every document in which a
name is repeated is refused for the first such name. -/
theorem parse_indexed_and_rewritten :
    (∀ bs m, parse bs = .ok m → Indexed m ∧ parse (Bytes.ofText m.toText) = .ok m) ∧
    (∀ d : Description, (d.functions.map (·.name)).Nodup →
      ∃ m, m.toDescription = d ∧ parse (Bytes.ofText (String.ofList d.write)) = .ok m) ∧
    (∀ bs s d, Text.Utf8.decode bs = .ok s → document descriptionShape.read s = .ok d →
      ¬ (d.functions.map (·.name)).Nodup →
      ∃ n, RepeatedFirst d.functions n ∧ parse bs = .error (.duplicateFunction n)) := by
  refine ⟨fun bs m parsed => ?_, fun d distinct => ?_, fun bs s d text read repeated => ?_⟩
  · have made := ofDescription_of_parse parsed
    exact ⟨indexed_of_ofDescription made, parse_write_of_ok made⟩
  · obtain ⟨m, made, same⟩ := exists_ofDescription distinct
    exact ⟨m, same, parse_write_of_ok made⟩
  · rcases ofDescription_cases d with ⟨m, made⟩ | ⟨n, refused, first⟩
    · have distinct := (indexed_of_ofDescription made).distinct
      rw [toDescription_of_ofDescription made] at distinct
      exact absurd distinct repeated
    · refine ⟨n, first, ?_⟩
      simp only [parse, text, ofText, read, refused]
      rfl

end ContractMetadata

end Notary.Metadata
