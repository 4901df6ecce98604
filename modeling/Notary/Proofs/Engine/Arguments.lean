/-
Which records a function is given.

A function that can be executed has an argument for each of its parameters, in their order: a record
of the parameter's name and type, from the existing records or from those that the function's own
consideration proposes. The type of a record is that of its first message.

* `Offered`, `IsArgument` — a record in the pool that a parameter's kind selects, and one that is
  also of the parameter's type.
* `Partition.Exact`, `exact_of_runOn_partition` — the pending considerations are split into those
  whose parameters all have records and which nothing makes superfluous, and the others.
* `ArgumentTypes`, `arguments_typed` — an argument has the type of its parameter as a record and in
  its first message, and when it has that type throughout.
* `deed_among_notes` — a record that has it in its first message only.
-/

import Notary.Proofs.Engine.Bindings

namespace Notary.Engine

open Notary.Contract
open Notary.Metadata
open Notary.Store (MemoryStore)

section Store

variable {σ : Type} [Store.ObjectStore σ] {s : Context.Surroundings} {reader : PublicKey}
  {m : ContractMetadata} {existing : RecordPool} {w w' u u' : Workspace σ}

/-- The record has the parameter's name, among the existing records or among those that the
consideration itself proposes. -/
def Offered (s : Context.Surroundings) (reader : PublicKey) (w : Workspace σ)
    (existing : RecordPool) (c : Consideration) (p : Parameter) (r : LoadedRecord) : Prop :=
  match p.recordType with
  | .existing => existing.get? p.name = some r
  | .proposed => Proposes s reader w c p.name r

/-- Such a record, of the type that the parameter asks for. -/
structure IsArgument (s : Context.Surroundings) (reader : PublicKey) (w : Workspace σ)
    (existing : RecordPool) (c : Consideration) (p : Parameter) (r : LoadedRecord) : Prop where
  offered : Offered s reader w existing c p r
  typed : r.type = p.typeName

/-! ### Records of one consideration -/

theorem Proposes.of_reached {c : Consideration} {name : String} {r : LoadedRecord}
    (reached : Reached s reader w u) (proposes : Proposes s reader u c name r) :
    Proposes s reader w c name r := by
  obtain ⟨input, member, hash, message, named, hashed, fetches, made⟩ := proposes
  exact ⟨input, member, hash, message, named, hashed, fetches.of_reached reached, made⟩

theorem mem_wantedProposals {f : FunctionDescriptor} {p : Parameter} (member : p ∈ f.parameters)
    (proposed : p.recordType = .proposed) : p.name ∈ wantedProposals f :=
  List.mem_map.mpr ⟨p, List.mem_filter.mpr ⟨member, by simp [proposed]⟩, rfl⟩

/-- A parameter is matched with a record that it may be given. -/
theorem isArgument_of_matchParameter {c : Consideration} {f : FunctionDescriptor}
    {proposed : RecordPool} (reached : Reached s reader w u)
    (loads : (loadProposed s reader c f).runOn u = (.ok proposed, u')) {p : Parameter}
    (member : p ∈ f.parameters) {r : LoadedRecord}
    (matched : matchParameter existing proposed p = some r) :
    IsArgument s reader w existing c p r := by
  obtain ⟨found, typed⟩ := matchParameter_eq_some_iff.mp matched
  refine ⟨?_, typed⟩
  unfold Offered
  cases kind : p.recordType with
  | existing => simpa only [kind, RecordKind.pool] using found
  | proposed =>
    simp only [kind, RecordKind.pool] at found
    have proposes := (get?_of_runOn_loadProposed loads (mem_wantedProposals member kind)).1 r found
    exact proposes.of_reached reached

/-- A parameter is resolved by every record that it may be given. -/
theorem resolved_iff {c : Consideration} {f : FunctionDescriptor} {proposed : RecordPool}
    (reached : Reached s reader w u)
    (loads : (loadProposed s reader c f).runOn u = (.ok proposed, u')) {p : Parameter}
    (member : p ∈ f.parameters) :
    Resolved existing proposed p ↔ ∃ r, IsArgument s reader w existing c p r := by
  constructor
  · rintro ⟨r, found⟩
    exact ⟨r, isArgument_of_matchParameter reached loads member
      (matchParameter_eq_some_iff.mpr found)⟩
  · rintro ⟨r, offered, typed⟩
    unfold Offered at offered
    unfold Resolved
    cases kind : p.recordType with
    | existing =>
      simp only [kind] at offered
      exact ⟨r, offered, typed⟩
    | proposed =>
      simp only [kind] at offered
      obtain ⟨input, inside, hash, message, named, hashed, fetches, rfl⟩ := offered
      obtain ⟨message', fetches', found⟩ :=
        (get?_of_runOn_loadProposed loads (mem_wantedProposals member kind)).2 input inside hash
          named hashed
      refine ⟨_, found, ?_⟩
      -- A record that is fetched twice may differ, since the store may; its type may not.
      have same := (fetches'.of_reached reached).typeNamed?.symm.trans fetches.typeNamed?
      exact (Option.some.inj same).trans typed

theorem forall₂_filterMap {α β : Type} {f : α → Option β} {as : List α}
    (all : ∀ a ∈ as, (f a).isSome) :
    List.Forall₂ (fun a b => f a = some b) as (as.filterMap f) := by
  induction as with
  | nil => exact .nil
  | cons a rest ih =>
    obtain ⟨b, here⟩ := Option.isSome_iff_exists.mp (all a List.mem_cons_self)
    rw [List.filterMap_cons_some here]
    exact .cons here (ih fun a member => all a (List.mem_cons_of_mem _ member))

theorem runs_iff {b : Binding} (reached : Reached s reader w u)
    (loads : (loadProposed s reader b.consideration b.function).runOn u = (.ok b.proposed, u')) :
    b.Runs existing ↔
      (∀ p ∈ b.function.parameters, ∃ r, IsArgument s reader w existing b.consideration p r) ∧
        ∀ name ∈ b.function.skipIfRecordExists, existing.get? name = none := by
  refine and_congr ?_ ?_
  · exact forall₂_congr fun p member => resolved_iff reached loads member
  · simp [RecordPool.get?]

/-- A function that runs has one argument for each parameter, in their order. -/
theorem forall₂_arguments {b : Binding} (reached : Reached s reader w u)
    (loads : (loadProposed s reader b.consideration b.function).runOn u = (.ok b.proposed, u'))
    (runs : b.Runs existing) :
    List.Forall₂ (IsArgument s reader w existing b.consideration) b.function.parameters
      (b.prepared existing).arguments := by
  have matched : List.Forall₂ (fun p r => matchParameter existing b.proposed p = some r)
      b.function.parameters (b.prepared existing).arguments :=
    forall₂_filterMap fun p member => isSome_matchParameter_iff.mpr (runs.1 p member)
  refine ((List.forall₂_and_left _ _).mpr ⟨fun p member => member, matched⟩).imp ?_
  rintro p r ⟨member, here⟩
  exact isArgument_of_matchParameter reached loads member here

theorem arguments_of_runOn_partition {cs : List Consideration} {parts : Partition}
    (splits : (partition s reader m existing cs).runOn w = (.ok parts, w')) :
    ∀ q ∈ parts.executable, ∃ c : Consideration, cs[q.index]? = some c ∧
      List.Forall₂ (IsArgument s reader w existing c) q.function.parameters q.arguments := by
  obtain ⟨bs, places, bound, executable, -⟩ := runOn_partitionFrom splits
  intro q first
  rw [executable] at first
  obtain ⟨b, member, rfl⟩ := List.mem_map.mp first
  obtain ⟨inside, runs⟩ := List.mem_filter.mp member
  obtain ⟨u, u', reached, loads⟩ := bound.loaded b inside
  exact ⟨b.consideration, ((exists_binding_iff_of_places places).mp ⟨b, inside, rfl, rfl⟩).1,
    forall₂_arguments reached loads (of_decide_eq_true runs)⟩

/-! ### The split -/

/-- The considerations from the first to the last are split exactly. -/
structure Partition.Exact (s : Context.Surroundings) (reader : PublicKey) (m : ContractMetadata)
    (w : Workspace σ) (existing : RecordPool) (cs : List Consideration) (parts : Partition) :
    Prop where
  /-- Each list is in the order of the considerations, and has none of them twice. -/
  executable_rises : (parts.executable.map (·.index)).Pairwise (· < ·)
  skipped_rises : (parts.skipped.map (·.index)).Pairwise (· < ·)
  /-- Together they hold the pending considerations. -/
  cover : ∀ i, i ∈ parts.executable.map (·.index) ∨ i ∈ parts.skipped.map (·.index) ↔
    ∃ c : Consideration, cs[i]? = some c ∧ c.isPending = true
  /-- No consideration is in both. -/
  disjoint : ∀ i ∈ parts.executable.map (·.index), i ∉ parts.skipped.map (·.index)
  /-- A pending consideration names a function. It is executable when each parameter has a record,
  and none exists that makes the function superfluous. -/
  executable_iff : ∀ (i : Nat) (c : Consideration), cs[i]? = some c → c.isPending = true →
    ∃ f, m.function? c.considerationName = some f ∧
      (i ∈ parts.executable.map (·.index) ↔
        (∀ p ∈ f.parameters, ∃ r, IsArgument s reader w existing c p r) ∧
          ∀ name ∈ f.skipIfRecordExists, existing.get? name = none)
  /-- A pending consideration proposes no name twice, and each of its hashes is empty or one. -/
  proposals : ∀ (i : Nat) (c : Consideration), cs[i]? = some c → c.isPending = true →
    (c.inputs.map (·.name)).Nodup ∧
      ∀ input ∈ c.inputs, input.hash ≠ [] → ∃ hash : Hash, input.hash = hash.toList
  /-- What is prepared for a consideration is the function that it names. -/
  function : ∀ q ∈ parts.executable ++ parts.skipped, ∃ c : Consideration, cs[q.index]? = some c ∧
    m.function? c.considerationName = some q.function
  /-- The arguments of an executable function are the records of its parameters, in their order. -/
  arguments : ∀ q ∈ parts.executable, ∃ c : Consideration, cs[q.index]? = some c ∧
    List.Forall₂ (IsArgument s reader w existing c) q.function.parameters q.arguments

/-! ### The types of arguments -/

/-- What is known of the types of an argument. The record is of the parameter's type, and so is its
first message. All of a proposed record is; all of an existing one is when every input of its name
points at a record of that type. -/
structure ArgumentTypes (s : Context.Surroundings) (c : Context) (inputs : List Contract.Record)
    (p : Parameter) (r : LoadedRecord) : Prop where
  named : r.name = p.name
  recorded : r.type = p.typeName
  first : r.value.messages.head?.map (·.type) = some p.typeName
  proposed : p.recordType = .proposed → ∀ x ∈ r.value.messages, x.type = p.typeName
  existing : p.recordType = .existing →
    ((∀ x ∈ r.value.messages, x.type = p.typeName) ↔
      ∀ input ∈ inputs, input.name = p.name → input.hasContent = true →
        typeNamed? c s input.classname = some p.typeName)

theorem IsArgument.types {inputs : List Contract.Record} {c : Consideration} {p : Parameter}
    {r : LoadedRecord} (loads : (loadExisting s reader inputs).runOn w = (.ok existing, w'))
    (argument : IsArgument s reader u existing c p r) :
    ArgumentTypes s w.context inputs p r := by
  obtain ⟨offered, typed⟩ := argument
  unfold Offered at offered
  cases kind : p.recordType with
  | existing =>
    simp only [kind] at offered
    obtain ⟨first, types⟩ := types_of_runOn_loadExisting loads offered
    refine ⟨RecordPool.name_of_get? offered, typed, typed ▸ first, by simp [kind], ?_⟩
    intro _
    constructor
    · intro all input member named content
      obtain ⟨x, inside, same⟩ := (types _).mpr ⟨input, member, named, content, rfl⟩
      rw [← same, all x inside]
    · intro all x inside
      obtain ⟨input, member, named, content, same⟩ := (types _).mp ⟨x, inside, rfl⟩
      exact Option.some.inj (same.symm.trans (all input member named content))
  | proposed =>
    simp only [kind] at offered
    obtain ⟨input, member, hash, message, named, hashed, fetches, rfl⟩ := offered
    replace typed : message.type = p.typeName := typed
    refine ⟨rfl, typed, congrArg some typed, ?_, by simp [kind]⟩
    intro _ x inside
    obtain rfl : x = message := List.mem_singleton.mp inside
    exact typed

end Store

/-! ### Records of two types under one name -/

namespace Holdings

/-- Two types without fields. -/
def note : Schema.MessageType := ⟨"Note", [], false, {}⟩

def deed : Schema.MessageType := ⟨"Deed", [], false, {}⟩

def pool : Schema.Pool where
  files := [⟨"t", []⟩]
  definitions := [⟨"Note", .message, "t"⟩, ⟨"Deed", .message, "t"⟩]
  types := [note, deed]

/-- The host declares both types. -/
def hosted : Context.Surroundings := { host := { pool } }

def noteMessage : Schema.Message := .blank "Note"

/-- A deed with a field that its type does not know. -/
def deedBytes : Bytes := [8, 1]

def deedMessage : Schema.Message := ((pool.decode deed deedBytes).toOption).getD (.blank "Deed")

/-- A note and a deed are there for everybody. -/
def seeds : List MemoryStore.Step := [.insertRecord "Note" [], .insertRecord "Deed" deedBytes]

def holdings : Workspace MemoryStore := ⟨MemoryStore.after {} seeds, .empty⟩

/-- Both under one name, the note first. -/
def inputs : List Contract.Record :=
  [.new "asset" (.new "Note" (contentHash [])), .new "asset" (.new "Deed" (contentHash deedBytes))]

/-- What is loaded of them. -/
def existing : RecordPool := [⟨"asset", "Note", .collection [noteMessage, deedMessage]⟩]

def keep : FunctionDescriptor :=
  ⟨"keep", "", "", [⟨.existing, "asset", false, "Note"⟩], "Note", none⟩

def trade : FunctionDescriptor :=
  ⟨"trade", "", "", [⟨.proposed, "offer", false, "Deed"⟩, ⟨.existing, "asset", false, "Note"⟩],
    "Note", none⟩

def issue : FunctionDescriptor := ⟨"issue", "", "", [], "Note", some "asset"⟩

def metadata : ContractMetadata where
  scopeSpecificationUuids := []
  participants := []
  name := "holdings"
  description := ""
  websiteUrl := ""
  iconUrl := ""
  functions := [keep, trade, issue]
  index := ((({} : Std.HashMap String Nat).insert "keep" 0).insert "trade" 1).insert "issue" 2

def offer : ProposedRecord := .new "offer" "Deed" (contentHash deedBytes)

/-- The second consideration is done already. -/
def considerations : List Consideration :=
  [{ considerationName := "keep" }, { considerationName := "keep", result := some (.fail "") },
    { considerationName := "trade", inputs := [offer] }, { considerationName := "issue" }]

def bindings : List Binding :=
  [⟨0, { considerationName := "keep" }, keep, []⟩,
    ⟨2, { considerationName := "trade", inputs := [offer] }, trade, [.single "offer" deedMessage]⟩,
    ⟨3, { considerationName := "issue" }, issue, []⟩]

theorem contentHash_ne : contentHash deedBytes ≠ contentHash [] := by
  decide +kernel

theorem lookup_holdings {type : String} {bytes : Bytes}
    (alone : MemoryStore.writesOf (contentHash bytes) seeds =
      [⟨.record type, bytes, .everyone, none⟩]) :
    holdings.store.lookup (contentHash bytes) .zero (.record type) = .ok bytes := by
  have stored : holdings.store.objects[contentHash bytes]? =
      some ⟨.record type, bytes, .everyone, none⟩ := by
    rw [holdings, MemoryStore.objects_after, alone]
    simp [MemoryStore.mergeAll, MemoryStore.merge]
  exact (MemoryStore.lookup_of_admits stored rfl _).trans (if_pos rfl)

theorem gives_note (name : String) :
    (fetchRecord hosted .zero ⟨name, "Note", contentHash []⟩).Gives holdings noteMessage := by
  have alone : MemoryStore.writesOf (contentHash []) seeds =
      [⟨.record "Note", [], .everyone, none⟩] := by
    simp [seeds, MemoryStore.writesOf, MemoryStore.Step.written?, contentHash_ne]
  have typed : (messageType hosted "Note").Gives holdings (pool, note) := rfl
  exact gives_fetchRecord (l := ⟨name, "Note", _⟩) (lookup_holdings alone) typed rfl

theorem gives_deed (name : String) :
    (fetchRecord hosted .zero ⟨name, "Deed", contentHash deedBytes⟩).Gives holdings
      deedMessage := by
  have alone : MemoryStore.writesOf (contentHash deedBytes) seeds =
      [⟨.record "Deed", deedBytes, .everyone, none⟩] := by
    simp [seeds, MemoryStore.writesOf, MemoryStore.Step.written?, contentHash_ne.symm]
  have typed : (messageType hosted "Deed").Gives holdings (pool, deed) := rfl
  exact gives_fetchRecord (l := ⟨name, "Deed", _⟩) (lookup_holdings alone) typed rfl

theorem gives_existing : (loadExisting hosted .zero inputs).Gives holdings existing := by
  have located : locateInputs inputs =
      .ok [⟨"asset", "Note", contentHash []⟩, ⟨"asset", "Deed", contentHash deedBytes⟩] := by
    refine locateInputs_eq_ok_iff.mpr ?_
    simp [inputs, Located.ofInput?, Record.new, Record.contentHash?, Location.contentHash?,
      Location.new, Record.classname]
  have grouped : groupByName [("asset", noteMessage), ("asset", deedMessage)] = .ok existing := by
    have one : sorted ["asset", "asset"].eraseDups = ["asset"] := List.mergeSort_singleton _
    unfold groupByName
    simp only [List.map_cons, List.map_nil, one]
    rfl
  exact gives_loadExisting located (.cons (gives_note "asset") (.cons (gives_deed "asset") .nil))
    grouped

theorem bound_bindings : Bound hosted .zero metadata holdings bindings := by
  have located : locateProposed (wantedProposals trade) [] [offer] =
      .ok [⟨"offer", "Deed", contentHash deedBytes⟩] := by
    refine locateProposed_eq_ok_iff.mpr ?_
    simp [offer, ProposedRecord.new, ProposedRecord.contentHash?, Located.ofProposal?,
      wantedProposals, trade]
  constructor
  · simp [bindings, ContractMetadata.function?, metadata, Std.HashMap.getElem_insert]
  · simp only [bindings, List.forall_mem_cons]
    refine ⟨gives_loadProposed rfl .nil rfl, ?_, gives_loadProposed rfl .nil rfl, by simp⟩
    exact gives_loadProposed located (.cons (gives_deed "offer") .nil) rfl

def parts : Partition where
  executable := (bindings.filter (·.Runs existing)).map (·.prepared existing)
  skipped := (bindings.filter (¬ ·.Runs existing)).map (·.prepared existing)

theorem gives_parts :
    (partition hosted .zero metadata existing considerations).Gives holdings parts :=
  gives_partitionFrom_of_bound rfl bound_bindings

theorem indices : parts.executable.map (·.index) = [0, 2] ∧ parts.skipped.map (·.index) = [3] := by
  decide +kernel

/-- The records are loaded, and the considerations are split on what the loading leaves. -/
theorem runOn_holdings : ∃ w w',
    (loadExisting hosted .zero inputs).runOn holdings = (.ok existing, w) ∧
      (partition hosted .zero metadata existing considerations).runOn w = (.ok parts, w') := by
  have loads : (loadExisting hosted .zero inputs).runOn holdings = (.ok existing, _) :=
    Prod.ext gives_existing rfl
  have alike := ((looks_loadExisting inputs).reached loads).alike
  have splits := ((looks_partitionFrom metadata existing considerations 0).steady.respects _ _
    alike).1.symm.trans gives_parts
  exact ⟨_, _, loads, Prod.ext splits rfl⟩

end Holdings

/-! ### Exact splits and typed arguments -/

section Store

variable {σ : Type} [Store.ObjectStore σ] {s : Context.Surroundings} {reader : PublicKey}
  {m : ContractMetadata} {existing : RecordPool} {w w' u u' : Workspace σ}

/-- Whenever considerations are partitioned, on any store, they are split exactly. -/
theorem exact_of_runOn_partition {cs : List Consideration} {parts : Partition}
    (splits : (partition s reader m existing cs).runOn w = (.ok parts, w')) :
    parts.Exact s reader m w existing cs := by
  obtain ⟨bs, places, bound, executable, skipped⟩ := runOn_partitionFrom splits
  have all : ∀ q ∈ parts.executable ++ parts.skipped, ∃ b ∈ bs, q = b.prepared existing := by
    rw [executable, skipped]
    grind
  refine
    { executable_rises := executable ▸ pairwise_prepared_of_places places _
      skipped_rises := skipped ▸ pairwise_prepared_of_places places _
      cover := ?_
      disjoint := ?_
      executable_iff := ?_
      proposals := ?_
      function := ?_
      arguments := arguments_of_runOn_partition splits }
  · intro i
    simp only [executable, skipped, ← exists_binding_iff_of_places places, List.map_map,
      List.mem_map, List.mem_filter, decide_eq_true_eq, Function.comp_apply, Binding.prepared]
    grind
  · intro i first second
    obtain ⟨q, member, rfl⟩ := List.mem_map.mp first
    obtain ⟨b, inside, rfl⟩ := all q (List.mem_append_left _ member)
    rw [executable] at first
    rw [skipped] at second
    have runs := (index_mem_prepared_iff places _ inside).mp first
    have rests := (index_mem_prepared_iff places _ inside).mp second
    exact of_decide_eq_true rests (of_decide_eq_true runs)
  · intro i c found pending
    obtain ⟨b, inside, rfl, rfl⟩ := (exists_binding_iff_of_places places).mpr ⟨found, pending⟩
    obtain ⟨u, u', reached, loads⟩ := bound.loaded b inside
    refine ⟨b.function, bound.named b inside, ?_⟩
    rw [executable, index_mem_prepared_iff places _ inside, decide_eq_true_iff,
      runs_iff reached loads]
  · intro i c found pending
    obtain ⟨b, inside, rfl, rfl⟩ := (exists_binding_iff_of_places places).mpr ⟨found, pending⟩
    obtain ⟨u, u', reached, loads⟩ := bound.loaded b inside
    exact proposals_of_runOn_loadProposed loads
  · intro q member
    obtain ⟨b, inside, rfl⟩ := all q member
    exact ⟨b.consideration, ((exists_binding_iff_of_places places).mp ⟨b, inside, rfl, rfl⟩).1,
      bound.named b inside⟩

end Store

open Holdings in
/-- A consideration that keeps a note, one that trades it for a deed that is offered, and one that
is superfluous, with one between them that is done. -/
theorem holdings_are_split_exactly :
    ∃ parts w, (partition hosted .zero metadata existing considerations).runOn holdings =
        (.ok parts, w) ∧
      parts.executable.map (·.index) = [0, 2] ∧ parts.skipped.map (·.index) = [3] ∧
      parts.Exact hosted .zero metadata holdings existing considerations := by
  have splits : (partition hosted .zero metadata existing considerations).runOn holdings =
      (.ok parts, _) := Prod.ext gives_parts rfl
  exact ⟨parts, _, splits, indices.1, indices.2, exact_of_runOn_partition splits⟩

section Store

variable {σ : Type} [Store.ObjectStore σ] {s : Context.Surroundings} {reader : PublicKey}
  {m : ContractMetadata} {existing : RecordPool} {w w' u u' : Workspace σ}

/-- The arguments of the functions that can be executed, in the order of their parameters, have the
types that are known of them. Only a record that several inputs of different types make up is not of
one type throughout. -/
theorem arguments_typed {inputs : List Contract.Record} {cs : List Consideration}
    {parts : Partition} (loads : (loadExisting s reader inputs).runOn w = (.ok existing, w'))
    (splits : (partition s reader m existing cs).runOn u = (.ok parts, u')) :
    ∀ q ∈ parts.executable,
      List.Forall₂ (ArgumentTypes s w.context inputs) q.function.parameters q.arguments := by
  intro q member
  obtain ⟨c, -, each⟩ := arguments_of_runOn_partition splits q member
  exact each.imp fun p r argument => argument.types loads

end Store

open Holdings in
/-- The arguments of two functions: a collection of a note and a deed that stands for a note, and a
deed on offer. -/
theorem arguments_of_holdings :
    ∃ w w' parts, (loadExisting hosted .zero inputs).runOn holdings = (.ok existing, w) ∧
      (partition hosted .zero metadata existing considerations).runOn w = (.ok parts, w') ∧
      parts.executable.map (·.index) = [0, 2] ∧
      ∀ q ∈ parts.executable, List.Forall₂ (ArgumentTypes hosted holdings.context inputs)
        q.function.parameters q.arguments := by
  obtain ⟨w, w', loads, splits⟩ := runOn_holdings
  exact ⟨w, w', parts, loads, splits, indices.1, arguments_typed loads splits⟩

open Holdings in
/-- A function that asks for notes is given a deed among them. -/
theorem deed_among_notes :
    ∃ w w' parts, (loadExisting hosted .zero inputs).runOn holdings = (.ok existing, w) ∧
      (partition hosted .zero metadata existing considerations).runOn w = (.ok parts, w') ∧
      ∃ q ∈ parts.executable, ∃ p r, (p, r) ∈ q.function.parameters.zip q.arguments ∧
        p.typeName = "Note" ∧ ∃ x ∈ r.value.messages, x.type = "Deed" ∧ x.type ≠ p.typeName := by
  obtain ⟨w, w', loads, splits⟩ := runOn_holdings
  refine ⟨w, w', parts, loads, splits, ⟨0, keep, existing⟩, ?_, ?_⟩
  · exact List.mem_map.mpr
      ⟨_, List.mem_filter.mpr ⟨List.mem_cons_self, by decide +kernel⟩, rfl⟩
  · exact ⟨_, _, List.mem_singleton_self _, rfl, deedMessage,
      List.mem_cons_of_mem _ List.mem_cons_self, rfl, by decide +kernel⟩

end Notary.Engine
