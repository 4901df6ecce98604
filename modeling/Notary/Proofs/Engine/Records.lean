/-
Which records are loaded.

Records are fetched one after the other, and a fetch may change what a store keeps in memory, so
each record is read on a workspace of its own. Lookups lead from one of these to the next, and no
lookup changes what a name stands for.

* `Reached`, `Reached.answer` — the workspaces that lookups lead to answer every name alike.
* `Fetches`, `Fetches.typeNamed?` — a stored record is read, as the type that its class name stands
  for.
* `forall₂_of_runOn_fetchAll` — records that are fetched together come back in order, each with its
  own name and message.
* `locateInputs_eq_ok_iff`, `locateProposed_eq_ok_iff` — what is located, and when that fails.
* `RecordPool.get?_of_foldlM` — the records of a pool are those that were put in.
* `exists_of_runOn_loadExisting`, `types_of_runOn_loadExisting` — the records of a contract's
  inputs, and the types of their messages.
* `get?_of_runOn_loadProposed` — the records that a consideration proposes.
-/

import Mathlib.Data.List.Forall2
import Notary.Proofs.Engine.Action
import Notary.Proofs.Engine.Validation
import Notary.Proofs.Schema.Decoded

namespace Notary.Engine

open Notary.Contract
open Notary.Metadata
open Notary.Store (MemoryStore)

variable {σ : Type} {s : Context.Surroundings} {reader : PublicKey} {w w' u : Workspace σ}

/-! ### Types of records -/

/-- A message type is what the context answers for its name. -/
theorem answer_of_gives_messageType {name : String} {pool : Schema.Pool}
    {type : Schema.MessageType} (typed : (messageType s name).Gives w (pool, type)) :
    ∃ r, w.context.answer s name = .ok r ∧ r.target = .message pool type := by
  unfold messageType Action.Gives at typed
  rw [Action.runOn_bind, Action.runOn_resolve] at typed
  cases answered : w.context.answer s name with
  | error e =>
    rw [Context.answer] at answered
    rw [answered] at typed
    cases e <;> cases typed
  | ok r =>
    rw [Context.answer] at answered
    simp only [answered] at typed
    refine ⟨r, rfl, ?_⟩
    cases target : r.target with
    | module code =>
      rw [target] at typed
      cases typed
    | message pool' type' =>
      rw [target] at typed
      cases typed
      rfl

/-- The full name of the message type that a name stands for. -/
def typeNamed? (c : Context) (s : Context.Surroundings) (name : String) : Option String :=
  match c.answer s name with
  | .ok r =>
    match r.target with
    | .message _ type => some type.name
    | .module _ => none
  | .error _ => none

section Store

variable [Store.ObjectStore σ]

/-! ### Workspaces on the way -/

/-- Lookups for the reader lead from one workspace to the other. -/
inductive Reached (s : Context.Surroundings) (reader : PublicKey) (w : Workspace σ) :
    Workspace σ → Prop where
  | start : Reached s reader w w
  | step {u : Workspace σ} {β : Type} {act : Action σ β} (before : Reached s reader w u)
      (looks : Action.Lookup s reader β act) : Reached s reader w (act.runOn u).2

namespace Reached

theorem trans (first : Reached s reader w w') (second : Reached s reader w' u) :
    Reached s reader w u := by
  induction second with
  | start => exact first
  | step _ looks ih => exact ih.step looks

/-- What a name stands for does not change on the way. -/
theorem answer (reached : Reached s reader w u) (name : String) :
    u.context.answer s name = w.context.answer s name := by
  induction reached with
  | start => rfl
  | step _ looks ih =>
    rw [← ih]
    cases looks with
    | resolve other => exact Context.answer_resolve _ s other name
    | record type hash => rfl

/-- A memory store is the same all the way. -/
theorem alike {w u : Workspace MemoryStore} (reached : Reached s reader w u) :
    Workspace.Alike s w u := by
  induction reached with
  | start => exact (Action.Frame.alike s).refl w
  | step _ looks ih => exact (Action.Frame.alike s).trans ih (looks.steady.keeps _)

end Reached

/-- Workspaces change by lookups only. -/
def Action.Frame.reached (s : Context.Surroundings) (reader : PublicKey) : Action.Frame σ where
  rel := Reached s reader
  refl _ := .start
  trans := .trans

theorem Action.Looks.reached {α : Type} {act : Action σ α} (looks : Action.Looks s reader act)
    {a : Except Fault α} (ran : act.runOn w = (a, w')) : Reached s reader w w' := by
  have kept := looks.keeps (F := Action.Frame.reached s reader)
    (fun _ _ basic u => Reached.start.step basic) w
  rw [ran] at kept
  exact kept

/-! ### Fetched records -/

/-- The stored record is read as this message, on a workspace that lookups lead to. -/
def Fetches (s : Context.Surroundings) (reader : PublicKey) (w : Workspace σ) (l : Located)
    (m : Schema.Message) : Prop :=
  ∃ u, Reached s reader w u ∧ (fetchRecord s reader l).Gives u m

/-- What is read of a record are its bytes in the store, as the type that its class name stands
for. -/
theorem Fetches.exists_decoded {l : Located} {m : Schema.Message}
    (fetches : Fetches s reader w l m) :
    ∃ u bytes r pool type, Reached s reader w u ∧
      (Store.ObjectStore.getRecord l.classname l.hash reader u.store).1 = .ok bytes ∧
      w.context.answer s l.classname = .ok r ∧ r.target = .message pool type ∧
      pool.decode type bytes = .ok m := by
  obtain ⟨u, reached, gives⟩ := fetches
  have ran : (fetchRecord s reader l).runOn u = (.ok m, ((fetchRecord s reader l).runOn u).2) :=
    Prod.ext gives rfl
  obtain ⟨bytes, u₁, fetched, later⟩ := Action.runOn_bind_eq_ok_iff.mp ran
  obtain ⟨⟨pool, type⟩, u₂, found, decodes⟩ := Action.runOn_bind_eq_ok_iff.mp later
  have there : Reached s reader w u₁ := reached.trans ((looks_fetch _ _).reached fetched)
  obtain ⟨r, answered, target⟩ := answer_of_gives_messageType (congrArg Prod.fst found)
  refine ⟨u, bytes, r, pool, type, reached, ?_, there.answer l.classname ▸ answered, target, ?_⟩
  · obtain ⟨answer, u₃, read, taken⟩ := Action.runOn_bind_eq_ok_iff.mp fetched
    simp only [Action.read, Action.runOn_ofStore, Prod.mk.injEq, Except.ok.injEq] at read
    obtain ⟨rfl, rfl⟩ := read
    cases answer : (Store.ObjectStore.getRecord l.classname l.hash reader u.store).1 with
    | error e => simp [answer] at taken
    | ok bs =>
      simp only [answer, Action.runOn_pure, Prod.mk.injEq, Except.ok.injEq] at taken
      rw [taken.1]
  · cases decoded : pool.decode type bytes with
    | error c => simp [decoded] at decodes
    | ok m' =>
      simp only [decoded, Action.runOn_pure, Prod.mk.injEq, Except.ok.injEq] at decodes
      rw [decodes.1]

/-- A record is read as the type that its class name stands for. -/
theorem Fetches.typeNamed? {l : Located} {m : Schema.Message} (fetches : Fetches s reader w l m) :
    typeNamed? w.context s l.classname = some m.type := by
  obtain ⟨u, bytes, r, pool, type, -, -, answered, target, decoded⟩ := fetches.exists_decoded
  simp only [Notary.Engine.typeNamed?, answered, target, Schema.Pool.type_decode decoded]

theorem Fetches.of_reached {l : Located} {m : Schema.Message} (reached : Reached s reader w u)
    (fetches : Fetches s reader u l m) : Fetches s reader w l m := by
  obtain ⟨v, further, gives⟩ := fetches
  exact ⟨v, reached.trans further, gives⟩

/-- Steps on the pool that only look things up each give their own value, in order. -/
theorem forall₂_of_runOn_all {α β : Type} {f : α → Action σ β}
    (looks : ∀ a, Action.Looks s reader (f a)) {as : List α} {bs : List β}
    (ran : (Action.all (as.map f)).runOn w = (.ok bs, w')) :
    List.Forall₂ (fun a b => ∃ u, Reached s reader w u ∧ (f a).Gives u b) as bs := by
  induction as generalizing w bs with
  | nil =>
    cases ran
    exact .nil
  | cons a rest ih =>
    obtain ⟨b, bs', w₁, here, later, rfl⟩ := Action.runOn_all_cons_eq_ok_iff.mp ran
    have gives : (f a).Gives w b := by rw [Action.Gives, here]
    -- The others run on what the first one leaves, and it only looked things up.
    refine .cons ⟨w, .start, gives⟩ ((ih later).imp ?_)
    rintro a' b' ⟨u, reached, gives'⟩
    exact ⟨u, ((looks a).reached here).trans reached, gives'⟩

/-- Every record comes back with its own name and message. -/
theorem forall₂_of_runOn_fetchAll {ls : List Located} {named : List (String × Schema.Message)}
    (ran : (fetchAll s reader ls).runOn w = (.ok named, w')) :
    List.Forall₂ (fun l nm => nm.1 = l.name ∧ Fetches s reader w l nm.2) ls named := by
  obtain ⟨ms, w₁, fetched, zipped⟩ := Action.runOn_bind_eq_ok_iff.mp ran
  have each := forall₂_of_runOn_all looks_fetchRecord fetched
  cases zipped
  clear ran fetched
  induction each with
  | nil => exact .nil
  | cons here _ ih => exact .cons ⟨rfl, here⟩ ih

end Store

/-! ### Fetching from memory -/

section Memory

variable {w : Workspace MemoryStore}

/-- A record is its bytes, read as the type of its class. -/
theorem fetchRecord_eq (s : Context.Surroundings) (reader : PublicKey) (l : Located) :
    (fetchRecord s reader l : Action MemoryStore Schema.Message) =
      Action.fetch (Store.ObjectStore.getRecord l.classname l.hash reader) >>= fun bytes =>
        messageType s l.classname >>= fun found =>
          Action.ofExcept ((found.1.decode found.2 bytes).mapError fun c =>
            .definition (.invalidRecord l.hash l.classname (.ofCause c))) := by
  refine congrArg (_ >>= ·) (funext fun bytes => congrArg (_ >>= ·) (funext fun found => ?_))
  obtain ⟨pool, type⟩ := found
  dsimp only
  cases pool.decode type bytes <;> rfl

/-- A record whose bytes are there is what they are as the type of its class. -/
theorem answer_fetchRecord {l : Located} {bytes : Bytes} {pool : Schema.Pool}
    {type : Schema.MessageType}
    (stored : w.store.lookup l.hash reader (.record l.classname) = .ok bytes)
    (typed : (messageType s l.classname).Gives w (pool, type)) :
    ((fetchRecord s reader l).runOn w).1 = (pool.decode type bytes).mapError fun c =>
      .definition (.invalidRecord l.hash l.classname (.ofCause c)) := by
  have fetched : (Action.fetch (Store.ObjectStore.getRecord l.classname l.hash reader) :
      Action MemoryStore Bytes).Gives w bytes := by
    have read : (Store.ObjectStore.getRecord l.classname l.hash reader w.store).1 = .ok bytes :=
      stored
    unfold Action.Gives Action.fetch Action.read
    rw [Action.runOn_bind, Action.runOn_ofStore]
    simp only [read]
    rfl
  have reads (r : Except Fault Schema.Message) :
      Action.Steady s (Action.ofExcept r : Action MemoryStore Schema.Message) :=
    Action.Names.steady (.ofExcept r)
  have named := (names_messageType (σ := MemoryStore) (s := s) l.classname).steady
  rw [fetchRecord_eq, (looks_fetch l.classname l.hash).steady.answer_bind
    (fun bytes => named.bind fun found => reads _) fetched, named.answer_bind (fun found => reads _)
    typed]
  rfl

theorem gives_fetchRecord {l : Located} {bytes : Bytes} {pool : Schema.Pool}
    {type : Schema.MessageType} {m : Schema.Message}
    (stored : w.store.lookup l.hash reader (.record l.classname) = .ok bytes)
    (typed : (messageType s l.classname).Gives w (pool, type))
    (decoded : pool.decode type bytes = .ok m) : (fetchRecord s reader l).Gives w m := by
  rw [Action.Gives, answer_fetchRecord stored typed, decoded]
  rfl

/-- Steps on the pool that only look things up succeed together when each does where they start. -/
theorem gives_all {α β : Type} {f : α → Action MemoryStore β}
    (looks : ∀ a, Action.Looks s reader (f a)) {as : List α} {bs : List β}
    (each : List.Forall₂ (fun a b => (f a).Gives w b) as bs) :
    (Action.all (as.map f)).Gives w bs := by
  induction as generalizing bs w with
  | nil =>
    cases each
    rfl
  | cons a as ih =>
    obtain ⟨b, bs, here, later, rfl⟩ := List.forall₂_cons_left_iff.mp each
    have alike := (looks a).steady.keeps w
    have rest : (Action.all (as.map f)).Gives ((f a).runOn w).2 bs := by
      refine ih (later.imp ?_)
      intro a' b' gives
      rwa [Action.Gives, ← ((looks a').steady.respects _ _ alike).1]
    exact congrArg Prod.fst (Action.runOn_all_cons_eq_ok_iff.mpr
      ⟨b, bs, _, Prod.ext here rfl, Prod.ext rest rfl, rfl⟩)

/-- Records that can each be fetched are fetched together. -/
theorem gives_fetchAll {ls : List Located} {ms : List Schema.Message}
    (each : List.Forall₂ (fun l m => (fetchRecord s reader l).Gives w m) ls ms) :
    (fetchAll s reader ls).Gives w ((ls.map (·.name)).zip ms) := by
  have looks : Action.Looks s reader
      (Action.all (ls.map (fetchRecord s reader)) : Action MemoryStore _) := by
    refine .all ?_
    intro step member
    obtain ⟨l, -, rfl⟩ := List.mem_map.mp member
    exact looks_fetchRecord l
  exact (looks.steady.gives_bind_iff fun _ => .pure _).mpr
    ⟨ms, gives_all looks_fetchRecord each, rfl⟩

end Memory

/-! ### Where records are stored -/

theorem bind_eq_ok_iff {α β : Type} {r : Except Fault α} {f : α → Except Fault β} {b : β} :
    (r >>= f) = .ok b ↔ ∃ a, r = .ok a ∧ f a = .ok b := by
  cases r with
  | error e => simp [bind, Except.bind]
  | ok a => simp [bind, Except.bind]

theorem map_eq_ok_iff {α β : Type} {r : Except Fault α} {f : α → β} {b : β} :
    r.map f = .ok b ↔ ∃ a, r = .ok a ∧ f a = b := by
  cases r <;> simp [Except.map]

theorem mapM_eq_ok_iff {α β : Type} {f : α → Except Fault β} {as : List α} {bs : List β} :
    as.mapM f = .ok bs ↔ List.Forall₂ (fun a b => f a = .ok b) as bs := by
  induction as generalizing bs with
  | nil => cases bs <;> simp [pure, Except.pure]
  | cons a rest ih =>
    simp only [List.mapM_cons, bind_eq_ok_iff, ih, List.forall₂_cons_left_iff]
    constructor
    · rintro ⟨b, here, bs', later, built⟩
      cases built
      exact ⟨b, bs', here, later, rfl⟩
    · rintro ⟨b, bs', here, later, rfl⟩
      exact ⟨b, here, bs', later, rfl⟩

theorem ofField?_eq_some_iff {field : Bytes} {hash : Hash} :
    Hash.ofField? field = some hash ↔ hash.toList = field := by
  constructor
  · intro found
    unfold Hash.ofField? at found
    split at found
    · cases found
    · exact FixedBytes.ofBytes?_eq_some_iff.mp found
  · rintro rfl
    exact Hash.ofField?_toList hash

theorem contentReference_eq_ok_iff {name : String} {field : Bytes} {hash : Option Hash} :
    contentReference name field = .ok hash ↔
      (field ≠ [] → (Hash.ofField? field).isSome) ∧ hash = Hash.ofField? field := by
  unfold contentReference Hash.ofField?
  cases field with
  | nil => simp [eq_comm]
  | cons b rest =>
    cases fits : FixedBytes.ofBytes? 32 (b :: rest) <;> simp [eq_comm]

/-- Where the content of an input is stored, when its hash is one. -/
def Located.ofInput? (r : Contract.Record) : Option Located :=
  r.contentHash?.map fun h => ⟨r.name, r.classname, h⟩

/-- Where a proposed record is stored, when its hash is one. -/
def Located.ofProposal? (r : ProposedRecord) : Option Located :=
  r.contentHash?.map fun h => ⟨r.name, r.classname, h⟩

theorem hasContent_of_contentHash? {r : Contract.Record} {hash : Hash}
    (hashed : r.contentHash? = some hash) : r.hasContent = true := by
  obtain ⟨l, located, filled⟩ := Option.bind_eq_some_iff.mp hashed
  rw [hasContent_iff]
  refine ⟨l, located, ?_⟩
  rintro empty
  simp [Location.contentHash?, Hash.ofField?, empty] at filled

/-- The hash field of an input, empty without a location. -/
def hashField (input : Contract.Record) : Bytes := (input.dataLocation.map (·.hash)).getD []

theorem hasContent_iff_hashField {input : Contract.Record} :
    input.hasContent = true ↔ hashField input ≠ [] := by
  rw [hasContent_iff, hashField]
  cases input.dataLocation <;> simp

theorem contentHash?_eq_ofField? (input : Contract.Record) :
    input.contentHash? = Hash.ofField? (hashField input) := by
  rw [Record.contentHash?, hashField]
  cases input.dataLocation <;> rfl

theorem locateInput_eq_ok_iff {r : Contract.Record} {l : Option Located} :
    locateInput r = .ok l ↔
      (r.hasContent = true → r.contentHash?.isSome) ∧ Located.ofInput? r = l := by
  rw [hasContent_iff_hashField, Located.ofInput?, contentHash?_eq_ofField?, locateInput,
    ← hashField, map_eq_ok_iff]
  simp only [contentReference_eq_ok_iff, and_assoc, exists_and_left, exists_eq_left]

/-- Inputs are located when the hash of each input with content is one. -/
theorem locateInputs_eq_ok_iff {inputs : List Contract.Record} {ls : List Located} :
    locateInputs inputs = .ok ls ↔
      (∀ r ∈ inputs, r.hasContent = true → r.contentHash?.isSome) ∧
        inputs.filterMap Located.ofInput? = ls := by
  have each : ∀ found, inputs.mapM locateInput = .ok found ↔
      (∀ r ∈ inputs, r.hasContent = true → r.contentHash?.isSome) ∧
        inputs.map Located.ofInput? = found := by
    intro found
    simp only [mapM_eq_ok_iff, locateInput_eq_ok_iff, List.forall₂_and_left]
    rw [← List.forall₂_map_left_iff (R := Eq), List.forall₂_eq_eq_eq]
  unfold locateInputs
  simp only [map_eq_ok_iff, each, and_assoc, exists_and_left, exists_eq_left', List.filterMap_map,
    Function.id_comp]

/-- One proposed record is located after the other. -/
theorem locateProposed_cons_eq_ok_iff {wanted seen : List String} {r : ProposedRecord}
    {rest : List ProposedRecord} {ls : List Located} :
    locateProposed wanted seen (r :: rest) = .ok ls ↔
      r.name ∉ seen ∧ (r.hash ≠ [] → r.contentHash?.isSome) ∧
        ∃ later, locateProposed wanted (r.name :: seen) rest = .ok later ∧
          ([r].filter fun r => wanted.contains r.name).filterMap Located.ofProposal? ++ later =
            ls := by
  have refers := @contentReference_eq_ok_iff r.name r.hash
  rw [locateProposed]
  by_cases known : seen.contains r.name = true
  · simp_all
  · rw [if_neg known]
    cases referred : contentReference r.name r.hash with
    | error e => simp_all [ProposedRecord.contentHash?]
    | ok hash =>
      obtain ⟨fits, rfl⟩ := refers.mp referred
      cases located : locateProposed wanted (r.name :: seen) rest with
      | error e => simp
      | ok later =>
        by_cases wants : r.name ∈ wanted <;>
          cases found : Hash.ofField? r.hash <;>
            simp_all [Located.ofProposal?, ProposedRecord.contentHash?]

/-- Proposed records are located when no name is proposed twice and every hash is empty or one. -/
theorem locateProposed_eq_ok_iff {wanted seen : List String} {rs : List ProposedRecord}
    {ls : List Located} :
    locateProposed wanted seen rs = .ok ls ↔
      (rs.map (·.name)).Nodup ∧ (∀ r ∈ rs, r.name ∉ seen) ∧
        (∀ r ∈ rs, r.hash ≠ [] → r.contentHash?.isSome) ∧
        (rs.filter fun r => wanted.contains r.name).filterMap Located.ofProposal? = ls := by
  induction rs generalizing seen ls with
  | nil => simp [locateProposed]
  | cons r rest ih =>
    -- The names seen so far carry the induction: a name of the rest is none of them, nor the first.
    have split : ((r :: rest).filter fun r => wanted.contains r.name) =
        ([r].filter fun r => wanted.contains r.name) ++
          rest.filter fun r => wanted.contains r.name := List.filter_append [r] rest
    rw [locateProposed_cons_eq_ok_iff, split, List.filterMap_append]
    simp only [ih, List.map_cons, List.nodup_cons, List.mem_cons, List.mem_map]
    grind

/-! ### Records by name -/

namespace RecordPool

theorem contains_iff {p : RecordPool} {name : String} :
    p.contains name = true ↔ p.get? name ≠ none := by
  simp [contains, get?]

theorem name_of_get? {p : RecordPool} {name : String} {r : LoadedRecord}
    (found : p.get? name = some r) : r.name = name := by
  simpa using List.find?_some found

theorem get?_cons (q : LoadedRecord) (rest : RecordPool) (name : String) :
    get? (q :: rest) name = if q.name = name then some q else rest.get? name := by
  rw [get?, List.find?_cons]
  by_cases same : q.name = name
  · simp [same]
  · rw [if_neg same, beq_false_of_ne same]
    rfl

/-- A record is placed among records of other names. -/
theorem get?_place {p : RecordPool} {r : LoadedRecord} (new : p.get? r.name = none)
    (name : String) : (p.place r).get? name = if r.name = name then some r else p.get? name := by
  induction p with
  | nil => exact get?_cons r [] name
  | cons q rest ih =>
    rw [get?_cons] at new
    have other : q.name ≠ r.name := fun same => by simp [same] at new
    rw [if_neg other] at new
    unfold place
    split
    · rw [get?_cons]
    · rw [get?_cons, get?_cons, ih new]
      by_cases same : q.name = name
      · rw [if_pos same, if_neg (same ▸ other.symm), if_pos same]
      · rw [if_neg same, if_neg same]

theorem insert_eq_ok_iff {p q : RecordPool} {r : LoadedRecord} :
    p.insert r = .ok q ↔ p.get? r.name = none ∧ p.place r = q := by
  have free : p.contains r.name = true ↔ p.get? r.name ≠ none := contains_iff
  unfold insert
  split <;> simp_all

/-- The records of a pool are those that were there and those that were put in. -/
theorem get?_of_foldlM {κ : Type} {make : κ → Except Fault LoadedRecord} {ks : List κ}
    {p q : RecordPool}
    (built : ks.foldlM (fun (p : RecordPool) k => make k >>= p.insert) p = .ok q)
    (name : String) (r : LoadedRecord) :
    q.get? name = some r ↔ p.get? name = some r ∨ ∃ k ∈ ks, make k = .ok r ∧ r.name = name := by
  induction ks generalizing p with
  | nil =>
    cases built
    simp
  | cons k rest ih =>
    rw [List.foldlM_cons] at built
    obtain ⟨p', here, later⟩ := bind_eq_ok_iff.mp built
    obtain ⟨made, makes, inserted⟩ := bind_eq_ok_iff.mp here
    obtain ⟨new, rfl⟩ := insert_eq_ok_iff.mp inserted
    simp only [ih later, get?_place new, List.exists_mem_cons_iff, makes, Except.ok.injEq]
    by_cases same : made.name = name
    · rw [if_pos same, ← same, new]
      simp only [Option.some.injEq, reduceCtorEq, false_or]
      grind
    · rw [if_neg same]
      grind

end RecordPool

/-- The messages of a record are those that it is made of, and its type is that of the first. -/
theorem ofMessages_eq_ok {name : String} {ms : List Schema.Message} {r : LoadedRecord}
    (made : LoadedRecord.ofMessages name ms = .ok r) :
    r.name = name ∧ r.value.messages = ms ∧ ms.head?.map (·.type) = some r.type := by
  match ms, made with
  | [m], made => cases made; exact ⟨rfl, rfl, rfl⟩
  | m :: m' :: rest, made => cases made; exact ⟨rfl, rfl, rfl⟩

/-- The messages of a name, in order. -/
def messagesOf (name : String) (named : List (String × Schema.Message)) : List Schema.Message :=
  (named.filter fun nm => nm.1 == name).map (·.2)

theorem mem_messagesOf_iff {name : String} {named : List (String × Schema.Message)}
    {m : Schema.Message} : m ∈ messagesOf name named ↔ (name, m) ∈ named := by
  simp [messagesOf]

/-- The record of a name is made of all messages of that name, in order. -/
theorem get?_groupByName {named : List (String × Schema.Message)} {pool : RecordPool}
    (grouped : groupByName named = .ok pool) (name : String) (r : LoadedRecord) :
    pool.get? name = some r ↔ LoadedRecord.ofMessages name (messagesOf name named) = .ok r := by
  have built : (sorted (named.map (·.1)).eraseDups).foldlM (fun (p : RecordPool) name =>
      LoadedRecord.ofMessages name (messagesOf name named) >>= p.insert) [] = .ok pool := grouped
  rw [RecordPool.get?_of_foldlM built]
  simp only [RecordPool.get?, List.find?_nil, reduceCtorEq, false_or]
  constructor
  · rintro ⟨other, -, made, rfl⟩
    obtain ⟨same, -, -⟩ := ofMessages_eq_ok made
    rwa [same]
  · intro made
    obtain ⟨same, -, first⟩ := ofMessages_eq_ok made
    refine ⟨name, ?_, made, same⟩
    have some : messagesOf name named ≠ [] := by
      intro none
      simp [none] at first
    obtain ⟨m, member⟩ := List.exists_mem_of_ne_nil _ some
    rw [mem_sorted_iff, List.mem_eraseDups, List.mem_map]
    exact ⟨(name, m), mem_messagesOf_iff.mp member, rfl⟩

/-! ### Loaded records -/

section Store

variable [Store.ObjectStore σ]

theorem exists_of_forall₂ {α β : Type} {R : α → β → Prop} {as : List α} {bs : List β}
    (each : List.Forall₂ R as bs) : (∀ a ∈ as, ∃ b ∈ bs, R a b) ∧ ∀ b ∈ bs, ∃ a ∈ as, R a b := by
  induction each with
  | nil => simp
  | cons here _ ih =>
    simp only [List.forall_mem_cons, List.exists_mem_cons_iff]
    exact ⟨⟨.inl here, fun a member => .inr (ih.1 a member)⟩,
      .inl here, fun b member => .inr (ih.2 b member)⟩

/-- What was fetched for stored records has their names and types. -/
theorem exists_fetched_iff {ls : List Located} {named : List (String × Schema.Message)}
    (fetched : List.Forall₂ (fun l nm => nm.1 = l.name ∧ Fetches s reader w l nm.2) ls named)
    (name : String) (type : Option String) :
    (∃ m, (name, m) ∈ named ∧ some m.type = type) ↔
      ∃ l ∈ ls, l.name = name ∧ typeNamed? w.context s l.classname = type := by
  induction fetched with
  | nil => simp
  | @cons l nm ls named here _ ih =>
    obtain ⟨same, fetches⟩ := here
    simp only [List.mem_cons, or_and_right, exists_or, ih, exists_eq_left, fetches.typeNamed?,
      ← same]
    refine or_congr_left ?_
    obtain ⟨name', m⟩ := nm
    simp only [Prod.mk.injEq]
    grind

/-- The inputs with content are fetched, and what was fetched is put together by name. -/
theorem exists_of_runOn_loadExisting {inputs : List Contract.Record} {existing : RecordPool}
    (loads : (loadExisting s reader inputs).runOn w = (.ok existing, w')) :
    (∀ r ∈ inputs, r.hasContent = true → r.contentHash?.isSome) ∧
      ∃ named,
        List.Forall₂ (fun l nm => nm.1 = l.name ∧ Fetches s reader w l nm.2)
          (inputs.filterMap Located.ofInput?) named ∧
        groupByName named = .ok existing := by
  obtain ⟨ls, w₁, locates, later⟩ := Action.runOn_bind_eq_ok_iff.mp loads
  obtain ⟨named, w₂, fetched, grouped⟩ := Action.runOn_bind_eq_ok_iff.mp later
  simp only [Action.runOn_ofExcept, Prod.mk.injEq] at locates grouped
  obtain ⟨located, rfl⟩ := locates
  obtain ⟨fits, rfl⟩ := locateInputs_eq_ok_iff.mp located
  exact ⟨fits, named, forall₂_of_runOn_fetchAll fetched, grouped.1⟩

/-- The type of a record is that of its first message, and the types of its messages are those of
the inputs of its name. -/
theorem types_of_runOn_loadExisting {inputs : List Contract.Record} {existing : RecordPool}
    (loads : (loadExisting s reader inputs).runOn w = (.ok existing, w')) {name : String}
    {r : LoadedRecord} (found : existing.get? name = some r) :
    r.value.messages.head?.map (·.type) = some r.type ∧
      ∀ type, (∃ m ∈ r.value.messages, some m.type = type) ↔
        ∃ input ∈ inputs, input.name = name ∧ input.hasContent = true ∧
          typeNamed? w.context s input.classname = type := by
  obtain ⟨fits, named, fetched, grouped⟩ := exists_of_runOn_loadExisting loads
  obtain ⟨-, messages, first⟩ := ofMessages_eq_ok ((get?_groupByName grouped name r).mp found)
  rw [messages]
  refine ⟨first, ?_⟩
  intro type
  simp only [mem_messagesOf_iff, exists_fetched_iff fetched, List.mem_filterMap]
  constructor
  · rintro ⟨l, ⟨input, member, located⟩, named, typed⟩
    obtain ⟨hash, hashed, rfl⟩ := Option.map_eq_some_iff.mp located
    exact ⟨input, member, named, hasContent_of_contentHash? hashed, typed⟩
  · rintro ⟨input, member, named, content, typed⟩
    obtain ⟨hash, hashed⟩ := Option.isSome_iff_exists.mp (fits input member content)
    exact ⟨⟨input.name, input.classname, hash⟩,
      ⟨input, member, Option.map_eq_some_iff.mpr ⟨hash, hashed, rfl⟩⟩, named, typed⟩

/-- The record is fetched for an input that the consideration proposes under the name. -/
def Proposes (s : Context.Surroundings) (reader : PublicKey) (w : Workspace σ) (c : Consideration)
    (name : String) (r : LoadedRecord) : Prop :=
  ∃ input ∈ c.inputs, ∃ hash : Hash, ∃ m, input.name = name ∧ input.hash = hash.toList ∧
    Fetches s reader w ⟨name, input.classname, hash⟩ m ∧ r = .single name m

/-- Each proposed record that a function wants is there as it is fetched, and nothing else. -/
theorem get?_of_runOn_loadProposed {c : Consideration} {f : FunctionDescriptor} {pool : RecordPool}
    (loads : (loadProposed s reader c f).runOn w = (.ok pool, w')) {name : String}
    (wanted : name ∈ wantedProposals f) :
    (∀ r, pool.get? name = some r → Proposes s reader w c name r) ∧
      ∀ input ∈ c.inputs, ∀ hash : Hash, input.name = name → input.hash = hash.toList →
        ∃ m, Fetches s reader w ⟨name, input.classname, hash⟩ m ∧
          pool.get? name = some (.single name m) := by
  obtain ⟨ls, w₁, locates, later⟩ := Action.runOn_bind_eq_ok_iff.mp loads
  obtain ⟨named, w₂, fetched, put⟩ := Action.runOn_bind_eq_ok_iff.mp later
  simp only [Action.runOn_ofExcept, Prod.mk.injEq] at locates put
  obtain ⟨located, rfl⟩ := locates
  obtain ⟨-, -, -, rfl⟩ := locateProposed_eq_ok_iff.mp located
  have each := forall₂_of_runOn_fetchAll fetched
  have built : named.foldlM (fun (p : RecordPool) nm =>
      Except.ok (LoadedRecord.single nm.1 nm.2) >>= p.insert) [] = .ok pool := put.1
  have records : ∀ r, pool.get? name = some r ↔ ∃ nm ∈ named, .single nm.1 nm.2 = r ∧
      r.name = name := by
    intro r
    simpa [RecordPool.get?] using RecordPool.get?_of_foldlM built name r
  refine ⟨?_, ?_⟩
  · intro r found
    obtain ⟨⟨_, m⟩, member, rfl, rfl⟩ := (records r).mp found
    obtain ⟨l, located, rfl, fetches⟩ := (exists_of_forall₂ each).2 _ member
    obtain ⟨input, inside, here⟩ := List.mem_filterMap.mp located
    obtain ⟨hash, hashed, rfl⟩ := Option.map_eq_some_iff.mp here
    exact ⟨input, List.mem_of_mem_filter inside, hash, m, rfl,
      (ofField?_eq_some_iff.mp hashed).symm, fetches, rfl⟩
  · rintro input inside hash rfl hashed
    have located : (⟨input.name, input.classname, hash⟩ : Located) ∈
        (c.inputs.filter fun r => (wantedProposals f).contains r.name).filterMap
          Located.ofProposal? := by
      refine List.mem_filterMap.mpr ⟨input, List.mem_filter.mpr ⟨inside, by simpa⟩, ?_⟩
      simp [Located.ofProposal?, ProposedRecord.contentHash?, hashed]
    obtain ⟨⟨name, m⟩, member, rfl, fetches⟩ := (exists_of_forall₂ each).1 _ located
    exact ⟨m, fetches, (records _).mpr ⟨_, member, rfl, rfl⟩⟩

/-- No name is proposed twice, and no hash is malformed, when the records that a function wants are
loaded. -/
theorem proposals_of_runOn_loadProposed {c : Consideration} {f : FunctionDescriptor}
    {pool : RecordPool} (loads : (loadProposed s reader c f).runOn w = (.ok pool, w')) :
    (c.inputs.map (·.name)).Nodup ∧
      ∀ input ∈ c.inputs, input.hash ≠ [] → ∃ hash : Hash, input.hash = hash.toList := by
  obtain ⟨ls, w₁, locates, -⟩ := Action.runOn_bind_eq_ok_iff.mp loads
  rw [Action.runOn_ofExcept, Prod.mk.injEq] at locates
  obtain ⟨distinct, -, fits, -⟩ := locateProposed_eq_ok_iff.mp locates.1
  refine ⟨distinct, ?_⟩
  intro input member content
  obtain ⟨hash, hashed⟩ := Option.isSome_iff_exists.mp (fits input member content)
  exact ⟨hash, (ofField?_eq_some_iff.mp hashed).symm⟩

end Store

section Memory

variable {w : Workspace MemoryStore} {ls : List Located} {ms : List Schema.Message}

theorem gives_loadExisting {inputs : List Contract.Record} {existing : RecordPool}
    (located : locateInputs inputs = .ok ls)
    (each : List.Forall₂ (fun l m => (fetchRecord s reader l).Gives w m) ls ms)
    (grouped : groupByName ((ls.map (·.name)).zip ms) = .ok existing) :
    (loadExisting s reader inputs).Gives w existing := by
  unfold Action.Gives loadExisting
  rw [Action.runOn_bind, Action.runOn_ofExcept, located]
  refine ((looks_fetchAll ls).steady.gives_bind_iff fun named => ?_).mpr
    ⟨_, gives_fetchAll each, grouped⟩
  exact Action.Names.steady (.ofExcept _)

theorem gives_loadProposed {c : Consideration} {f : FunctionDescriptor} {proposed : RecordPool}
    (located : locateProposed (wantedProposals f) [] c.inputs = .ok ls)
    (each : List.Forall₂ (fun l m => (fetchRecord s reader l).Gives w m) ls ms)
    (put : ((ls.map (·.name)).zip ms).foldlM
      (fun (p : RecordPool) (name, m) => p.insert (.single name m)) [] = .ok proposed) :
    (loadProposed s reader c f).Gives w proposed := by
  unfold Action.Gives loadProposed
  rw [Action.runOn_bind, Action.runOn_ofExcept, located]
  refine ((looks_fetchAll ls).steady.gives_bind_iff fun named => ?_).mpr
    ⟨_, gives_fetchAll each, put⟩
  exact Action.Names.steady (.ofExcept _)

end Memory

end Notary.Engine
