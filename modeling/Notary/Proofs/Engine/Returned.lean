/-
Outputs that come back.

A function may lay out its output in any way that a reader understands. What is stored is the
message that was read, written anew. That is a fixed point: read again it is written as the same
bytes, so the next function is handed what the recorded hash is the hash of. Only the limit on
nesting stands against it: an entry of a map that does not say its message is stored with a blank
one, which needs a level more than the entry that was read.

* `ComesBack` — an output that is stored, fetched and handed to a function as the same bytes.
* `output_comes_back` — every output does, unless it is nested too deeply.
* `filled_entry_is_refused` — one that is nested too deeply only when it is written anew.
-/

import Notary.Proofs.Context.Schemas
import Notary.Proofs.Engine.Outcome
import Notary.Proofs.Schema.Reread
import Notary.Proofs.Store.ReadBack

namespace Notary.Engine

open Notary.Store (MemoryStore)

/-- An output of a type under a name comes back: the bytes that are stored hold a message of the
type, which is handed on as the same bytes. -/
structure ComesBack (s : Context.Surroundings) (w : Workspace MemoryStore) (name : String)
    (message : Schema.Message) (pool : Schema.Pool) (type : Schema.MessageType)
    (back : Schema.Message) : Prop where
  typed : (messageType s name).Gives w (pool, type)
  decoded : pool.decode type message.bytes = .ok back
  handed : (RecordValue.single back).bytes = message.bytes
  /-- The bytes are written under the name, which may have a dot in front, and the record of the
  output has the hash of what is handed on. -/
  recorded : ∀ (caller : Caller) (audience : Store.Readers) (scope : Option Contract.ScopeState)
    (index : Nat) (output : String) (v : Workspace MemoryStore),
    ∃ record : Contract.ProposedRecord,
      (storeOutput caller audience scope ⟨index, output, message⟩).runOn v =
          (.ok (index, .pass record),
            { v with store := (MemoryStore.Step.putRecord (Symbol.withoutDot name) message.bytes
                caller.signing.publicKey caller.encryption.publicKey audience).apply v.store }) ∧
        record.classname = Symbol.withoutDot name ∧
        record.contentHash? = some (contentHash (RecordValue.single back).bytes)
  /-- Whoever is given the bytes as a record of the type has the message. -/
  fetched : ∀ (s' : Context.Surroundings) (reader : PublicKey) (l : Located)
    (v : Workspace MemoryStore),
    v.store.lookup l.hash reader (.record l.classname) = .ok message.bytes →
    (messageType s' l.classname).Gives v (pool, type) → (fetchRecord s' reader l).Gives v back

section Returned

variable {s : Context.Surroundings} {w : Workspace MemoryStore} {name : String}
  {pool : Schema.Pool} {type : Schema.MessageType}

/-! ### Every output -/

/-- For every pool around a context that was made by adding files, every history of the context and
every output that is read as the type that its function declares: unless messages stand in one
another more than a hundred levels deep in what was read, the bytes that are stored of it are read
again, and the message of them is handed to the next function as the same bytes, whose hash is the
recorded one. -/
theorem output_comes_back (made : s.Made) {history : List Context.Step}
    (context : w.context = Context.empty.after s history) {m : Metadata.ContractMetadata}
    {p : Prepared} {output : Bytes} {message : Schema.Message}
    (accepted : (readOutput s m p output).Gives w (.ok message))
    (level : message.nesting ≤ Wire.depthLimit) (short : message.bytes.length < Wire.sizeLimit) :
    ∃ pool type back, ComesBack s w p.function.returnType message pool type back := by
  obtain ⟨type, -, pool, typed, decoded⟩ := yields_of_gives_readOutput accepted
  obtain ⟨r, answered, target⟩ := answer_of_gives_messageType typed
  rw [context] at answered
  obtain ⟨ofFiles, held⟩ := Context.made_of_answer made answered target
  have again := Schema.Pool.decode_bytes ofFiles.sound (Schema.Pool.mem_of_type? held) decoded level
    short
  have same : (RecordValue.single (message.heard false)).bytes = message.bytes :=
    message.bytes_heard false
  refine ⟨pool, type, message.heard false, typed, again, same, ?_, ?_⟩
  · intro caller audience scope index name v
    obtain ⟨record, ran, named, hashed⟩ := runOn_storeOutput caller audience scope
      ⟨index, name, message⟩ v
    rw [Schema.Pool.type_decode decoded, Schema.Pool.name_of_type? held] at ran named
    exact ⟨record, ran, named, by rw [same]; exact hashed⟩
  · intro s' reader l v stored typed'
    rw [Action.Gives, answer_fetchRecord stored typed', again]
    rfl

end Returned

/-! ### The limit on nesting -/

namespace Nested

open Schema

/-- A file with the type of a node, which holds another node as a group, and a map of nodes. -/
def file : FileDecl where
  name := "t"
  messages := [
    { name := "T"
      fields := [
        { name := "c", number := 1, type := 10, typeName := ".T" },
        { name := "e", number := 2, label := 3, type := 11, typeName := ".T.E" }]
      nested := [
        { name := "E"
          fields := [
            { name := "key", number := 1, type := 5 },
            { name := "value", number := 2, type := 11, typeName := ".T" }]
          options := some { value := true } }] }]

def inner : Field := ⟨1, "c", .group "T", .single, false, true, none, none, [], false⟩

def entries : Field := ⟨2, "e", .message "T.E", .map, false, false, none, none, [], false⟩

def key : Field := ⟨1, "key", .scalar .int32, .single, false, true, none, none, [], false⟩

def value : Field := ⟨2, "value", .message "T", .single, false, true, none, none, [], false⟩

def type : MessageType := ⟨"T", [inner, entries], false, {}⟩

def entryType : MessageType := ⟨"T.E", [key, value], true, {}⟩

/-- The pool of the file. -/
def pool : Pool where
  files := [⟨"t", []⟩]
  definitions := [⟨"T", .message, "t"⟩, ⟨"T.c", .member, "t"⟩, ⟨"T.e", .member, "t"⟩,
    ⟨"T.E", .message, "t"⟩, ⟨"T.E.key", .member, "t"⟩, ⟨"T.E.value", .member, "t"⟩]
  types := [type, entryType]

def hosted : Context.Surroundings := { host := { pool } }

/-- The pool when the fields are not there yet. -/
def outlined : Pool := { pool with types := [⟨"T", [], false, {}⟩, ⟨"T.E", [], true, {}⟩] }

def nodeDecl : MessageDecl := (file.messages.head?).getD {}

def entryDecl : MessageDecl := (nodeDecl.nested.head?).getD {}

theorem declared_file : file.declared = [⟨"T", file, nodeDecl⟩, ⟨"T.E", file, entryDecl⟩] := by
  rfl

theorem contents?_file : outlined.contents? file = some ([type, entryType], []) := by
  have node : outlined.messageType? false ⟨"T", file, nodeDecl⟩ = some type :=
    Pool.messageType?_eq [inner, entries] (by decide +kernel) (by decide)
  have entry : outlined.messageType? false ⟨"T.E", file, entryDecl⟩ = some entryType :=
    Pool.messageType?_eq [key, value] (by decide +kernel) (by decide)
  refine Pool.contents?_eq rfl rfl ?_ rfl
  rw [declared_file, List.mapM_cons, List.mapM_cons, node, entry]
  rfl

theorem link?_file : ({} : Pool).link? [file] = some pool := by
  have named : [file].foldlM Pool.addFile? {} = some { pool with types := [] } := by
    decide +kernel
  have fresh : ({} : Pool).fresh [file] = [file] := rfl
  unfold Pool.link?
  simp only [fresh, named, Option.bind_eq_bind, Option.bind_some, List.mapM_cons, List.mapM_nil]
  change ((outlined.contents? file).bind fun c => some ({ outlined with
    types := [c].flatMap Prod.fst, extensions := [c].flatMap Prod.snd } : Pool)) = some pool
  rw [contents?_file]
  rfl

theorem made_pool : pool.Made := .link .empty link?_file

theorem made_hosted : hosted.Made := Context.Surroundings.made_of_host made_pool rfl

/-- Nodes in one another. The innermost has an entry of which nothing is said. -/
def output : Nat → Bytes
  | 0 => [18, 0]
  | n + 1 => 11 :: (output n ++ [12])

/-- The entry has a blank node, and the least key. -/
def message : Nat → Message
  | 0 => .mk "T" [.mk entries [.message (.mk "T.E"
      [.mk key [.datum (.number 0)], .mk value [.message (.blank "T")]] [])]] []
  | n + 1 => .mk "T" [.mk inner [.message (message n)]] []

/-- What is written of the nodes. -/
def written : Nat → Bytes
  | 0 => [18, 4, 8, 0, 18, 0]
  | n + 1 => 11 :: (written n ++ [12])

theorem bytes_message (n : Nat) : (message n).bytes = written n := by
  induction n with
  | zero => decide +kernel
  | succ n ih =>
    have first : Wire.Key.write 1 .startGroup = [11] := by decide +kernel
    have last : Wire.Key.write 1 .endGroup = [12] := by decide +kernel
    have own : ∀ s ∈ [Slot.mk inner [.message (message n)]], s.field.isExtension = false := by
      simp [Slot.field, inner]
    rw [message, Message.bytes_of_own own, List.flatMap_singleton, Slot.bytes]
    simp only [Field.frame, inner, bodies, Value.body, ih, first, last, List.flatMap_singleton]
    rfl

theorem nesting_message (n : Nat) : (message n).nesting = n + 1 := by
  induction n with
  | zero => rfl
  | succ n ih =>
    have group : inner.holdsEntries = false := rfl
    simp [message, Message.nesting, nestingOfSlots, Slot.nesting, nestingOfValues, Value.nesting,
      group, ih]

theorem length_written (n : Nat) : (written n).length = 2 * n + 6 := by
  induction n with
  | zero => rfl
  | succ n ih =>
    simp only [written, List.length_cons, List.length_append, List.length_nil, ih]
    omega

theorem lone_message (n : Nat) : Lone (message n) := by
  induction n with
  | zero =>
    have blank : Lone (.blank "T") := .of nofun nofun
    have entry : Lone (.mk "T.E"
        [.mk key [.datum (.number 0)], .mk value [.message (.blank "T")]] []) :=
      .of (by simp [Message.slots, Slot.values]) (by simp [Message.slots, Slot.values, blank])
    exact .of (by simp [message, Message.slots, Slot.values])
      (by simp [message, Message.slots, Slot.values, entry])
  | succ n ih =>
    exact .of (by simp [message, Message.slots, Slot.values])
      (by simp [message, Message.slots, Slot.values, ih])

set_option maxRecDepth 4096 in
theorem decode_output : pool.decode type (output 100) = .ok (message 100) := by
  rfl

set_option maxRecDepth 4096 in
theorem decode_output_below : pool.decode type (output 99) = .ok (message 99) := by
  rfl

set_option maxRecDepth 4096 in
theorem decode_written : pool.decode type (written 100) = .error .depthLimit := by
  rfl

/-- The context has the type. -/
theorem runOn_messageType (store : MemoryStore) :
    (messageType hosted "T").runOn ⟨store, .empty⟩ =
      (.ok (pool, type), ⟨store, (Context.empty.resolve hosted "T").2⟩) := by
  rfl

theorem accepts_output {n : Nat} (decoded : pool.decode type (output n) = .ok (message n)) :
    (readOutput hosted Sample.metadata Sample.prepared (output n)).Gives
      (⟨{}, .empty⟩ : Workspace MemoryStore) (.ok (message n)) := by
  have something : (output n).isEmpty = false := by cases n <;> rfl
  unfold Action.Gives readOutput
  simp only [something, Bool.false_eq_true, if_false, Action.runOn_bind, Sample.prepared,
    runOn_messageType, decoded]
  rfl

end Nested

open Nested in
/-- A function gives a hundred nodes in one another, and the last of them has an entry of which
nothing is said. That is read as the type that the function declares, no map has two entries, and
what is stored is under the recorded hash; but whoever asks for it is refused. The entry was stored
with a blank node, a hundred and first. -/
theorem filled_entry_is_refused :
    hosted.Made ∧
    (readOutput hosted Sample.metadata Sample.prepared (output 100)).Gives
      (⟨{}, .empty⟩ : Workspace MemoryStore) (.ok (message 100)) ∧
    Schema.Lone (message 100) ∧
    ∃ (record : Contract.ProposedRecord) (w : Workspace MemoryStore),
      (storeOutput Sample.caller {} none ⟨0, "f", message 100⟩).runOn ⟨{}, .empty⟩ =
        (.ok (0, .pass record), w) ∧
      record.classname = Sample.prepared.function.returnType ∧
      record.contentHash? = some (contentHash (message 100).bytes) ∧
      ((fetchRecord hosted Sample.caller.encryption.publicKey
          ⟨"f", "T", contentHash (message 100).bytes⟩).runOn w).1 =
        .error (.definition
          (.invalidRecord (contentHash (message 100).bytes) "T" (.ofCause .depthLimit))) := by
  refine ⟨made_hosted, accepts_output decode_output, lone_message 100, ?_⟩
  obtain ⟨record, ran, named, hashed⟩ := runOn_storeOutput Sample.caller {} none
    ⟨0, "f", message 100⟩ ⟨{}, .empty⟩
  refine ⟨record, _, ran, named, hashed, ?_⟩
  have unique : ∀ o ∈ MemoryStore.writesOf (contentHash (message 100).bytes) [],
      o.bytes = (message 100).bytes := nofun
  have stored : ((MemoryStore.Step.putRecord "T" (message 100).bytes
        Sample.caller.signing.publicKey Sample.caller.encryption.publicKey {}).apply {}).lookup
      (contentHash (message 100).bytes) Sample.caller.encryption.publicKey (.record "T") =
        .ok (message 100).bytes :=
    MemoryStore.getRecord_after_putRecord unique [] "T" Sample.caller.signing.publicKey
      Sample.caller.encryption.publicKey {} (.inr rfl)
  have typed (store : MemoryStore) :
      (messageType hosted "T").Gives (⟨store, .empty⟩ : Workspace MemoryStore) (pool, type) :=
    congrArg Prod.fst (runOn_messageType store)
  refine (answer_fetchRecord (l := ⟨"f", "T", _⟩) stored (typed _)).trans ?_
  rw [bytes_message, decode_written]
  rfl

open Nested in
/-- One node less, and the output comes back. -/
theorem deepest_output_comes_back :
    hosted.Made ∧
    (readOutput hosted Sample.metadata Sample.prepared (output 99)).Gives
      (⟨{}, .empty⟩ : Workspace MemoryStore) (.ok (message 99)) ∧
    (message 99).nesting = Wire.depthLimit ∧ (message 99).bytes.length < Wire.sizeLimit ∧
    ∃ pool type back,
      ComesBack hosted ⟨{}, .empty⟩ Sample.prepared.function.returnType (message 99) pool type
        back := by
  have accepted := accepts_output decode_output_below
  have level : (message 99).nesting = Wire.depthLimit := nesting_message 99
  have short : (message 99).bytes.length < Wire.sizeLimit := by
    rw [bytes_message, length_written]
    decide
  have context : (⟨{}, .empty⟩ : Workspace MemoryStore).context = Context.empty.after hosted [] :=
    rfl
  exact ⟨made_hosted, accepted, level, short,
    output_comes_back made_hosted context accepted (Nat.le_of_eq level) short⟩

end Notary.Engine
