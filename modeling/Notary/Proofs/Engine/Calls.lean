/-
The calls of an execution.

Functions are called one after the other on one guest, so a call sees what the calls before it left
behind. The first call that fails is the last one.

* `Yields`, `Fails` — the output of a call can be read, or what is told of its failure.
* `Calls` — successive calls, all of which can be read.
* `gives_runGuest` — all functions were called, or all up to the one that failed.
-/

import Notary.Proofs.Engine.Action
import Notary.Proofs.Schema.Decoded

namespace Notary.Engine

open Notary.Metadata

variable {γ : Type} {s : Context.Surroundings} {r : Runtime γ} {m : ContractMetadata}
  {w : Workspace Store.MemoryStore}

/-- Bytes that a function gave hold a message of a type, and the function declares that type. -/
structure Yields (s : Context.Surroundings) (w : Workspace Store.MemoryStore) (p : Prepared)
    (bytes : Bytes) (type : Schema.MessageType) (message : Schema.Message) : Prop where
  something : bytes ≠ []
  declared : ∃ pool, (messageType s p.function.returnType).Gives w (pool, type) ∧
    pool.decode type bytes = .ok message

/-- What a call that fails leaves in its consideration. -/
inductive Fails (s : Context.Surroundings) (r : Runtime γ) (w : Workspace Store.MemoryStore) (g : γ)
    (p : Prepared) : String → Prop where
  /-- The guest gave nothing. -/
  | trapped {fault : Guest.Fault} (called : (p.invoke r g).1 = .error fault) :
      Fails s r w g p (p.failure fault)
  /-- The guest gave bytes that are no message of the declared type. -/
  | unreadable {bytes : Bytes} {pool : Schema.Pool} {type : Schema.MessageType}
      {cause : Wire.Cause} (called : (p.invoke r g).1 = .ok bytes) (something : bytes ≠ [])
      (declared : (messageType s p.function.returnType).Gives w (pool, type))
      (undecodable : pool.decode type bytes = .error cause) :
      Fails s r w g p ("Unable to decode result of " ++ p.outputName ++ " as "
        ++ p.function.returnType ++ ": " ++ (Wire.Fault.ofCause cause).message)

/-- Successive calls of functions on one guest, with their outputs and the guest behind them. -/
inductive Calls (s : Context.Surroundings) (r : Runtime γ) (w : Workspace Store.MemoryStore) :
    γ → List Prepared → List Output → γ → Prop where
  | nil (g : γ) : Calls s r w g [] [] g
  | cons {g g' g'' : γ} {p : Prepared} {ps : List Prepared} {bytes : Bytes}
      {type : Schema.MessageType} {message : Schema.Message} {outputs : List Output}
      (called : p.invoke r g = (.ok bytes, g')) (yields : Yields s w p bytes type message)
      (rest : Calls s r w g' ps outputs g'') :
      Calls s r w g (p :: ps) (⟨p.index, p.outputName, message⟩ :: outputs) g''

/-! ### One call -/

theorem Yields.type_eq {p : Prepared} {bytes : Bytes} {type : Schema.MessageType}
    {message : Schema.Message} (yields : Yields s w p bytes type message) :
    message.type = type.name := by
  obtain ⟨pool, -, decoded⟩ := yields.declared
  exact Schema.Pool.type_decode decoded

/-- The outcome of reading an output that is not empty. -/
theorem gives_readOutput {p : Prepared} {bytes : Bytes} {answer : Except String Schema.Message}
    (reads : (readOutput s m p bytes).Gives w answer) :
    bytes ≠ [] ∧ ∃ pool type, (messageType s p.function.returnType).Gives w (pool, type) ∧
      answer = (pool.decode type bytes).mapError fun cause =>
        "Unable to decode result of " ++ p.outputName ++ " as " ++ p.function.returnType ++ ": "
          ++ (Wire.Fault.ofCause cause).message := by
  unfold readOutput at reads
  cases bytes with
  | nil => cases reads
  | cons b bs =>
    refine ⟨by simp, ?_⟩
    rw [if_neg (by simp)] at reads
    obtain ⟨⟨pool, type⟩, declared, decoded⟩ :=
      (Action.Steady.gives_bind_iff (names_messageType _).steady fun (pool, type) => by
        cases read : pool.decode type (b :: bs) <;> simpa [read] using .pure _).mp reads
    refine ⟨pool, type, declared, ?_⟩
    cases read : pool.decode type (b :: bs) <;> simp only [read] at decoded <;>
      (cases decoded; rfl)

theorem yields_of_gives_readOutput {p : Prepared} {bytes : Bytes} {message : Schema.Message}
    (reads : (readOutput s m p bytes).Gives w (.ok message)) :
    ∃ type, Yields s w p bytes type message := by
  obtain ⟨something, pool, type, declared, answered⟩ := gives_readOutput reads
  refine ⟨type, something, pool, declared, ?_⟩
  cases decoded : pool.decode type bytes with
  | error cause =>
    rw [decoded] at answered
    cases answered
  | ok message' =>
    rw [decoded] at answered
    cases answered
    rfl

theorem fails_of_gives_readOutput {p : Prepared} {g : γ} {bytes : Bytes}
    {text : String} (called : (p.invoke r g).1 = .ok bytes)
    (reads : (readOutput s m p bytes).Gives w (.error text)) : Fails s r w g p text := by
  obtain ⟨something, pool, type, declared, answered⟩ := gives_readOutput reads
  cases decoded : pool.decode type bytes with
  | error cause =>
    rw [decoded] at answered
    cases answered
    exact .unreadable called something declared decoded
  | ok message =>
    rw [decoded] at answered
    cases answered

/-! ### Successive calls -/

/-- What comes of calling functions: the outputs of all of them, or the outputs of those in front of
the first that fails. -/
theorem gives_runGuest {ps : List Prepared} {g : γ} {run : GuestRun}
    (runs : (runGuest s r m ps g).Gives w run) :
    match run with
    | .finished outputs => ∃ g', Calls s r w g ps outputs g'
    | .failed index text => ∃ done p rest outputs g', ps = done ++ p :: rest ∧ p.index = index ∧
        Calls s r w g done outputs g' ∧ Fails s r w g' p text := by
  induction ps generalizing g run with
  | nil =>
    cases runs
    exact ⟨g, .nil g⟩
  | cons p rest ih =>
    unfold runGuest at runs
    rcases called : p.invoke r g with ⟨answer, g'⟩
    rw [called] at runs
    cases answer with
    | error fault =>
      cases runs
      exact ⟨[], p, rest, [], g, rfl, rfl, .nil g, .trapped (by rw [called])⟩
    | ok bytes =>
      obtain ⟨read, reads, later⟩ :=
        (Action.Steady.gives_bind_iff (names_readOutput m p bytes).steady fun read => by
          cases read with
          | error detail => exact .pure _
          | ok message =>
            exact (names_runGuest r m rest g').steady.bind fun run => by
              cases run <;> exact .pure _).mp
          runs
      cases read with
      | error detail =>
        cases later
        exact ⟨[], p, rest, [], g, rfl, rfl, .nil g,
          fails_of_gives_readOutput (by rw [called]) reads⟩
      | ok message =>
        obtain ⟨type, yields⟩ := yields_of_gives_readOutput reads
        obtain ⟨run', runs', answered⟩ :=
          (Action.Steady.gives_bind_iff (names_runGuest r m rest g').steady fun run => by
            cases run <;> exact .pure _).mp later
        have tail := ih runs'
        cases run' with
        | finished outputs =>
          cases answered
          obtain ⟨g'', calls⟩ := tail
          exact ⟨g'', .cons called yields calls⟩
        | failed index text =>
          cases answered
          obtain ⟨done, q, rest', outputs, g'', rfl, here, calls, fails⟩ := tail
          exact ⟨p :: done, q, rest', _, g'', rfl, here, .cons called yields calls, fails⟩

/-- Among successive calls, each is made on what those before it left behind, and its output is the
one that bears its index. -/
theorem Calls.split {g g' : γ} {before after : List Prepared} {p : Prepared}
    {outputs : List Output} (calls : Calls s r w g (before ++ p :: after) outputs g') :
    ∃ done g₁ bytes g₂ type message, Calls s r w g before done g₁ ∧
      p.invoke r g₁ = (.ok bytes, g₂) ∧
      Yields s w p bytes type message ∧ (⟨p.index, p.outputName, message⟩ : Output) ∈ outputs := by
  induction before generalizing g outputs with
  | nil =>
    cases calls with
    | cons called yields rest =>
      exact ⟨[], g, _, _, _, _, .nil g, called, yields, by simp⟩
  | cons q before ih =>
    cases calls with
    | cons called yields rest =>
      obtain ⟨done, g₁, bytes, g₂, type, message, first, called', yields', member⟩ := ih rest
      exact ⟨_, g₁, bytes, g₂, type, message, .cons called yields first, called', yields',
        by simp [member]⟩

/-- The outputs bear the indices of the functions, in order. -/
theorem Calls.index_outputs {g g' : γ} {ps : List Prepared} {outputs : List Output}
    (calls : Calls s r w g ps outputs g') : outputs.map (·.index) = ps.map (·.index) := by
  induction calls with
  | nil => rfl
  | cons called yields rest ih => simp [ih]

end Notary.Engine
