/-
The messages of the contract model are read back from their bytes.

The fields of each of the seventeen message types carry a message over, as deep as the messages
inside it are nested. Since the bytes of a contract can be read back, they tell it from all others;
that is what makes a signature over them one over the contract.

* `faithful_contract` and its likes — one message type each, behind those that it is made of.
* `ReadsBack`, `decode_encode` — all of them are read back.
* `awkward_contract_is_read_back` — a contract with empty messages inside and odd numbers.
-/

import Notary.Contract.Format
import Notary.Proofs.Wire.RoundTrip

namespace Notary.Contract

open Wire

/-! ### The message types -/

theorem faithful_location (d : Nat) : (Message.format (M := Location)).Faithful d := by
  intro m
  exact .cons (carries_scalar Scalar.faithful_text ⟨rfl, rfl, rfl⟩ rfl)
    (.cons (carries_scalar Scalar.faithful_blob ⟨rfl, rfl, rfl⟩ rfl) (.nil m))

theorem faithful_definitionSpec (d : Nat) :
    (Message.format (M := DefinitionSpec)).Faithful (d + 1) := by
  intro m
  exact .cons (carries_scalar Scalar.faithful_text ⟨rfl, rfl, rfl⟩ rfl)
    (.cons (carries_optional (faithful_location d) ⟨rfl, rfl, rfl⟩ rfl)
      (.cons (carries_scalar Scalar.faithful_enumeration ⟨rfl, rfl, rfl⟩ rfl) (.nil m)))

theorem faithful_outputSpec (d : Nat) : (Message.format (M := OutputSpec)).Faithful (d + 2) := by
  intro m
  exact .cons (carries_optional (faithful_definitionSpec d) ⟨rfl, rfl, rfl⟩ rfl) (.nil m)

theorem faithful_functionSpec (d : Nat) :
    (Message.format (M := FunctionSpec)).Faithful (d + 3) := by
  intro m
  exact .cons (carries_scalar Scalar.faithful_text ⟨rfl, rfl, rfl⟩ rfl)
    (.cons (carries_repeated (faithful_definitionSpec (d + 1)) ⟨rfl, rfl, rfl⟩ rfl)
      (.cons (carries_scalar Scalar.faithful_enumeration ⟨rfl, rfl, rfl⟩ rfl)
        (.cons (carries_optional (faithful_outputSpec d) ⟨rfl, rfl, rfl⟩ rfl) (.nil m))))

theorem faithful_contractSpecification (d : Nat) :
    (Message.format (M := ContractSpecification)).Faithful (d + 4) := by
  intro m
  exact .cons (carries_optional (faithful_definitionSpec (d + 2)) ⟨rfl, rfl, rfl⟩ rfl)
    (.cons (carries_repeated (faithful_definitionSpec (d + 2)) ⟨rfl, rfl, rfl⟩ rfl)
      (.cons (carries_packed Scalar.faithful_enumeration (by decide) ⟨rfl, rfl, rfl⟩ rfl)
        (.cons (carries_repeated (faithful_functionSpec d) ⟨rfl, rfl, rfl⟩ rfl) (.nil m))))

theorem faithful_record (d : Nat) : (Message.format (M := Record)).Faithful (d + 1) := by
  intro m
  exact .cons (carries_scalar Scalar.faithful_text ⟨rfl, rfl, rfl⟩ rfl)
    (.cons (carries_optional (faithful_location d) ⟨rfl, rfl, rfl⟩ rfl) (.nil m))

theorem faithful_proposedRecord (d : Nat) :
    (Message.format (M := ProposedRecord)).Faithful d := by
  intro m
  exact .cons (carries_scalar Scalar.faithful_text ⟨rfl, rfl, rfl⟩ rfl)
    (.cons (carries_scalar Scalar.faithful_blob ⟨rfl, rfl, rfl⟩ rfl)
      (.cons (carries_scalar Scalar.faithful_text ⟨rfl, rfl, rfl⟩ rfl)
        (.cons (carries_scalar Scalar.faithful_blob ⟨rfl, rfl, rfl⟩ rfl) (.nil m))))

theorem faithful_executionResult (d : Nat) :
    (Message.format (M := ExecutionResult)).Faithful (d + 1) := by
  intro m
  exact .cons (carries_scalar Scalar.faithful_enumeration ⟨rfl, rfl, rfl⟩ rfl)
    (.cons (carries_optional (faithful_proposedRecord d) ⟨rfl, rfl, rfl⟩ rfl)
      (.cons (carries_scalar Scalar.faithful_text ⟨rfl, rfl, rfl⟩ rfl) (.nil m)))

theorem faithful_consideration (d : Nat) :
    (Message.format (M := Consideration)).Faithful (d + 2) := by
  intro m
  exact .cons (carries_scalar Scalar.faithful_text ⟨rfl, rfl, rfl⟩ rfl)
    (.cons (carries_repeated (faithful_proposedRecord (d + 1)) ⟨rfl, rfl, rfl⟩ rfl)
      (.cons (carries_optional (faithful_executionResult d) ⟨rfl, rfl, rfl⟩ rfl) (.nil m)))

theorem faithful_partyKeys (d : Nat) : (Message.format (M := PartyKeys)).Faithful d := by
  intro m
  exact .cons (carries_scalar Scalar.faithful_blob ⟨rfl, rfl, rfl⟩ rfl)
    (.cons (carries_scalar Scalar.faithful_blob ⟨rfl, rfl, rfl⟩ rfl) (.nil m))

theorem faithful_recital (d : Nat) : (Message.format (M := Recital)).Faithful (d + 1) := by
  intro m
  exact .cons (carries_scalar Scalar.faithful_enumeration ⟨rfl, rfl, rfl⟩ rfl)
    (.cons (carries_optional (faithful_partyKeys d) ⟨rfl, rfl, rfl⟩ rfl) (.nil m))

theorem faithful_contract (d : Nat) : (Message.format (M := Contract)).Faithful (d + 3) := by
  intro m
  exact .cons (carries_optional (faithful_definitionSpec (d + 1)) ⟨rfl, rfl, rfl⟩ rfl)
    (.cons (carries_optional (faithful_record (d + 1)) ⟨rfl, rfl, rfl⟩ rfl)
      (.cons (carries_repeated (faithful_record (d + 1)) ⟨rfl, rfl, rfl⟩ rfl)
        (.cons (carries_repeated (faithful_consideration d) ⟨rfl, rfl, rfl⟩ rfl)
          (.cons (carries_repeated (faithful_recital (d + 1)) ⟨rfl, rfl, rfl⟩ rfl) (.nil m)))))

theorem faithful_contractSignature (d : Nat) :
    (Message.format (M := ContractSignature)).Faithful d := by
  intro m
  exact .cons (carries_scalar Scalar.faithful_blob ⟨rfl, rfl, rfl⟩ rfl)
    (.cons (carries_scalar Scalar.faithful_blob ⟨rfl, rfl, rfl⟩ rfl) (.nil m))

theorem faithful_envelopeRef (d : Nat) : (Message.format (M := EnvelopeRef)).Faithful d := by
  intro m
  exact .cons (carries_scalar Scalar.faithful_text ⟨rfl, rfl, rfl⟩ rfl)
    (.cons (carries_scalar Scalar.faithful_text ⟨rfl, rfl, rfl⟩ rfl) (.nil m))

theorem faithful_envelope (d : Nat) : (Message.format (M := Envelope)).Faithful (d + 4) := by
  intro m
  exact .cons (carries_optional (faithful_envelopeRef (d + 3)) ⟨rfl, rfl, rfl⟩ rfl)
    (.cons (carries_optional (faithful_contract d) ⟨rfl, rfl, rfl⟩ rfl)
      (.cons (carries_repeated (faithful_contractSignature (d + 3)) ⟨rfl, rfl, rfl⟩ rfl)
        (.cons (carries_scalar Scalar.faithful_text ⟨rfl, rfl, rfl⟩ rfl)
          (.cons (carries_scalar Scalar.faithful_text ⟨rfl, rfl, rfl⟩ rfl)
            (.cons (carries_scalar Scalar.faithful_flag ⟨rfl, rfl, rfl⟩ rfl)
              (.cons (carries_scalar Scalar.faithful_flag ⟨rfl, rfl, rfl⟩ rfl) (.nil m)))))))

theorem faithful_scopeRecord (d : Nat) : (Message.format (M := ScopeRecord)).Faithful (d + 1) := by
  intro m
  exact .cons (carries_scalar Scalar.faithful_text ⟨rfl, rfl, rfl⟩ rfl)
    (.cons (carries_repeated (faithful_proposedRecord d) ⟨rfl, rfl, rfl⟩ rfl) (.nil m))

theorem faithful_scopeState (d : Nat) : (Message.format (M := ScopeState)).Faithful (d + 2) := by
  intro m
  exact .cons (carries_scalar Scalar.faithful_text ⟨rfl, rfl, rfl⟩ rfl)
    (.cons (carries_repeated (faithful_scopeRecord d) ⟨rfl, rfl, rfl⟩ rfl) (.nil m))

/-! ### All of them -/

/-- Messages of the type with fewer than 2⁶³ bytes are read back from their bytes. -/
def ReadsBack (M : Type) [Message M] : Prop :=
  ∀ m : M, (encode m).length < 2 ^ 63 → decode (encode m) = .ok m

theorem readsBack_of_faithful {M : Type} [Message M]
    (faithful : (Message.format (M := M)).Faithful depthLimit) : ReadsBack M := by
  intro m short
  exact read_write faithful short

/-- What is read back can be told apart. -/
theorem ReadsBack.injective {M : Type} [Message M] (back : ReadsBack M) {m m' : M}
    (short : (encode m).length < 2 ^ 63) (same : encode m = encode m') : m = m' := by
  have here : decode (encode m) = .ok m := back m short
  have there : decode (encode m') = .ok m' := back m' (same ▸ short)
  rw [same, there] at here
  exact (Except.ok.inj here).symm

/-- Every message of the contract model with fewer than 2⁶³ bytes is read back from its bytes,
whatever its texts, byte strings and numbers are, and whichever messages inside it are absent, empty
or repeated. So no two contracts have the bytes that one signature covers. -/
theorem decode_encode :
    ReadsBack Location ∧ ReadsBack DefinitionSpec ∧ ReadsBack OutputSpec ∧
      ReadsBack FunctionSpec ∧ ReadsBack ContractSpecification ∧ ReadsBack Record ∧
      ReadsBack ProposedRecord ∧ ReadsBack ExecutionResult ∧ ReadsBack Consideration ∧
      ReadsBack PartyKeys ∧ ReadsBack Recital ∧ ReadsBack Contract ∧
      ReadsBack ContractSignature ∧ ReadsBack EnvelopeRef ∧ ReadsBack Envelope ∧
      ReadsBack ScopeRecord ∧ ReadsBack ScopeState ∧
      ∀ c c' : Contract, (encode c).length < 2 ^ 63 → c ≠ c' → encode c ≠ encode c' := by
  -- Each type leaves so many of the hundred levels as the messages inside it do not take.
  have contract : ReadsBack Contract := readsBack_of_faithful (faithful_contract 97)
  refine ⟨readsBack_of_faithful (faithful_location 100),
    readsBack_of_faithful (faithful_definitionSpec 99),
    readsBack_of_faithful (faithful_outputSpec 98),
    readsBack_of_faithful (faithful_functionSpec 97),
    readsBack_of_faithful (faithful_contractSpecification 96),
    readsBack_of_faithful (faithful_record 99),
    readsBack_of_faithful (faithful_proposedRecord 100),
    readsBack_of_faithful (faithful_executionResult 99),
    readsBack_of_faithful (faithful_consideration 98),
    readsBack_of_faithful (faithful_partyKeys 100),
    readsBack_of_faithful (faithful_recital 99), contract,
    readsBack_of_faithful (faithful_contractSignature 100),
    readsBack_of_faithful (faithful_envelopeRef 100),
    readsBack_of_faithful (faithful_envelope 96),
    readsBack_of_faithful (faithful_scopeRecord 99),
    readsBack_of_faithful (faithful_scopeState 98), ?_⟩
  intro c c' short different same
  exact different (contract.injective short same)

/-- A contract that is awkward to write: numbers that name no role and are below zero, messages that
are there without content, and a text of several bytes a letter. -/
def awkward : Contract where
  definition := some {}
  spec := some { name := "Vermögen", dataLocation := some {} }
  inputs := [{}, { dataLocation := some { hash := [0, 255] } }]
  considerations := [{ result := some {} }, { inputs := [{}, {}], result := some (.fail "") }]
  recitals := [{ signerRole := -1 }, { signerRole := 9, signer := some {} }]

/-- The contract is read back, and it is told from the one without its empty definition. -/
theorem awkward_contract_is_read_back :
    (encode awkward).length < 2 ^ 63 ∧ decode (encode awkward) = .ok awkward ∧
      awkward ≠ { awkward with definition := none } ∧
      encode awkward ≠ encode { awkward with definition := none } := by
  have short : (encode awkward).length < 2 ^ 63 := by decide +kernel
  have different : awkward ≠ { awkward with definition := none } := by simp [awkward]
  obtain ⟨-, -, -, -, -, -, -, -, -, -, -, contract, -, -, -, -, -, distinct⟩ := decode_encode
  exact ⟨short, contract awkward short, different, distinct awkward _ short different⟩

end Notary.Contract
