/-
Seals.

However the execution went, an envelope that comes back was sealed last of all: its contract does
not change between the signature and the answer. Signatures are only ever added, so an envelope that
goes from caller to caller collects their seals in the order of the calls.

* `Envelope.Sealed` — an envelope with another contract and one more seal.
* `handle_seals` — what a call makes of the envelope around the contract.
* `signatures_of_passes` — what several calls make of it.
-/

import Notary.Proofs.Contract.Tampering
import Notary.Proofs.Engine.Outcome

namespace Notary.Contract

/-- The envelopes belong to one execution, in one place. -/
structure Envelope.SameExecution (old new : Envelope) : Prop where
  envelopeRef : new.envelopeRef = old.envelopeRef
  executionUuid : new.executionUuid = old.executionUuid
  scopeSpecUuid : new.scopeSpecUuid = old.scopeSpecUuid
  newScope : new.newScope = old.newScope
  newSession : new.newSession = old.newSession

namespace Envelope.SameExecution

theorem refl (e : Envelope) : SameExecution e e := ⟨rfl, rfl, rfl, rfl, rfl⟩

theorem trans {a b c : Envelope} (first : SameExecution a b) (second : SameExecution b c) :
    SameExecution a c where
  envelopeRef := second.envelopeRef.trans first.envelopeRef
  executionUuid := second.executionUuid.trans first.executionUuid
  scopeSpecUuid := second.scopeSpecUuid.trans first.scopeSpecUuid
  newScope := second.newScope.trans first.newScope
  newSession := second.newSession.trans first.newSession

end Envelope.SameExecution

/-- The seal holds the public key, and the signature that its secret key makes over the digest of
the encoded contract. The check of the seal is that of the signature, so it passes if the public key
accepts what the secret key signs. -/
structure IsSeal (key : SigningKey) (c : Contract) (s : ContractSignature) : Prop where
  signer : s.signer = key.publicKey.toList
  signature : s.signature = (key.signHash (contentHash (Wire.encode c))).toList
  checked : c.verify s = Signing.verify key.publicKey (contentHash (Wire.encode c))
    (key.signHash (contentHash (Wire.encode c)))
  verified : Signing.verify key.publicKey (contentHash (Wire.encode c))
    (key.signHash (contentHash (Wire.encode c))) = .ok () → c.verify s = .ok ()

/-- The newer envelope is the older one with a contract in it and a seal of that contract behind the
signatures that were there. -/
structure Envelope.Sealed (key : SigningKey) (c : Contract) (old new : Envelope) : Prop where
  same : SameExecution old new
  contract : new.contract = some c
  signatures : ∃ s, new.signatures = old.signatures ++ [s] ∧ IsSeal key c s

theorem Envelope.sealed_withSealed (e : Envelope) (c : Contract) (key : SigningKey) :
    Sealed key c e (e.withSealed c key) := by
  have isSeal : IsSeal key c (c.sign key) :=
    ⟨rfl, rfl, verify_sign c c key, (verify_sign c c key).trans⟩
  exact ⟨⟨rfl, rfl, rfl, rfl, rfl⟩, rfl, c.sign key, rfl, isSeal⟩

end Notary.Contract

namespace Notary.Engine

open Notary.Contract
open Notary.Store (MemoryStore)

section Calls

variable {σ γ : Type} [Store.ObjectStore σ] {e e' : Engine σ γ} {orders : MapOrders}
  {caller : Caller} {envelope out : Envelope} {scope : Option ScopeState} {extra : List PublicKey}

/-- An envelope that comes back is the one that was submitted, with the executed contract in it and
one more signature, behind all others: the caller's seal of just the contract that comes back. -/
theorem handle_seals (handled : e.handle orders caller envelope scope extra = (.ok out, e')) :
    ∃ c, Envelope.Sealed caller.signing c envelope out := by
  obtain ⟨_, _, _, c, _, -, -, -, rfl, -⟩ := handle_eq_ok_iff.mp handled
  exact ⟨c, envelope.sealed_withSealed c caller.signing⟩

end Calls

/-- An envelope goes through calls that end well, of several callers on any engines. -/
inductive Passes : Envelope → List Caller → Envelope → Prop where
  | nil (envelope : Envelope) : Passes envelope [] envelope
  | cons {σ γ : Type} [Store.ObjectStore σ] {e e' : Engine σ γ} {orders : MapOrders}
      {caller : Caller} {callers : List Caller} {envelope out last : Envelope}
      {scope : Option ScopeState} {extra : List PublicKey}
      (handled : e.handle orders caller envelope scope extra = (.ok out, e'))
      (rest : Passes out callers last) : Passes envelope (caller :: callers) last

/-- The callers seal in their order, and take away no signature. -/
theorem signatures_of_passes {envelope last : Envelope} {callers : List Caller}
    (passes : Passes envelope callers last) :
    Envelope.SameExecution envelope last ∧
      ∃ seals, last.signatures = envelope.signatures ++ seals ∧
        seals.map (·.signer) = callers.map (·.signing.publicKey.toList) := by
  induction passes with
  | nil envelope => exact ⟨.refl envelope, [], by simp, rfl⟩
  | @cons _ _ _ _ _ _ caller _ envelope _ _ _ _ handled rest ih =>
    obtain ⟨_, _, _, c, _, -, -, -, rfl, -⟩ := handle_eq_ok_iff.mp handled
    obtain ⟨same, -, s, added, isSeal⟩ := envelope.sealed_withSealed c caller.signing
    obtain ⟨same', later, added', signers⟩ := ih
    refine ⟨same.trans same', s :: later, ?_, ?_⟩
    · rw [added', added, List.append_assoc]
      rfl
    · rw [List.map_cons, List.map_cons, isSeal.signer, signers]

open Sample in
/-- The seal of an execution of one function. -/
theorem seal_of_one_function :
    ∃ (e e' : Engine MemoryStore Guest.Instance) (out : Envelope) (s : ContractSignature),
      built (MemoryStore.after {} seeds) = .ok e ∧
      e.handle (fun _ => .backwards) caller envelope none [] = (.ok out, e') ∧
      out.contract = some (answer none) ∧ out.signatures = [s] ∧
      IsSeal caller.signing (answer none) s := by
  obtain ⟨e, new⟩ : ∃ e, built (MemoryStore.after {} seeds) = .ok e := ⟨_, rfl⟩
  obtain ⟨e', handled⟩ := handle_eq_answer (fun _ => .backwards) new none
  obtain ⟨c, -, returned, s, added, isSeal⟩ := handle_seals handled
  cases returned
  exact ⟨e, e', _, s, new, handled, rfl, added, isSeal⟩

end Notary.Engine
