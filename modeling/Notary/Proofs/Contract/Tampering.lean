/-
A seal fits one contract only.

The bytes of a contract tell it from every other one, whatever the field in which they differ and
however deep it lies. A seal is a signature over the digest of those bytes. So if neither the digest
nor the signature takes one for another, the seal of a contract is refused for any other contract,
and the refusal blames the signature, not the key.

* `injective_contract` — the bytes of a contract tell the contract, behind the message types that it
  is made of.
* `verify_sign` — checking a seal is checking the signature in it.
* `verify_sign_iff` — the contracts for which a seal is accepted.
-/

import Notary.Contract.Seal
import Notary.Proofs.Wire.Distinct

namespace Notary.Signing

/-- A key that is no point of the curve is refused as such, and for any other key it is the
signature that is accepted or not. -/
theorem verify_cases (key : PublicKey) (h : Hash) (sig : Signature) :
    (Point.decode? key = none ∧ verify key h sig = .error .invalidPublicKey) ∨
      ((Point.decode? key).isSome = true ∧
        (verify key h sig = .ok () ∨ verify key h sig = .error .invalidSignature)) := by
  -- The steps hold for any way of decoding points. To unfold the real one does not end.
  obtain ⟨check, body⟩ : ∃ check, check = verify := ⟨_, rfl⟩
  rw [← body]
  delta verify at body
  generalize Point.decode? = decode at *
  subst body
  cases point : decode key with
  | none => exact .inl ⟨rfl, by simp only [point]⟩
  | some a =>
    refine .inr ⟨rfl, ?_⟩
    simp only [point]
    split
    · exact .inr rfl
    · split
      · exact .inl rfl
      · exact .inr rfl

/-- A key that has accepted some signature is a key, so what it does not accept is the fault of the
signature. -/
theorem verify_eq_invalidSignature {key : PublicKey} {h h' : Hash} {sig sig' : Signature}
    (accepted : verify key h sig = .ok ()) (refused : verify key h' sig' ≠ .ok ()) :
    verify key h' sig' = .error .invalidSignature := by
  rcases verify_cases key h sig with ⟨-, invalid⟩ | ⟨point, -⟩
  · rw [accepted] at invalid
    cases invalid
  · rcases verify_cases key h' sig' with ⟨none, -⟩ | ⟨-, accepted' | refused'⟩
    · rw [none] at point
      cases point
    · exact absurd accepted' refused
    · exact refused'

/-- What a key accepts can be computed. -/
instance (key : PublicKey) (h : Hash) (sig : Signature) : Decidable (verify key h sig = .ok ()) :=
  decidable_of_iff ((verify key h sig).toBool = true) (by
    cases verify key h sig <;> simp [Except.toBool])

end Notary.Signing

namespace Notary.Contract

open Wire

/-! ### The bytes of a contract -/

theorem injective_location : Function.Injective (Message.format (M := Location)).write := by
  refine Told.injective (.cons (tells_scalar Delimits.text) (.cons (tells_scalar Delimits.blob)
    .nil)) (by decide) ?_
  rintro ⟨⟩ ⟨⟩ ⟨rfl, rfl, -⟩
  rfl

theorem injective_definitionSpec :
    Function.Injective (Message.format (M := DefinitionSpec)).write := by
  refine Told.injective (.cons (tells_scalar Delimits.text)
    (.cons (tells_optional injective_location) (.cons (tells_scalar Delimits.enumeration) .nil)))
    (by decide) ?_
  rintro ⟨⟩ ⟨⟩ ⟨rfl, rfl, rfl, -⟩
  rfl

theorem injective_record : Function.Injective (Message.format (M := Record)).write := by
  refine Told.injective (.cons (tells_scalar Delimits.text)
    (.cons (tells_optional injective_location) .nil)) (by decide) ?_
  rintro ⟨⟩ ⟨⟩ ⟨rfl, rfl, -⟩
  rfl

theorem injective_proposedRecord :
    Function.Injective (Message.format (M := ProposedRecord)).write := by
  refine Told.injective (.cons (tells_scalar Delimits.text) (.cons (tells_scalar Delimits.blob)
    (.cons (tells_scalar Delimits.text) (.cons (tells_scalar Delimits.blob) .nil)))) (by decide) ?_
  rintro ⟨⟩ ⟨⟩ ⟨rfl, rfl, rfl, rfl, -⟩
  rfl

theorem injective_executionResult :
    Function.Injective (Message.format (M := ExecutionResult)).write := by
  refine Told.injective (.cons (tells_scalar Delimits.enumeration)
    (.cons (tells_optional injective_proposedRecord) (.cons (tells_scalar Delimits.text) .nil)))
    (by decide) ?_
  rintro ⟨⟩ ⟨⟩ ⟨rfl, rfl, rfl, -⟩
  rfl

theorem injective_consideration :
    Function.Injective (Message.format (M := Consideration)).write := by
  refine Told.injective (.cons (tells_scalar Delimits.text)
    (.cons (tells_repeated injective_proposedRecord)
      (.cons (tells_optional injective_executionResult) .nil))) (by decide) ?_
  rintro ⟨⟩ ⟨⟩ ⟨rfl, rfl, rfl, -⟩
  rfl

theorem injective_partyKeys : Function.Injective (Message.format (M := PartyKeys)).write := by
  refine Told.injective (.cons (tells_scalar Delimits.blob) (.cons (tells_scalar Delimits.blob)
    .nil)) (by decide) ?_
  rintro ⟨⟩ ⟨⟩ ⟨rfl, rfl, -⟩
  rfl

theorem injective_recital : Function.Injective (Message.format (M := Recital)).write := by
  refine Told.injective (.cons (tells_scalar Delimits.enumeration)
    (.cons (tells_optional injective_partyKeys) .nil)) (by decide) ?_
  rintro ⟨⟩ ⟨⟩ ⟨rfl, rfl, -⟩
  rfl

theorem injective_contract : Function.Injective (Message.format (M := Contract)).write := by
  refine Told.injective (.cons (tells_optional injective_definitionSpec)
    (.cons (tells_optional injective_record) (.cons (tells_repeated injective_record)
      (.cons (tells_repeated injective_consideration) (.cons (tells_repeated injective_recital)
        .nil))))) (by decide) ?_
  rintro ⟨⟩ ⟨⟩ ⟨rfl, rfl, rfl, rfl, rfl, -⟩
  rfl

/-! ### Seals -/

/-- A seal names its key and holds a signature of the right width, so only the signature is left to
be checked. -/
theorem verify_sign (c c' : Contract) (key : SigningKey) :
    c'.verify (c.sign key) =
      Signing.verify key.publicKey c'.digest (key.signHash c.digest) := by
  unfold verify sign
  rw [FixedBytes.ofBytes?_toList, FixedBytes.ofBytes?_toList]
  rfl

/-- The seal that a key makes of a contract is accepted for that contract and for no other: any
other is refused for the signature, in whichever field at whichever depth it differs. This rests on
two things. The digests of the two contracts differ if their bytes do; and of the two digests, the
key accepts its signature over the first one for just that one. -/
theorem verify_sign_iff {c c' : Contract} {key : SigningKey}
    (apart : contentHash (Wire.encode c) = contentHash (Wire.encode c') →
      Wire.encode c = Wire.encode c')
    (binding : ∀ h ∈ [c.digest, c'.digest],
      Signing.verify key.publicKey h (key.signHash c.digest) = .ok () ↔ c.digest = h) :
    (c'.verify (c.sign key) = .ok () ↔ c' = c) ∧
      (c' ≠ c → c'.verify (c.sign key) = .error .invalidSignature) := by
  have own : Signing.verify key.publicKey c.digest (key.signHash c.digest) = .ok () :=
    (binding c.digest (by simp)).mpr rfl
  have other : Signing.verify key.publicKey c'.digest (key.signHash c.digest) = .ok () ↔
      c.digest = c'.digest := binding c'.digest (by simp)
  have told : c.digest = c'.digest ↔ c' = c := by
    constructor
    · intro digest
      exact (injective_contract (apart digest)).symm
    · rintro rfl
      rfl
  rw [verify_sign, other, told]
  refine ⟨Iff.rfl, ?_⟩
  intro different
  refine Signing.verify_eq_invalidSignature own ?_
  rw [ne_eq, other, told]
  exact different

/-- A contract with nothing but a function to be called. -/
def bare : Contract := { considerations := [{ considerationName := "assess" }] }

/-- The same with a definition that is there, and empty. -/
def defined : Contract := { bare with definition := some {} }

/-- The seal of a contract is refused when an empty definition is added to it. -/
theorem seal_refused_for_empty_definition :
    (contentHash (Wire.encode bare) = contentHash (Wire.encode defined) →
        Wire.encode bare = Wire.encode defined) ∧
      (∀ h ∈ [bare.digest, defined.digest],
        Signing.verify (SigningKey.mk .zero).publicKey h
          ((SigningKey.mk .zero).signHash bare.digest) = .ok () ↔ bare.digest = h) ∧
      defined.verify (bare.sign ⟨.zero⟩) = .error .invalidSignature := by
  have apart : contentHash (Wire.encode bare) = contentHash (Wire.encode defined) →
      Wire.encode bare = Wire.encode defined := by
    decide +kernel
  have binding : ∀ h ∈ [bare.digest, defined.digest],
      Signing.verify (SigningKey.mk .zero).publicKey h
        ((SigningKey.mk .zero).signHash bare.digest) = .ok () ↔ bare.digest = h := by
    decide +kernel
  exact ⟨apart, binding, (verify_sign_iff apart binding).2 (by decide)⟩

end Notary.Contract
