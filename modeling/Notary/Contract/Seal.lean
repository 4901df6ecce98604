/-
Sealing a contract: a signature over the digest of its bytes.

* `Contract.sign`, `Contract.verify` — making and checking a contract signature. The width of the
  key is checked first, then the width of the signature.
* `Envelope.withSealed` — an envelope with a contract and one more signature.
-/

import Notary.Contract.Format
import Notary.Contract.Model
import Notary.Signing.Ed25519

namespace Notary.Contract

/-- The digest that the signatures of a contract cover. -/
def digest (c : Contract) : Hash := contentHash (Wire.encode c)

/-- A signature over the contract. -/
def sign (c : Contract) (key : SigningKey) : ContractSignature :=
  ⟨key.publicKey.toList, (key.sign (Wire.encode c)).toList⟩

/-- The signature was made over this contract by the key that it names. -/
def verify (c : Contract) (s : ContractSignature) : Except Signing.Fault Unit :=
  match FixedBytes.ofBytes? 32 s.signer with
  | none => .error .invalidPublicKey
  | some key =>
    match FixedBytes.ofBytes? 64 s.signature with
    | none => .error (.malformedSignature 64 s.signature.length)
    | some sig => Signing.verify key c.digest sig

/-- The envelope with a contract in it and a signature over that contract added. -/
def Envelope.withSealed (e : Envelope) (c : Contract) (key : SigningKey) : Envelope :=
  { e with contract := some c, signatures := e.signatures ++ [c.sign key] }

end Notary.Contract
