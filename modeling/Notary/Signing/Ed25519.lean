/-
Ed25519 keys and signatures over a digest.

A payload is never signed itself: its BLAKE3 digest is. Verification is strict: the scalar must be
reduced, neither the key nor the commitment may be of small order, and the commitment is recomputed
and compared in its encoded form.

* `SigningKey.sign`, `verify` — making and checking a signature.
* `Fault` — why a signature is not accepted.
-/

import Notary.Bytes
import Notary.Digest.Content
import Notary.Digest.Sha512
import Notary.Signing.Curve

namespace Notary

namespace Signing

/-- Why a signature or one of its parts is not accepted. -/
inductive Fault where
  | invalidSignature
  | invalidPublicKey
  | malformedSignature (expected actual : Nat)
deriving DecidableEq, Repr

def Fault.message : Fault → String
  | .invalidSignature => "invalid Ed25519 signature"
  | .invalidPublicKey => "invalid Ed25519 public key"
  | .malformedSignature expected actual =>
    s!"malformed signature bytes: expected {expected} bytes, got {actual}"

/-- The order of the base point. -/
def order : Nat := 2 ^ 252 + 27742317777372353535851937790883648493

/-- A number derived from several byte strings, below the order of the base point. -/
def challenge (parts : List Bytes) : Nat :=
  Bytes.leValue (Digest.Sha512.digest parts.flatten).toList % order

/-- The public key's point and the message are bound to the commitment `r` and the scalar `s` of the
signature. -/
def verify (key : PublicKey) (hash : Hash) (sig : Signature) : Except Fault Unit :=
  match Point.decode? key with
  | none => .error .invalidPublicKey
  | some a =>
    let r := sig.toList.take 32
    let s := Bytes.leValue (sig.toList.drop 32)
    match (FixedBytes.ofBytes? 32 r).bind Point.decode? with
    | none => .error .invalidSignature
    | some p =>
      let k := challenge [r, key.toList, hash.toList]
      if s < order ∧ p.isSmallOrder = false ∧ a.isSmallOrder = false ∧
          (Point.add (Point.smul s Point.base) (Point.smul k a.neg)).encode.toList = r
      then .ok ()
      else .error .invalidSignature

end Signing

open Signing

/-- A secret seed, from which both the public key and the signing scalar follow. -/
structure SigningKey where
  seed : FixedBytes 32
deriving DecidableEq

namespace SigningKey

/-- The digest of the seed: the first half gives the scalar, the second half makes commitments
unpredictable. -/
def expanded (k : SigningKey) : Bytes := (Digest.Sha512.digest k.seed.toList).toList

/-- The secret scalar: a multiple of eight with its top bit fixed. -/
def scalar (k : SigningKey) : Nat :=
  let v := Bytes.leValue (k.expanded.take 32)
  2 ^ 254 + v % 2 ^ 254 / 8 * 8

/-- The identity that belongs to the key. -/
def publicKey (k : SigningKey) : PublicKey := (Point.smul k.scalar Point.base).encode

/-- The signature over a digest. -/
def signHash (k : SigningKey) (hash : Hash) : Signature :=
  let r := challenge [k.expanded.drop 32, hash.toList]
  let c := (Point.smul r Point.base).encode
  let e := challenge [c.toList, k.publicKey.toList, hash.toList]
  let s : FixedBytes 32 := FixedBytes.ofNat 32 ((r + e * k.scalar) % order)
  ⟨c.toList ++ s.toList, by simp⟩

/-- The signature over the digest of a message. -/
def sign (k : SigningKey) (message : Bytes) : Signature := k.signHash (contentHash message)

end SigningKey

end Notary
