/-
Stored objects, and what a store of them offers.

An object is named by the hash of its bytes. A read is made on behalf of a key: an object that the
key may not read looks as if it were not there.

* `Audience.widen` — writing the same content again widens who may read it.
* `ObjectStore` — reads and writes on a state.
-/

import Notary.Bytes
import Notary.Store.Readers
import Notary.Text.Hex

namespace Notary.Store

/-- What an object is: a record of a type, or an archive. -/
inductive ObjectKind where
  | record (type : String)
  | archive
deriving DecidableEq, Repr

/-- The word for the kind in messages. -/
def ObjectKind.describe : ObjectKind → String
  | .record type => type
  | .archive => "jar"

/-- Who may read an object. -/
inductive Audience where
  | everyone
  | only (readers : Readers)
deriving DecidableEq

namespace Audience

def admits (a : Audience) (reader : PublicKey) : Bool :=
  match a with
  | .everyone => true
  | .only readers => reader ∈ readers

/-- What is public stays public; restricted audiences are joined. -/
def widen : Audience → Audience → Audience
  | .only r, .only s => .only (r.union s)
  | _, _ => .everyone

/-- The readers of a restricted object. -/
def readers? : Audience → Option Readers
  | .everyone => none
  | .only r => some r

@[simp] theorem admits_widen (a b : Audience) (k : PublicKey) :
    (a.widen b).admits k = (a.admits k || b.admits k) := by
  cases a <;> cases b <;> simp [widen, admits]

end Audience

/-- An object with all that a store keeps about it. -/
structure StoredObject where
  kind : ObjectKind
  bytes : Bytes
  audience : Audience
  signer : Option PublicKey
deriving DecidableEq

/-- Why a read is refused. -/
inductive Fault where
  | notFound (hash : Hash)
  | typeMismatch (hash : Hash) (expected actual : ObjectKind)
deriving DecidableEq

def Fault.message : Fault → String
  | .notFound hash => s!"Object not found: {hash.toHex}"
  | .typeMismatch hash expected actual =>
    s!"Object {hash.toHex} is a {actual.describe}, not a {expected.describe}"

/-- The reads and writes of a store whose state is `σ`. A write is signed, owned by a key and
readable by the owner and an audience; it answers with the hash of the bytes. -/
class ObjectStore (σ : Type) where
  getRecord (type : String) (hash : Hash) (reader : PublicKey) : StateM σ (Except Fault Bytes)
  getArchive (hash : Hash) (reader : PublicKey) : StateM σ (Except Fault Bytes)
  putRecord (type : String) (bytes : Bytes) (signer owner : PublicKey) (audience : Readers) :
    StateM σ Hash

end Notary.Store
