/-
A store that keeps all objects in memory.

* `MemoryStore.insert` — the first write of some content fixes its kind and signer; later ones only
  widen its audience.
* `MemoryStore.lookup` — who may not read an object does not find it; who may has to ask for its
  kind.
-/

import Std.Data.HashMap
import Notary.Digest.Content
import Notary.Store.Object

namespace Notary.Store

/-- Objects by their hash, with the number of reads and of signed writes so far. -/
structure MemoryStore where
  objects : Std.HashMap Hash StoredObject := {}
  reads : Nat := 0
  writes : Nat := 0

namespace MemoryStore

/-- The object that an insertion leaves under its hash. -/
def merge (old : Option StoredObject) (new : StoredObject) : StoredObject :=
  match old with
  | none => new
  | some o => { o with audience := o.audience.widen new.audience }

/-- Stores content of a kind; the answer is its hash. -/
def insert (s : MemoryStore) (o : StoredObject) : Hash × MemoryStore :=
  let h := contentHash o.bytes
  (h, { s with objects := s.objects.insert h (merge s.objects[h]? o) })

/-- Stores an archive that every key may read. -/
def putArchive (s : MemoryStore) (bytes : Bytes) : Hash × MemoryStore :=
  s.insert ⟨.archive, bytes, .everyone, none⟩

/-- Stores a record that every key may read. -/
def insertRecord (s : MemoryStore) (type : String) (bytes : Bytes) : Hash × MemoryStore :=
  s.insert ⟨.record type, bytes, .everyone, none⟩

/-- Stores a record that only the given keys may read. -/
def insertPrivateRecord (s : MemoryStore) (type : String) (bytes : Bytes) (readers : Readers) :
    Hash × MemoryStore :=
  s.insert ⟨.record type, bytes, .only readers, none⟩

/-- Stores a signed record for its owner and an audience. -/
def putRecord (s : MemoryStore) (type : String) (bytes : Bytes) (signer owner : PublicKey)
    (audience : Readers) : Hash × MemoryStore :=
  { s with writes := s.writes + 1 }.insert
    ⟨.record type, bytes, .only (audience.insert owner), some signer⟩

/-- What a reader gets who expects an object of some kind. -/
def lookup (s : MemoryStore) (hash : Hash) (reader : PublicKey) (expected : ObjectKind) :
    Except Fault Bytes :=
  match s.objects[hash]? with
  | none => .error (.notFound hash)
  | some o =>
    if o.audience.admits reader then
      if o.kind = expected then .ok o.bytes else .error (.typeMismatch hash expected o.kind)
    else .error (.notFound hash)

/-- A read that counts. -/
def read (s : MemoryStore) (hash : Hash) (reader : PublicKey) (expected : ObjectKind) :
    Except Fault Bytes × MemoryStore :=
  (s.lookup hash reader expected, { s with reads := s.reads + 1 })

/-- The keys that may read a restricted object. -/
def audienceOf? (s : MemoryStore) (hash : Hash) : Option Readers :=
  s.objects[hash]?.bind (·.audience.readers?)

/-- The key that signed the write of an object. -/
def signerOf? (s : MemoryStore) (hash : Hash) : Option PublicKey :=
  s.objects[hash]?.bind (·.signer)

def contains (s : MemoryStore) (hash : Hash) : Bool := s.objects.contains hash

def size (s : MemoryStore) : Nat := s.objects.size

instance : ObjectStore MemoryStore where
  getRecord type hash reader := fun s => s.read hash reader (.record type)
  getArchive hash reader := fun s => s.read hash reader .archive
  putRecord type bytes signer owner audience := fun s =>
    s.putRecord type bytes signer owner audience

end MemoryStore

end Notary.Store
