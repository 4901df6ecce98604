/-
A store in front of another one, which keeps what was read and remembers what was written.

Records and archives are cached apart, each under the reader and the hash, since what a reader gets
hangs on the audience of the object. A write of content that was lately written for the same readers
is answered without the inner store.

* `CachedStore.readThrough` — an answer from the cache, or one from the inner store that is kept.
-/

import Notary.Digest.Content
import Notary.Store.ByteCache
import Notary.Store.Object
import Notary.Store.WriteMemory

namespace Notary.Store

/-- The reader and the hash of a cached object. -/
abbrev ReadKey := PublicKey × Hash

/-- A store of state `σ` behind caches. -/
structure CachedStore (σ : Type) where
  inner : σ
  records : ByteCache ReadKey
  archives : ByteCache ReadKey
  written : WriteMemory := {}

namespace CachedStore

variable {σ : Type}

/-- The bytes of records that are kept when nothing else is said. -/
def defaultRecordBytes : Nat := 16 * 1024 * 1024

/-- The bytes of archives that are kept when nothing else is said. -/
def defaultArchiveBytes : Nat := 64 * 1024 * 1024

def new (inner : σ) (recordBytes archiveBytes : Nat) : CachedStore σ where
  inner := inner
  records := { capacity := recordBytes }
  archives := { capacity := archiveBytes }

/-- Reads through a cache: a miss asks the inner store and keeps what it answers, not its faults. -/
def readThrough (cache : ByteCache ReadKey) (key : ReadKey) (fetch : StateM σ (Except Fault Bytes))
    (inner : σ) : Except Fault Bytes × ByteCache ReadKey × σ :=
  match cache.get key with
  | (some v, cache) => (.ok v, cache, inner)
  | (none, cache) =>
    match fetch inner with
    | (.ok v, inner) => (.ok v, cache.insert key v, inner)
    | (.error e, inner) => (.error e, cache, inner)

variable [ObjectStore σ]

def getRecord (type : String) (hash : Hash) (reader : PublicKey) (s : CachedStore σ) :
    Except Fault Bytes × CachedStore σ :=
  let (r, cache, inner) :=
    readThrough s.records (reader, hash) (ObjectStore.getRecord type hash reader) s.inner
  (r, { s with records := cache, inner := inner })

def getArchive (hash : Hash) (reader : PublicKey) (s : CachedStore σ) :
    Except Fault Bytes × CachedStore σ :=
  let (r, cache, inner) :=
    readThrough s.archives (reader, hash) (ObjectStore.getArchive hash reader) s.inner
  (r, { s with archives := cache, inner := inner })

/-- Writes unless the same content was lately written for the same readers. -/
def putRecord (type : String) (bytes : Bytes) (signer owner : PublicKey) (audience : Readers)
    (s : CachedStore σ) : Hash × CachedStore σ :=
  let key : WriteKey := (audience.insert owner, contentHash bytes)
  match s.written.stored[key]? with
  | some hash => (hash, s)
  | none =>
    let (hash, inner) := ObjectStore.putRecord type bytes signer owner audience s.inner
    (hash, { s with inner := inner, written := s.written.insert key hash })

instance : ObjectStore (CachedStore σ) where
  getRecord := getRecord
  getArchive := getArchive
  putRecord := putRecord

end CachedStore

end Notary.Store
