/-
Why a symbol is not found, or an archive not registered.

* `Fault` — the causes, each with what it is about.
-/

import Notary.Text.Hex

namespace Notary.Context

inductive Fault where
  /-- No scope has the symbol. -/
  | notFound (name : String)
  /-- The bytes with this hash are no archive, or not all of it can be read. -/
  | archive (hash : Hash)
  /-- The schemas of an entry cannot be added to those that are there. -/
  | schema (entry : String)
  /-- The copy of an archive cannot be written, or no longer read. -/
  | scratch
deriving DecidableEq

def Fault.message : Fault → String
  | .notFound name => s!"Symbol not found: {name}"
  | .archive hash => s!"Invalid archive {hash.toHex}"
  | .schema entry => s!"Invalid descriptor set {entry}"
  | .scratch => "Scratch file error"

end Notary.Context
