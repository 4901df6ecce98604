/-
Guests that are contract modules: they describe themselves.

* `loadContract` — a started module together with its metadata.
-/

import Notary.Guest.Buffer
import Notary.Metadata.Document

namespace Notary.Guest

/-- Why a contract module cannot be loaded. -/
inductive LoadFault where
  | guest (fault : Fault)
  | metadata (fault : Metadata.Fault)
deriving DecidableEq, Repr

def LoadFault.message : LoadFault → String
  | .guest fault => fault.message
  | .metadata fault => s!"Invalid contract metadata: {fault.message}"

/-- Starts a module and reads what it says about itself. -/
def Executor.loadContract {γ : Type} (x : Executor γ) (bs : Bytes) :
    Except LoadFault (γ × Metadata.ContractMetadata) :=
  match x.instantiate bs with
  | .error e => .error (.guest e)
  | .ok g =>
    match x.call g entryName [] with
    | (.error e, _) => .error (.guest e)
    | (.ok answer, g) =>
      match Metadata.ContractMetadata.parse answer with
      | .error e => .error (.metadata e)
      | .ok m => .ok (g, m)

end Notary.Guest
