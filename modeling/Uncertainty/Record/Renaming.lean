import Uncertainty.Error
import Uncertainty.Record.Basic

namespace Uncertainty

variable {ν : Type}

def Record.rename (f : RecordId → RecordId) (r : Record ν) : Record ν := { r with id := f r.id }

def StoreError.rename (f : RecordId → RecordId) : StoreError → StoreError
  | recordNotFound id => recordNotFound (f id)
  | duplicateKey id => duplicateKey (f id)
  | unreadable => unreadable

def Error.rename (f : RecordId → RecordId) : Error ν → Error ν
  | store e => store (e.rename f)
  | e => e

end Uncertainty
