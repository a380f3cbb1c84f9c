import FieldTelemetry.Text.Digits
import FieldTelemetry.Text.Quoted

/-!
# Errors of the store

## Main definitions

* `StoreError`: why something was not read or stored
-/

namespace FieldTelemetry.Store

/-- Why something was not read or stored. -/
inductive StoreError
  /-- The text is no id. -/
  | invalidId (id : String)
  /-- An operation on files failed. -/
  | io
  /-- No attempt to store an update could be verified. -/
  | unconverged (kind id : String) (attempts : Nat)
deriving DecidableEq, Repr

/-- The wording of an error. -/
def StoreError.message : StoreError → String
  | .invalidId id => "invalid entity id " ++ Text.quoted id
  | .io => "store I/O error"
  | .unconverged kind id attempts =>
    kind ++ " " ++ id ++ " did not converge after " ++ Text.decimal attempts ++ " attempts"

end FieldTelemetry.Store
