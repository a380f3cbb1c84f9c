import FieldTelemetry.Text.Quoted

/-!
# Entity ids

The ids of devices, gateways and collectors name files, so some texts are none.

## Main definitions

* `EntityId.Valid`: the texts that are ids
-/

namespace FieldTelemetry.Store.EntityId

/-- Two full stops in a row. -/
def hasTwoStops : List Char → Bool
  | '.' :: '.' :: _ => true
  | _ :: rest => hasTwoStops rest
  | [] => false

/-- The text is an id: not empty, without a full stop in front or two in a row, and without the
characters that separate or end the names of files. -/
def Valid (text : String) : Prop :=
  text.toList ≠ [] ∧ text.toList.head? ≠ some '.' ∧ hasTwoStops text.toList = false
    ∧ ∀ c ∈ text.toList, c ≠ '/' ∧ c ≠ '\\' ∧ c ≠ '\x00'

instance (text : String) : Decidable (Valid text) :=
  -- Only the characters of the text are tried, not all that there are.
  have : Decidable (∀ c ∈ text.toList, c ≠ '/' ∧ c ≠ '\\' ∧ c ≠ '\x00') := List.decidableBAll _ _
  inferInstanceAs (Decidable (_ ∧ _ ∧ _ ∧ _))

end FieldTelemetry.Store.EntityId
