import FieldTelemetry.Json.Record

/-!
# Settings of the upload endpoint

## Main definitions

* `Settings`: where the endpoint listens and how long a body may be
-/

namespace FieldTelemetry.Upload

open Json (slots default?)

/-- The settings of the upload endpoint. -/
structure Settings where
  /-- The address to listen at. -/
  bind : String := "0.0.0.0:8080"
  /-- The size of the largest body that is read. -/
  maxBody : UInt64 := 262144
deriving DecidableEq, Repr, Inhabited

instance : Json.Record Settings where
  form := slots true ["bind", "max_body"]
  values x := [some (.ofString x.bind), some (.ofUInt64 x.maxBody)]
  ofValues?
    | [bind, maxBody] => do
      let standard : Settings := {}
      return ⟨← default? standard.bind Json.text? bind,
        ← default? standard.maxBody Json.uint64? maxBody⟩
    | _ => none

end FieldTelemetry.Upload
