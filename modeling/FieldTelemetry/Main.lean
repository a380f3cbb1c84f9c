import FieldTelemetry.Collector.Assembly
import FieldTelemetry.Collector.Options

/-!
# The command line

The command loads a configuration, puts a collector together from it and shows its parts. The host
gives the collector its network and its clock.
-/

namespace FieldTelemetry

open Collector (Assembly Config Options)

/-- The configuration of the options, which a collector can run with. -/
def loadConfig (options : Options) : IO (Except String Config) := do
  let loaded ← match options.config with
    | none => pure (.ok {})
    | some path =>
      try
        pure ((Config.ofToml (← IO.FS.readFile path)).mapError (·.message))
      catch error => pure (.error ("cannot read " ++ path ++ ": " ++ toString error))
  return do
    let config := options.apply (← loaded)
    config.validate.mapError (·.message)
    return config

/-- The collector that the arguments of a command describe. -/
def assembled (arguments : List String) : IO (Except String Assembly) := do
  match Options.ofArguments arguments with
  | .error error => return .error error.message
  | .ok options =>
    match ← loadConfig options with
    | .error error => return .error ("loading configuration: " ++ error)
    | .ok config => return (Collector.assemble config).mapError (·.message)

end FieldTelemetry

/-- Shows the processes of the collector, or why there is none. -/
def main (arguments : List String) : IO UInt32 := do
  match ← FieldTelemetry.assembled arguments with
  | .error error =>
    IO.eprintln ("error: " ++ error)
    return 1
  | .ok assembly =>
    IO.println ("collector " ++ assembly.instanceId)
    for process in assembly.processes do IO.println process
    return 0
