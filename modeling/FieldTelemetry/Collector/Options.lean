import FieldTelemetry.Collector.Config

/-!
# Options of the command line

The command line names the file of the configuration and may replace two of its settings.

## Main definitions

* `Options`: the options
* `Options.ofArguments`: the options of the arguments of a command
* `Options.apply`: a configuration with the settings that the options replace
-/

namespace FieldTelemetry.Collector

/-- The options. -/
structure Options where
  /-- The file of the configuration. Without one, every setting has its standard. -/
  config : Option String := none
  /-- The folder of all files. -/
  dataDir : Option String := none
  /-- The identifier of this collector. -/
  instanceId : Option String := none
deriving DecidableEq, Repr

/-- Why there are no options. -/
inductive OptionError
  /-- An argument is no option. -/
  | unexpected (argument : String)
  /-- An option has no value. -/
  | noValue (option : String)
  /-- An option is given again. -/
  | repeated (option : String)
deriving DecidableEq, Repr

/-- The wording of an error. -/
def OptionError.message : OptionError → String
  | .unexpected argument => "unexpected argument '" ++ argument ++ "' found"
  | .noValue option => "a value is required for '" ++ option ++ "' but none was supplied"
  | .repeated option => "the argument '" ++ option ++ "' cannot be used multiple times"

namespace Options

/-- The options with one more value. -/
def set (options : Options) (option value : String) : Except OptionError Options :=
  match option with
  | "-c" | "--config" =>
    if options.config.isSome then .error (.repeated "--config")
    else .ok { options with config := some value }
  | "--data-dir" =>
    if options.dataDir.isSome then .error (.repeated option)
    else .ok { options with dataDir := some value }
  | "--instance-id" =>
    if options.instanceId.isSome then .error (.repeated option)
    else .ok { options with instanceId := some value }
  | _ => .error (.unexpected option)

/-- An argument as a long option and its value, if an equals sign joins them. -/
def joined? (argument : String) : Option (String × String) :=
  let cs := argument.toList
  let name := cs.takeWhile (· ≠ '=')
  if "--".toList.isPrefixOf cs ∧ name.length < cs.length then
    some (String.ofList name, String.ofList (cs.drop (name.length + 1)))
  else none

/-- The options with those of further arguments. -/
def addArguments (options : Options) : List String → Except OptionError Options
  | [] => .ok options
  | [argument] =>
    match joined? argument with
    | some (option, value) => options.set option value
    | none => do
      discard (options.set argument "")
      .error (.noValue argument)
  | argument :: next :: rest =>
    match joined? argument with
    | some (option, value) => do (← options.set option value).addArguments (next :: rest)
    | none => do (← options.set argument next).addArguments rest

/-- The options of the arguments of a command. -/
def ofArguments (arguments : List String) : Except OptionError Options :=
  ({} : Options).addArguments arguments

/-- A configuration with the settings that the options replace. -/
def apply (options : Options) (config : Config) : Config :=
  { config with
    store.dataDir := options.dataDir.getD config.store.dataDir
    server.instanceId := options.instanceId.getD config.server.instanceId }

end Options

end FieldTelemetry.Collector
