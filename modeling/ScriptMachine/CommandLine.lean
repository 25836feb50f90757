import ScriptMachine.Listing.Yaml
import ScriptMachine.Machine.Log
import ScriptMachine.Script.Loader
import ScriptMachine.Text.Path

/-!
# The command line

The program lists a compiled script: it reads one file and writes its listing in YAML to another.
The options name both files, the encoding of the script's texts, and how much is reported.
-/

namespace ScriptMachine.CommandLine

/-- What a command line can set. -/
inductive Setting where
  | input
  | output
  | encoding
  | logLevel
  deriving DecidableEq

namespace Setting

/-- All settings. -/
def all : List Setting := [input, output, encoding, logLevel]

/-- The names a setting is given under, the long one first. -/
def names : Setting → List String
  | input => ["--input", "-i"]
  | output => ["--output", "-o"]
  | encoding => ["--encoding", "-e"]
  | logLevel => ["--log-level"]

/-- The setting with a given name. -/
def ofName? (name : String) : Option Setting :=
  all.find? fun s => s.names.contains name

end Setting

/-- Why a command line is refused. -/
inductive UsageFault where
  | unexpected (argument : String)
  | repeated (name : String)
  | noValue (name : String)
  | missing (s : Setting)
  | unknownEncoding (label : String)
  | unknownLevel (name : String)
  deriving DecidableEq

/-- The message of a usage fault. -/
def UsageFault.message : UsageFault → String
  | unexpected argument => "unexpected argument: " ++ argument
  | repeated name => "option given twice: " ++ name
  | noValue name => "option without a value: " ++ name
  | missing s => "missing option: " ++ s.names.headD ""
  | unknownEncoding label => "unknown encoding: " ++ label
  | unknownLevel name => "unknown log level: " ++ name

/-- The settings of a command line, the latest first. -/
abbrev Settings := List (Setting × String)

/-- An argument cut at its first equals sign into a name and a value, if it has one. -/
def cutArgument (argument : String) : String × Option String :=
  let cs := argument.toList
  match cs.dropWhile (· != '=') with
  | [] => (argument, none)
  | _ :: value => (String.ofList (cs.takeWhile (· != '=')), some (String.ofList value))

/-- The settings that arguments add to others. A value is part of the argument or follows it. -/
def readSettings (done : Settings) : List String → Except UsageFault Settings
  | [] => .ok done
  | argument :: rest =>
    let (name, value) := cutArgument argument
    match Setting.ofName? name with
    | none => .error (.unexpected argument)
    | some s =>
      if done.any (·.1 = s) then .error (.repeated name)
      else
        match value with
        | some v => readSettings ((s, v) :: done) rest
        | none =>
          match rest with
          | v :: rest => readSettings ((s, v) :: done) rest
          | [] => .error (.noValue name)

/-- What a command line asks for. -/
structure Options where
  input : String
  output : String
  encoding : Text.Encoding
  /-- The least severity that is reported; `none` reports nothing. -/
  level : Option Severity

/-- The value of a setting. -/
def Settings.get? (settings : Settings) (s : Setting) : Option String :=
  (settings.find? (·.1 = s)).map (·.2)

/-- The value of a setting that has to be there. -/
def Settings.get (settings : Settings) (s : Setting) : Except UsageFault String :=
  match settings.get? s with
  | some v => .ok v
  | none => .error (.missing s)

/-- The severity a name stands for. -/
def readLevel (name : String) : Except UsageFault (Option Severity) :=
  match name with
  | "off" => .ok none
  | "error" => .ok (some .error)
  | "warn" => .ok (some .warning)
  | "info" => .ok (some .info)
  | "debug" | "trace" => .ok (some .debug)
  | _ => .error (.unknownLevel name)

/-- The encoding a label stands for. -/
def readEncoding (label : String) : Except UsageFault Text.Encoding :=
  match Text.Encoding.ofLabel? label with
  | some e => .ok e
  | none => .error (.unknownEncoding label)

/-- What a command line asks for, its arguments without the name of the program. -/
def Options.ofArguments (arguments : List String) : Except UsageFault Options := do
  let settings ← readSettings [] arguments
  let input ← settings.get .input
  let output ← settings.get .output
  let level ← readLevel ((settings.get? .logLevel).getD "info")
  let encoding ← readEncoding ((settings.get? .encoding).getD "windows-1252")
  return { input, output, encoding, level }

/-- Whether a report of some severity is wanted. -/
def Options.reports (o : Options) (s : Severity) : Bool :=
  o.level.any fun level => s.rank ≤ level.rank

/-- What is reported about the bodies of a script, by address. -/
def bodyReports (p : Script) : List (Severity × String) :=
  p.bodies.map fun b =>
    match p.listBody b with
    | .ok l => (.debug, l.name ++ ": " ++ toString l.instructions.length ++ " instructions")
    | .error f => (.error, f.message)

/-- The file a listing is written to. -/
def Options.listingPath (o : Options) : String := Text.withExtension o.output "yaml"

end ScriptMachine.CommandLine
