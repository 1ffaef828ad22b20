import Bundler.CommandLine.LogLevel
import Bundler.Options.Reading

/-!
# Arguments

What the program is told on its command line. An option that takes a value takes
it after `=` or as the next argument, which must not look like an option. Nothing
may be given twice, and nothing is free-standing. A value that was given as an
argument of its own is looked at when the next option is read, so an unknown
argument behind it is reported first.
-/

namespace Bundler.CommandLine

structure Arguments where
  /-- Where the configuration is. -/
  config : Path := defaultConfigPath
  watch : Bool := false
  logLevel : Option LogLevel := none
  dryRun : Bool := false
  bail : Bool := false
  deriving DecidableEq

/-- Options that take no value. -/
inductive Switch where
  | watch
  | dryRun
  | bail
  deriving DecidableEq, Repr

/-- Options that take a value. -/
inductive Setter where
  | config
  | logLevel
  deriving DecidableEq, Repr

/-- What an option is for. -/
inductive OptionKind where
  | switch (switch : Switch)
  | setter (setter : Setter)
  | help
  | version
  deriving DecidableEq, Repr

/-- The options by their long names. -/
def optionNames : List (String × OptionKind) :=
  [("config", .setter .config), ("watch", .switch .watch), ("log-level", .setter .logLevel),
    ("dry-run", .switch .dryRun), ("bail", .switch .bail), ("help", .help),
    ("version", .version)]

/-- Why arguments give no orders to carry out. -/
inductive UsageError where
  | helpWanted (long : Bool)
  | versionWanted
  | unknown (argument : String)
  | missingValue (option : Setter)
  | badValue (option : Setter) (value : String)
  | needlessValue (option : String)
  | repeatedSwitch (option : Switch)
  | repeatedSetter (option : Setter)
  deriving DecidableEq, Repr

/-- The arguments that were read so far. -/
structure Reader where
  arguments : Arguments := {}
  switches : List Switch := []
  setters : List Setter := []
  /-- An option that waits for its value, or whose value was not looked at yet. -/
  pending : Option (Setter × Option String) := none

namespace Reader

def turnOn (reader : Reader) (switch : Switch) : Except UsageError Reader :=
  if reader.switches.contains switch then .error (.repeatedSwitch switch)
  else
    let arguments :=
      match switch with
      | .watch => { reader.arguments with watch := true }
      | .dryRun => { reader.arguments with dryRun := true }
      | .bail => { reader.arguments with bail := true }
    .ok { reader with arguments, switches := switch :: reader.switches }

def assign (reader : Reader) (setter : Setter) (value : String) : Except UsageError Reader :=
  if reader.setters.contains setter then .error (.repeatedSetter setter)
  else
    let reader := { reader with setters := setter :: reader.setters }
    match setter with
    | .config => .ok { reader with arguments := { reader.arguments with config := .of value } }
    | .logLevel =>
      match LogLevel.ofWord? value with
      | some level =>
        .ok { reader with arguments := { reader.arguments with logLevel := some level } }
      | none => .error (.badValue setter value)

/-- Look at what is pending. -/
def settle (reader : Reader) : Except UsageError Reader :=
  match reader.pending with
  | none => .ok reader
  | some (setter, none) => .error (.missingValue setter)
  | some (setter, some value) => { reader with pending := none }.assign setter value

/-- Read an option by its long name, with the value after its `=`. -/
def readLong (reader : Reader) (name : String) (value : Option String) :
    Except UsageError Reader :=
  match optionNames.lookup name, value with
  | none, _ => .error (.unknown ("--" ++ name))
  | some (.setter setter), some value => do (← reader.settle).assign setter value
  | some (.setter setter), none => do
    return { (← reader.settle) with pending := some (setter, none) }
  | some _, some _ => .error (.needlessValue ("--" ++ name))
  | some (.switch switch), none => do (← reader.settle).turnOn switch
  | some .help, none => do
    let _ ← reader.settle
    throw (.helpWanted true)
  | some .version, none => do
    let _ ← reader.settle
    throw .versionWanted

/-- Read an option by its letter. -/
def readShort (reader : Reader) (letter : Char) : Except UsageError Reader := do
  match letter with
  | 'h' =>
    let _ ← reader.settle
    throw (.helpWanted false)
  | 'V' =>
    let _ ← reader.settle
    throw .versionWanted
  | letter => throw (.unknown ("-" ++ letter.toString))

/-- Read an argument that does not look like an option. -/
def readPlain (reader : Reader) (argument : String) : Except UsageError Reader :=
  match reader.pending with
  | some (setter, none) => .ok { reader with pending := some (setter, some argument) }
  | _ => .error (.unknown argument)

/-- Cut a long option at its first `=`. -/
def cutAtEquals (text : List Char) : String × Option String :=
  match text.dropWhile (· != '=') with
  | [] => (String.ofList text, none)
  | _ :: value => (String.ofList (text.takeWhile (· != '=')), some (String.ofList value))

def readOne (reader : Reader) (argument : String) : Except UsageError Reader :=
  match argument.toList with
  | '-' :: '-' :: rest =>
    let (name, value) := cutAtEquals rest
    reader.readLong name value
  | '-' :: letter :: _ => reader.readShort letter
  | _ => reader.readPlain argument

/-- Read arguments in order. Behind `--` everything is free-standing. -/
def readAll : List String → Reader → Except UsageError Reader
  | [], reader => reader.settle
  | argument :: rest, reader =>
    if argument = "--" then
      match rest with
      | [] => reader.settle
      | next :: _ => .error (.unknown next)
    else do readAll rest (← reader.readOne argument)

end Reader

def Arguments.parse (arguments : List String) : Except UsageError Arguments :=
  (Reader.readAll arguments {}).map Reader.arguments

end Bundler.CommandLine
