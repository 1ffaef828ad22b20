import Bundler.Options.Validity
import Bundler.Text.Shortest
import Bundler.Toml.Document

/-!
# Options in TOML

The shape of a configuration file. Keys are visited in increasing order, and the
first one that is unknown or has a value of another type is reported. A table
with known keys may also be written as an array of its values in order.
-/

namespace Bundler

open Toml (Value)

/-- A value as a message names it; `none` if the value cannot be represented. -/
def describe? : Value → Option String
  | .string text => some ("string " ++ Text.quoted text)
  | .integer value =>
    if value < -(1 <<< 127) || 1 <<< 128 ≤ value then none
    else some ("integer `" ++ toString value ++ "`" ++
      if value < -(1 <<< 63) || (1 <<< 64 ≤ value && value < 1 <<< 127) then " as i128"
      else if 1 <<< 127 ≤ value then " as u128" else "")
  | .misnumbered => none
  | .float .notANumber => some "floating point `NaN`"
  | .float (.infinite negative) =>
    some (if negative then "floating point `-inf`" else "floating point `inf`")
  | .float (.finite negative digits exponent) =>
    (Text.roundedDecimal? digits exponent).map fun text =>
      "floating point `" ++ (if negative then "-" else "") ++ text ++ "`"
  | .boolean value => some ("boolean `" ++ toString value ++ "`")
  | .moment _ => some "map"
  | .array _ => some "sequence"
  | .table _ => some "map"

/-- A result of reading values, or the reason why their shape is wrong. -/
abbrev Shaped (α : Type) := Except String α

/-- Why a number has no value. -/
def unreadableNumber : String := "number out of range"

def wrongType {α : Type} (value : Value) (expected : String) : Shaped α :=
  .error (match describe? value with
    | some found => "invalid type: " ++ found ++ ", expected " ++ expected
    | none => unreadableNumber)

/-- Known keys as a message lists them. -/
def listKeys : List String → String
  | [key] => "`" ++ key ++ "`"
  | [first, second] => "`" ++ first ++ "` or `" ++ second ++ "`"
  | keys => "one of " ++ ", ".intercalate (keys.map fun key => "`" ++ key ++ "`")

def unknownKey {α : Type} (key : String) (known : List String) : Shaped α :=
  .error ("unknown field `" ++ key ++ "`, expected " ++ listKeys known)

def readText : Value → Shaped String
  | .string text => .ok text
  | value => wrongType value "a string"

def readPath : Value → Shaped Path
  | .string text => .ok (.of text)
  | value => wrongType value "path string"

def readFlag : Value → Shaped Bool
  | .boolean value => .ok value
  | value => wrongType value "a boolean"

def readDuration : Value → Shaped Nat
  | .integer value =>
    if 0 ≤ value && value < 1 <<< 64 then .ok value.toNat
    else if value < 0 && -(1 <<< 63) ≤ value then
      .error ("invalid value: integer `" ++ toString value ++ "`, expected u64")
    else wrongType (.integer value) "u64"
  | value => wrongType value "u64"

def readTexts : Value → Shaped (List String)
  | .array items => items.mapM readText
  | value => wrongType value "a sequence"

def modes : List (String × Mode) :=
  [("production", .production), ("development", .development), ("none", .none)]

def readModeName (name : String) : Shaped Mode :=
  match modes.lookup name with
  | some mode => .ok mode
  | none =>
    .error ("unknown variant `" ++ name ++ "`, expected " ++ listKeys (modes.map Prod.fst))

/-- A mode is a name, or a table with the name as its only key and no content. -/
def readMode : Value → Shaped Mode
  | .string name => readModeName name
  | .table [(name, content)] =>
    (readModeName name).bind fun mode =>
      match content with
      | .table [] | .array [] => .ok mode
      | _ => .error "expected empty table"
  | _ => .error "wanted string or table"

/-- A date stands for a table with this one key. -/
def momentKey : String := "$__toml_private_datetime"

/-- The first number inside a value that is too wide to be tried out, or has no value
at all. -/
def checkNumber (value : Value) : Shaped Unit :=
  match value with
  | .integer number =>
    if number < -(1 <<< 63) || 1 <<< 64 ≤ number then wrongType value "any value" else .ok ()
  | .misnumbered | .float _ =>
    if (describe? value).isNone then .error unreadableNumber else .ok ()
  | _ => .ok ()

mutual

/-- All numbers inside a value can be tried out. -/
def checkNumbers : Value → Shaped Unit
  | .array items => checkItems items
  | .table entries => checkEntries entries
  | value => checkNumber value

def checkItems : List Value → Shaped Unit
  | [] => .ok ()
  | item :: rest => do
    checkNumbers item
    checkItems rest

def checkEntries : List (String × Value) → Shaped Unit
  | [] => .ok ()
  | (_, value) :: rest => do
    checkNumbers value
    checkEntries rest

end

/-- Entries are one text or a table of texts; anything else fits neither. -/
def fitEntry (value : Value) : Shaped EntrySpec :=
  let mismatch := "data did not match any variant of untagged enum EntrySpec"
  match value with
  | .string request => .ok (.single request)
  | .moment text => .ok (.named (Table.empty.insert momentKey text))
  | .table entries =>
    match entries.mapM fun (name, request) => (readText request).map fun text => (name, text) with
    | .ok entries => .ok (.named (Table.ofList entries))
    | .error _ => .error mismatch
  | _ => .error mismatch

/-- Before a value is tried out as entries, all its numbers are looked at. -/
def readEntry (value : Value) : Shaped EntrySpec := do
  checkNumbers value
  fitEntry value

/-- Read a table with known keys, given what each key does to a record. -/
def readRecord {α : Type} (title : String) (fields : List (String × (Value → α → Shaped α)))
    (required : Nat) (start : α) (value : Value) : Shaped α :=
  match value with
  | .table entries =>
    entries.foldlM (fun record (key, value) =>
      match fields.lookup key with
      | some read => read value record
      | none => unknownKey key (fields.map Prod.fst)) start
  | .array items =>
    if items.length < required then .error "invalid length"
    else (fields.zip items).foldlM (fun record (field, value) => field.2 value record) start
  | .moment _ => unknownKey momentKey (fields.map Prod.fst)
  | value => wrongType value ("struct " ++ title)

def readOutput (value : Value) : Shaped OutputOptions :=
  readRecord "OutputOptions"
    [("path", fun value output => return { output with path := ← readPath value }),
      ("filename", fun value output => return { output with filename := ← readText value })]
    0 {} value

def readWatch (value : Value) : Shaped WatchOptions :=
  readRecord "WatchOptions"
    [("aggregate_timeout_ms", fun value watch =>
        return { watch with aggregateTimeout := ← readDuration value }),
      ("ignored", fun value watch => return { watch with ignored := ← readTexts value })]
    0 {} value

def readOptimization (value : Value) : Shaped (Option Bool) :=
  readRecord "RawOptimization"
    [("no_emit_on_errors", fun value _ => return some (← readFlag value))] 1 none value

/-- The options that a document gives. -/
def readFileOptions (document : List (String × Value)) : Shaped FileOptions :=
  readRecord "RawCompilerOptions"
    [("mode", fun value options => return { options with mode := ← readMode value }),
      ("context", fun value options => return { options with context := ← readPath value }),
      ("name", fun value options => return { options with name := some (← readText value) }),
      ("bail", fun value options => return { options with bail := ← readFlag value }),
      ("cache", fun value options => return { options with cache := ← readFlag value }),
      ("entry", fun value options => return { options with entry := ← readEntry value }),
      ("output", fun value options => return { options with output := ← readOutput value }),
      ("optimization", fun value options =>
        return { options with noEmitOnErrors := ← readOptimization value }),
      ("watch_options", fun value options => return { options with watch := ← readWatch value })]
    0 {} (.table document)

namespace FileOptions

/-- Read a configuration file. -/
def parse (source : String) : Except ConfigError FileOptions :=
  match Toml.parse? source with
  | none => .error .syntaxError
  | some document =>
    match readFileOptions document with
    | .ok options => .ok options
    | .error reason => .error (.shape reason)

/-- The options of a compiler, if they are valid. -/
def check (file : FileOptions) : Except ConfigError Options :=
  match file.toOptions.validate with
  | .ok () => .ok file.toOptions
  | .error cause => .error (.invalid cause)

end FileOptions

/-- The default configuration file. -/
def defaultConfigPath : Path := .of "Packwatch.toml"

/-- The directory of a configuration file; `current` is the current directory. -/
def configDirectory (current config : Path) : Path :=
  match config.parent? with
  | some parent => if parent.isEmpty then current else parent
  | none => current

/-- Read, check and rebase the options in a file with this content. -/
def loadOptions (current config : Path) (source : String) : Except ConfigError Options :=
  match FileOptions.parse source with
  | .error error => .error error
  | .ok file =>
    match file.check with
    | .error error => .error error
    | .ok options => .ok (options.rebase (configDirectory current config))

end Bundler
