import Bundler.Text.CharClass

/-!
# Log levels

How much the log tells. A level given as an argument wins over the environment,
and without either the log tells what is of interest to everybody.
-/

namespace Bundler.CommandLine

inductive LogLevel where
  | error
  | warn
  | info
  | debug
  | trace
  deriving DecidableEq, Repr

namespace LogLevel

/-- All levels, the most urgent first. -/
def all : List LogLevel := [error, warn, info, debug, trace]

def rank : LogLevel → Nat
  | error => 0
  | warn => 1
  | info => 2
  | debug => 3
  | trace => 4

/-- The level as an argument spells it. -/
def word : LogLevel → String
  | error => "error"
  | warn => "warn"
  | info => "info"
  | debug => "debug"
  | trace => "trace"

/-- The level as a line of the log shows it. -/
def label : LogLevel → String
  | error => "ERROR"
  | warn => "WARN"
  | info => "INFO"
  | debug => "DEBUG"
  | trace => "TRACE"

def ofWord? (word : String) : Option LogLevel := all.find? fun level => level.word == word

/-- Every level is read back from its word. -/
theorem ofWord?_word (level : LogLevel) : ofWord? level.word = some level := by
  cases level <;> decide

/-- A text without white space around it. -/
def trimmed (text : String) : String :=
  String.ofList
    ((text.toList.dropWhile Text.isBlank).reverse.dropWhile Text.isBlank).reverse

/-- A level as the environment gives it: white space around it and the case of its
letters do not matter, and there is a longer word for warnings. -/
def ofVariable? (text : String) : Option LogLevel :=
  let word := (trimmed text).toLower
  if word = "warning" then some warn else ofWord? word

/-- The level that the log is kept at. -/
def choose (argument : Option LogLevel) (environment : Option String) : LogLevel :=
  argument.getD ((environment.bind ofVariable?).getD info)

/-- A log kept at `limit` has lines of `level`. -/
def shows (limit level : LogLevel) : Bool := level.rank ≤ limit.rank

end LogLevel

end Bundler.CommandLine
