import Bundler.CommandLine.LogLevel
import Bundler.Compiler.Machine
import Bundler.Notice.Lookout
import Bundler.Storage.ReadCache

/-!
# The desk

What the program keeps at hand while it does what it was told, and what it may
ask of its surroundings: files, lines to print, the time, and the desk itself.
-/

namespace Bundler.CommandLine

/-- A line that the program prints. -/
inductive Line where
  /-- What was asked for. -/
  | result (text : String)
  | complaint (text : String)
  | log (level : LogLevel) (text : String)
  deriving DecidableEq

/-- What the program keeps at hand. -/
structure Desk where
  /-- What was read since the last purge. -/
  seen : ReadCache := {}
  /-- Subscriptions to file events by their identity. -/
  lookouts : List Lookout := []
  /-- What the single run ended with. -/
  outcome : Option RunResult := none
  /-- The session was closed. -/
  closed : Bool := false

inductive Request where
  | isFile (path : Path)
  | isDirectory (path : Path)
  | read (path : Path)
  | readText (path : Path)
  | mkdir (path : Path)
  | write (path : Path) (content : ByteArray)
  | print (line : Line)
  /-- The milliseconds that the run has taken. -/
  | elapsed
  | see
  /-- Change the desk as soon as it can be changed. -/
  | change (step : Desk → Option Desk)

/-- The setting of the command line: no observers, and one kind of callback and
handler. -/
abbrev setting : Setting where
  Observer := Empty
  Callback := Unit
  Handler := Unit
  Request := Request
  Answer
    | .isFile _ => Bool
    | .isDirectory _ => Bool
    | .read _ => Except FileFault ByteArray
    | .readText _ => Except FileFault String
    | .mkdir _ => Except FileFault Unit
    | .write _ _ => Except FileFault Unit
    | .print _ => Unit
    | .elapsed => String
    | .see => Desk
    | .change _ => Unit

/-- A program of the command line. -/
abbrev Errand := Prog setting

namespace Errand

def isFile (path : Path) : Errand Bool := Prog.ask (S := setting) (.isFile path)

def isDirectory (path : Path) : Errand Bool := Prog.ask (S := setting) (.isDirectory path)

def see : Errand Desk := Prog.ask (S := setting) .see

/-- Change the desk as soon as it can be changed. -/
def await (step : Desk → Option Desk) : Errand Unit := Prog.ask (S := setting) (.change step)

def change (step : Desk → Desk) : Errand Unit := await fun desk => some (step desk)

def print (line : Line) : Errand Unit := Prog.ask (S := setting) (.print line)

def log (level : LogLevel) (text : String) : Errand Unit := print (.log level text)

end Errand

end Bundler.CommandLine
