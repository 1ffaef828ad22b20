import Bundler.CommandLine.Errand

/-!
# The program

The command line on real files. What an errand asks of its surroundings is done
here, and nothing is decided: a file is read, a line is printed, and while a
session goes on, its files are looked at again and again until the program is
interrupted.
-/

namespace Bundler.Main

open CommandLine

/-- The desk is kept by the machine; everything else is done outside. -/
def environment : Environment setting where
  State := Desk
  answer := Errand.respond
  serve
    | .see, desk => some (desk, desk)
    | .change step, desk => (step desk).map fun desk => ((), desk)
    | _, _ => none

abbrev Work := Machine environment

/-- The task that the program itself is. -/
def outside : TaskId := 0

/-- What errands are answered with. -/
structure Surroundings where
  /-- The level that the log is kept at. -/
  limit : LogLevel
  /-- When the latest run began, in milliseconds. -/
  began : IO.Ref Nat

/-- The fault behind an error of the system. Its number may be given as a negative
one. -/
def faultOf (error : IO.Error) : FileFault :=
  let code : UInt32 :=
    match error with
    | .noFileOrDirectory _ code _ => code
    | .alreadyExists _ code _ => code
    | .inappropriateType _ code _ => code
    | .invalidArgument _ code _ => code
    | .permissionDenied _ code _ => code
    | .resourceExhausted _ code _ => code
    | .noSuchThing _ code _ => code
    | .otherError code _ => code
    | _ => 0
  match min code (0 - code) with
  | 2 => .system .noEntry
  | 17 => .system .exists
  | 20 => .system .notDirectory
  | 21 => .system .isDirectory
  | 36 => .system .nameTooLong
  | _ => .other (toString error)

/-- Do something with files, and catch its fault. -/
def attempt {α : Type} (action : IO α) : IO (Except FileFault α) := do
  try return .ok (← action)
  catch error => return .error (faultOf error)

/-- What a path holds: a directory can be opened, but not read. -/
def kindOf (path : Path) : IO PathKind := do
  let look : IO ByteArray := do (← IO.FS.Handle.mk path.text .read).read 1
  match ← attempt look with
  | .ok _ => return .file
  | .error (.system .isDirectory) => return .directory
  | .error _ => return .missing

def readText (path : Path) : IO (Except FileFault String) := do
  match ← attempt (IO.FS.readBinFile path.text) with
  | .error fault => return .error fault
  | .ok content =>
    match String.fromUTF8? content with
    | some text => return .ok text
    | none => return .error .notText

def printLine (limit : LogLevel) : Line → IO Unit
  | .result text => do
    IO.println text
    (← IO.getStdout).flush
  | .complaint text => IO.eprintln text
  | .log level text =>
    if limit.shows level then IO.eprintln (level.label ++ " " ++ text) else pure ()

/-- Answer a request, unless it is about the desk. -/
def Surroundings.answer (surroundings : Surroundings) :
    (request : Request) → IO (Option (setting.Answer request))
  | .isFile path => do return some ((← kindOf path) == .file)
  | .isDirectory path => do return some ((← kindOf path) == .directory)
  | .read path => do return some (← attempt (IO.FS.readBinFile path.text))
  | .readText path => do return some (← readText path)
  | .mkdir path => do return some (← attempt (IO.FS.createDir path.text))
  | .write path content => do return some (← attempt (IO.FS.writeBinFile path.text content))
  | .print line => do
    printLine surroundings.limit line
    return some ()
  | .elapsed => do return some (toString ((← IO.monoMsNow) - (← surroundings.began.get)))
  | .see => return none
  | .change _ => return none

/-- Let the tasks run until all of them wait. -/
partial def settle (surroundings : Surroundings) (work : Work) : IO Work := do
  for task in work.tasks do
    if let .request wish next := task.program then
      if let some reply ← surroundings.answer wish then
        return ← settle surroundings (work.replace task.id (next reply))
    if let some moved := work.step task.id false then
      return ← settle surroundings moved
  return work

/-- Do an errand to its end. -/
partial def carryOut {α : Type} (surroundings : Surroundings) (work : Work) (errand : Errand α) :
    IO (α × Work) := do
  match work.advance outside 1000000 errand with
  | (.value value, work) => return (value, work)
  | (.panicked, _) => throw (IO.userError "the program panicked")
  | (.waits left, work) =>
    if let .request wish next := left then
      if let some reply ← surroundings.answer wish then
        return ← carryOut surroundings work (next reply)
    carryOut surroundings (← settle surroundings work) left

/-! ## Sessions -/

/-- What a path holds now: nothing, or a mark of its content. -/
def markOf (path : Path) : IO (Option UInt64) := do
  match ← attempt (IO.FS.readBinFile path.text) with
  | .ok content => return some (hash content)
  | .error _ => return if (← kindOf path) == .directory then some 0 else none

/-- The paths that the open lookouts are about, with their marks. -/
def marks (work : Work) : IO (List (Path × Option UInt64)) :=
  (work.state.lookouts.filter Lookout.isOpen).flatMap
    (fun lookout => lookout.filter.files.keys ++ lookout.filter.missing.keys)
  |>.mapM fun path => do return (path, ← markOf path)

/-- Tell the session of what is not as it was. -/
def deliverChanges (surroundings : Surroundings) (work : Work)
    (before after : List (Path × Option UInt64)) : IO Work := do
  let changed := (before.zip after).filterMap fun (old, new) =>
    if old.2 != new.2 then some old.1 else none
  let there := (after.filter fun entry => entry.2.isSome).map Prod.fst
  let mut work := work
  for lookout in work.state.lookouts do
    let heard := (lookout.hear (.changed changed)).lookAtAll
    if let some (changes, _) := heard.due? there.contains then
      surroundings.began.set (← IO.monoMsNow)
      let ((), told) ← carryOut surroundings work (Errand.deliver lookout.session changes)
      work := told
  settle surroundings work

/-- Look at the files of a session from time to time. -/
partial def watchOn (surroundings : Surroundings) (pause : UInt32) (work : Work) : IO Unit := do
  let before ← marks work
  let rec look : IO Unit := do
    IO.sleep pause
    let after ← marks work
    if before == after then look
    else
      IO.sleep pause
      let work ← deliverChanges surroundings work before (← marks work)
      watchOn surroundings pause work
  look

/-- How long to wait between two looks at the files, in milliseconds. -/
def pause : UInt32 := 100

/-- Do what valid arguments say. -/
def carryOutAll (arguments : Arguments) : IO UInt32 := do
  let limit := LogLevel.choose arguments.logLevel (← IO.getEnv "PACKWATCH_LOG")
  let surroundings : Surroundings := { limit, began := ← IO.mkRef (← IO.monoMsNow) }
  let current := Path.of (← IO.currentDir).toString
  let start : Work := { world := { nextTask := outside + 1 }, state := {} }
  let (ending, work) ← carryOut surroundings start (Errand.invoke current arguments)
  match ending with
  | .failed failure => IO.eprintln failure.report
  | .finished => pure ()
  | .watching _ => watchOn surroundings pause (← settle surroundings work)
  return ending.exitCode.toUInt32

end Bundler.Main

def main (arguments : List String) : IO UInt32 := do
  match Bundler.CommandLine.Arguments.parse arguments with
  | .ok arguments => Bundler.Main.carryOutAll arguments
  | .error error =>
    match error.answer? with
    | some text => IO.println text
    | none => IO.eprintln error.message
    return error.exitCode.toUInt32
