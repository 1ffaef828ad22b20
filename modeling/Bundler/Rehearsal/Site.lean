import Bundler.CommandLine.Errand
import Bundler.Rehearsal.Script
import Bundler.Storage.Disk

/-!
# Sites

A site is a disk of its own with the desk of a program that works on it, and the
lines that the program printed. On it errands are rehearsed: a configuration is
loaded, a compiler run several times, or a whole invocation played through, with
edits of files that a session hears of.
-/

namespace Bundler.Rehearsal

open CommandLine (Arguments Desk Ending Errand Failure Line LogLevel)

structure Site where
  disk : Disk
  desk : Desk := {}
  /-- What was printed, in order. -/
  printed : List Line := []

namespace Site

/-- Do something to the disk. -/
def act (site : Site) (result : Except FileFault Disk) : Except FileFault Unit × Site :=
  match result with
  | .ok disk => (.ok (), { site with disk })
  | .error fault => (.error fault, site)

def serve : (request : CommandLine.Request) → Site →
    Option (CommandLine.setting.Answer request × Site)
  | .isFile path, site => some (site.disk.view.isFile path, site)
  | .isDirectory path, site => some (site.disk.view.isDirectory path, site)
  | .read path, site => some (site.disk.read path, site)
  | .readText path, site => some (site.disk.readText path, site)
  | .mkdir path, site => some (site.act (site.disk.mkdir path))
  | .write path content, site => some (site.act (site.disk.write path content))
  | .print line, site => some ((), { site with printed := site.printed ++ [line] })
  | .elapsed, site => some (elapsedMark, site)
  | .see, site => some (site.desk, site)
  | .change step, site => (step site.desk).map fun desk => ((), { site with desk })

/-- The environment of errands on a site. -/
def environment : Environment CommandLine.setting where
  State := Site
  answer := Errand.respond
  serve := serve

/-- A program at work on a site. -/
abbrev Work := Machine environment

/-- A bound on the steps of an errand. -/
def patience : Nat := 1000000000

/-- A program that has not begun. -/
def work (disk : Disk) : Work := { state := { disk } }

/-- Do an errand; nothing if it never ends. -/
def run {α : Type} (work : Work) (errand : Errand α) : Option (α × Work) :=
  match work.run patience errand with
  | (.value value, work) => some (value, work)
  | _ => none

def changeDisk (work : Work) (change : Disk → Disk) : Work :=
  { work with state := { work.state with disk := change work.state.disk } }

/-- Files that are not among the known ones. -/
def produced (work : Work) (known : PathSet) : List (Path × ByteArray) :=
  let disk := work.state.disk
  disk.files.filter fun (place, _) => !known.contains place && place.startsWith disk.current

/-! ## File events -/

/-- How an entry of a disk is called by one who watches a directory. -/
def nameFrom? (disk : Disk) (place directory : Path) : Option Path :=
  match place.parent?, place.fileName?, disk.locate directory with
  | some parent, some name, .ok found =>
    if found.same parent then some ((disk.current.join directory).join (.of name)) else none
  | _, _, _ => none

/-- The events of a lookout for entries that changed. -/
def hearAll (disk : Disk) (places : List Path) (lookout : Lookout) : Lookout :=
  let events := places.flatMap fun place =>
    (lookout.directories.keys.filterMap (nameFrom? disk place)).map fun path =>
      FileEvent.changed [path]
  events.foldl Lookout.hear lookout

/-- Entries that only one of two disks has. -/
def differences (before after : Disk) : List Path :=
  after.entries.keys.filter (fun place => !before.entries.contains place) ++
    before.entries.keys.filter fun place => !after.entries.contains place

/-- A change of a disk. -/
inductive Edit where
  | write (path : Path) (content : ByteArray)
  | delete (path : Path)

def Edit.apply (disk : Disk) : Edit → Disk
  | .write path content => disk.addFile path content
  | .delete path => disk.remove path

/-- The entries that an edit of a disk changes. -/
def Edit.places (disk : Disk) (edit : Edit) : List Path :=
  let after := edit.apply disk
  let written :=
    match edit with
    | .write path _ =>
      match after.locate path with
      | .ok place => [place]
      | .error _ => []
    | .delete _ => []
  differences disk after ++ written

/-- A lookout after edits in quick succession, and the disk after them. -/
def hearEdits : List Edit → Disk → Lookout → Disk × Lookout
  | [], disk, lookout => (disk, lookout)
  | edit :: rest, disk, lookout =>
    hearEdits rest (edit.apply disk) (hearAll disk (edit.places disk) lookout)

/-- The changes that one burst of edits amounts to for a request, and the lookout
after it was closed. -/
def noticesOf (disk : Disk) (request : WatchRequest) (edits : List Edit) :
    Except String (Option ChangeSet × Lookout) := do
  let filter ← NoticeFilter.ofRequest request
  let directories := watchedDirectories disk.view.isDirectory request
  let (disk, lookout) := hearEdits edits disk { session := 0, filter, directories }
  let lookout := lookout.lookAtAll
  return ((lookout.due? disk.contains).map Prod.fst, lookout.close)

/-! ## Builds -/

/-- What is done before a run, and whether the program forgets what it read. -/
structure DiskRun where
  edits : List Edit := []
  purges : Bool := false

structure DiskReport where
  result : RunResult
  produced : List (Path × ByteArray)

def buildAll (known : PathSet) (compiler : CompilerId) : List DiskRun → Work → List DiskReport
  | [], _ => []
  | next :: rest, work =>
    let work := changeDisk work fun disk => next.edits.foldl Edit.apply disk
    let errand : Errand RunResult := do
      if next.purges then Errand.purge
      Errand.runOnce compiler
    match run work errand with
    | none => []
    | some (result, work) => ⟨result, produced work known⟩ :: buildAll known compiler rest work

/-- Load a configuration and run its compiler several times. -/
def builds (disk : Disk) (known : PathSet) (config : Path) (runs : List DiskRun) :
    Except ConfigError (List DiskReport) :=
  let errand : Errand (Except ConfigError CompilerId) := do
    match ← Errand.load disk.current config with
    | .error error => return .error error
    | .ok options => return .ok (← Errand.create options)
  match run (work disk) errand with
  | none => .ok []
  | some (.error error, _) => .error error
  | some (.ok compiler, work) => .ok (buildAll known compiler runs work)

/-- The options that a configuration file gives, as it says them and as a compiler
takes them. -/
def loaded (disk : Disk) (config : Path) : Except ConfigError (FileOptions × Options) := do
  match disk.readText config with
  | .error fault => throw (.io fault)
  | .ok source =>
    let options ← loadOptions disk.current config source
    return (← FileOptions.parse source, options)

/-! ## Invocations -/

/-- Tell every open lookout of an edit, and deliver what its burst amounts to. -/
def hearEdit (work : Work) (edit : Edit) : Work :=
  let before := work.state.disk
  let after := edit.apply before
  let places := edit.places before
  let work := changeDisk work fun _ => after
  let heard := work.state.desk.lookouts.map fun lookout =>
    (hearAll before places lookout).lookAtAll
  let due := heard.filterMap fun lookout =>
    (lookout.due? after.contains).map fun (changes, _) => (lookout.session, changes)
  let told := due.foldl (fun work (session, changes) =>
    match run work (Errand.deliver session changes) with
    | some ((), work) => work
    | none => work) work
  told.settle patience

/-- What can be seen of an invocation from outside. -/
structure Impression where
  exitCode : UInt8
  output : String
  report : Option String
  levels : List LogLevel
  produced : List (Path × ByteArray)

/-- What was printed to the standard output. -/
def outputOf (lines : List Line) : String :=
  String.join (lines.map fun
    | .result text => text ++ "\n"
    | _ => "")

/-- The levels of the lines in a log that is kept at `limit`. -/
def levelsOf (limit : LogLevel) (lines : List Line) : List LogLevel :=
  LogLevel.all.filter fun level => limit.shows level && lines.any fun
    | .log other _ => other == level
    | _ => false

def impressionOf (limit : LogLevel) (known : PathSet) (ending : Ending) (work : Work) :
    Impression where
  exitCode := ending.exitCode
  output := outputOf work.state.printed
  report :=
    match ending with
    | .failed failure => some (failure.report ++ "\n")
    | _ => none
  levels := levelsOf limit work.state.printed
  produced := produced work known

/-- Play an invocation through. A session sees the edits, each with the rebuild that
it causes, and is then interrupted. -/
def invoke (disk : Disk) (known : PathSet) (arguments : List String)
    (environment : Option String) (edits : List Edit) : Option Impression :=
  match Arguments.parse arguments with
  | .error error =>
    some ⟨error.exitCode, (error.answer?.map fun text => text ++ "\n").getD "", none, [],
      produced (work disk) known⟩
  | .ok arguments =>
    let limit := LogLevel.choose arguments.logLevel environment
    match run (work disk) (Errand.invoke disk.current arguments) with
    | none => none
    | some (.watching session, work) =>
      let edited := edits.foldl hearEdit (work.settle patience)
      (run edited (Errand.finish session)).map fun ((), work) =>
        impressionOf limit known (.watching session) work
    | some (ending, work) => some (impressionOf limit known ending work)

end Site

end Bundler.Rehearsal
