import Bundler.Build.Context
import Bundler.Compiler.Machine
import Bundler.Rehearsal.Script
import Bundler.Storage.Input

/-!
# The stage of a rehearsal

The storages, gates and counters around a rehearsed compiler, and the notes of
what happened. Output storages record what is asked of them, and sources of change
notices deliver what they are given to their latest subscriber.
-/

namespace Bundler.Rehearsal

/-- What is noted of a compilation. -/
structure Brief where
  id : Nat
  name : Option String
  bail : Bool
  modules : Nat
  assets : List String
  errors : Nat
  warnings : Nat
  deriving DecidableEq, Repr

def Brief.of (compilation : Compilation) : Brief :=
  ⟨compilation.id, compilation.name, compilation.bail, compilation.modules.size,
    compilation.assetNames, compilation.errors.length, compilation.warnings.length⟩

/-- What can be asked about a compiler and its session. -/
structure Facts where
  state : RunState
  isChild : Bool
  name : Option String
  changes : ChangeSet
  phase : Option SessionPhase
  lastChange : Option ChangeSet
  subscriptions : Nat
  closed : Nat
  reads : Nat
  purges : Nat

/-- What a deed answers. -/
inductive Answer where
  | nothing
  | text (value : String)
  | flag (value : Bool)
  | refused (error : RunError)
  | facts (value : Facts)

/-- What is noted of a call of an observer. -/
inductive Detail where
  | compiler (state : RunState) (name : Option String) (changes : ChangeSet)
  | compilation (brief : Brief)
  | asset (asset : EmittedAsset)
  | error (error : RunError)
  | finished (brief : Option Brief)
  | file (path : Option Path)
  | nothing

/-- Something that happened. -/
inductive Note where
  | told (hook : HookName) (tap : String) (detail : Detail)
  | passedTap (gate tap : String)
  | passedBuild (gate compiler : String)
  | callback (label : String) (result : Option RunResult)
  | handler (count : Nat) (result : RunResult)
  | plugin (name : String) (compiler : Option String)
  | build (compiler : String) (count : Nat) (changes : ChangeSet) (cached : Bool)
  | child (name : String) (isChild : Bool) (parent : ParentMarker)
  | childDone (name : String) (state : RunState) (error : Option RunError)
  | tolerated (error : RunError)
  | edited (edit : String) (result : Compilation.EditResult)
  | did (deed : String) (answer : Answer)

/-- A request to an output storage. -/
inductive OutputRequest where
  | mkdir (path : Path)
  | write (path : Path)
  deriving DecidableEq, Repr

/-- An output storage in memory. -/
structure OutputStorage where
  store : MemoryFiles := MemoryFiles.empty
  /-- Requests since they were last looked at. -/
  requests : List OutputRequest := []
  /-- Refuse to write files. -/
  refuses : Bool := false

namespace OutputStorage

def mkdir (output : OutputStorage) (path : Path) : Except FileFault Unit × OutputStorage :=
  let output := { output with requests := output.requests ++ [OutputRequest.mkdir path] }
  match output.store.mkdir path with
  | .ok store => (.ok (), { output with store })
  | .error fault => (.error fault, output)

def write (output : OutputStorage) (path : Path) (content : ByteArray) :
    Except FileFault Unit × OutputStorage :=
  let output := { output with requests := output.requests ++ [OutputRequest.write path] }
  if output.refuses then (.error (.writeRefused path), output)
  else
    match output.store.write path content with
    | .ok store => (.ok (), { output with store })
    | .error fault => (.error fault, output)

end OutputStorage

/-- A source of change notices that is driven by hand. -/
structure NoticeSource where
  requests : List WatchRequest := []
  /-- The session that subscribed last. -/
  subscriber : Option SessionId := none
  /-- The number of subscriptions that were given up. -/
  closed : Nat := 0
  /-- Refuse the next subscription. -/
  refusesNext : Bool := false

/-- What is waited for. -/
inductive SlotValue where
  | result (result : RunResult)
  | called

/-- The surroundings of a rehearsed compiler. -/
structure Stage where
  files : MemoryFiles
  inputs : List (InputKind × InputStorage) := []
  outputs : List OutputStorage := []
  watchers : List NoticeSource := []
  /-- The source of each subscription. -/
  subscriptions : List StorageId := []
  gates : Table String Nat := Table.empty
  /-- Builders by the name of their compiler; without any, builds are plain. -/
  builders : Option (Table String BuildScript) := none
  buildCounts : Table String Nat := Table.empty
  /-- Calls of observers and handlers by key. -/
  counts : Table Nat Nat := Table.empty
  nextKey : Nat := 0
  /-- The session whose handle is held. -/
  session : Option SessionId := none
  /-- The session that a step waits for. The step holds its handle as well. -/
  awaited : Option SessionId := none
  notes : List Note := []
  journal : List String := []
  /-- The compilation of the last run that did not fail. -/
  lastFinished : Option Compilation := none
  /-- The compilation of the last run that did not fail, be it a child's. -/
  lastCompiled : Option Compilation := none
  slots : Table Nat SlotValue := Table.empty

namespace Stage

def input (stage : Stage) (id : StorageId) : InputKind × InputStorage :=
  (stage.inputs[id]?).getD (.plain, {})

def output (stage : Stage) (id : StorageId) : OutputStorage := (stage.outputs[id]?).getD {}

def watcher (stage : Stage) (id : StorageId) : NoticeSource := (stage.watchers[id]?).getD {}

def note (stage : Stage) (entry : Note) : Stage := { stage with notes := stage.notes ++ [entry] }

def enter (stage : Stage) (entry : String) : Stage :=
  { stage with journal := stage.journal ++ [entry] }

def changeOutput (stage : Stage) (id : StorageId) (change : OutputStorage → OutputStorage) :
    Stage :=
  { stage with outputs := stage.outputs.modify id change }

def changeWatcher (stage : Stage) (id : StorageId) (change : NoticeSource → NoticeSource) :
    Stage :=
  { stage with watchers := stage.watchers.modify id change }

def changeInput (stage : Stage) (id : StorageId) (change : InputStorage → InputStorage) : Stage :=
  { stage with inputs := stage.inputs.modify id fun (kind, input) => (kind, change input) }

/-- Take one passage through a gate, if there is one left. -/
def pass? (stage : Stage) (gate : String) : Option Stage :=
  match (stage.gates.get? gate).getD 0 with
  | 0 => none
  | count + 1 => some { stage with gates := stage.gates.insert gate count }

def release (stage : Stage) (gate : String) (count : Nat) : Stage :=
  { stage with gates := stage.gates.insert gate ((stage.gates.get? gate).getD 0 + count) }

/-- A fresh input of a kind. -/
def newInput (kind : InputKind) : InputKind × InputStorage :=
  (kind, { cache := if kind = .remembered then some {} else none })

/-- Calls that reached counted inputs. -/
def counted (stage : Stage) (count : InputStorage → Nat) : Nat :=
  stage.inputs.foldl (fun total (kind, input) =>
    if kind = .plain then total else total + count input) 0

end Stage

/-- A request of rehearsed code. -/
inductive StageRequest where
  | see
  /-- Change the stage as soon as it can be changed. -/
  | change (step : Stage → Option Stage)

/-- The setting of a rehearsal. -/
abbrev setting : Setting where
  Observer := Observer
  Callback := Callback
  Handler := Handler
  Request := StageRequest
  Answer
    | .see => Stage
    | .change _ => Unit

/-- A program of a rehearsal. -/
abbrev Play := Prog setting

namespace Play

def see : Play Stage := Prog.request (S := setting) .see .done

/-- Change the stage as soon as it can be changed. -/
def await (step : Stage → Option Stage) : Play Unit :=
  Prog.request (S := setting) (.change step) .done

def change (step : Stage → Stage) : Play Unit := await fun stage => some (step stage)

def note (entry : Note) : Play Unit := change fun stage => stage.note entry

end Play

end Bundler.Rehearsal
