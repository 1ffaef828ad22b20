import Bundler.Rehearsal.Play

/-!
# Rehearsals

A plan sets up a compiler with scripted surroundings and lists the steps to take.
A step acts at once; the tasks that it starts move on when a step waits for them.
`rehearse` gives a report of every step, or nothing if a step panicked.
-/

namespace Bundler.Rehearsal

open Play

/-- A step of a rehearsal. -/
inductive Step where
  | does (deed : Deed)
  /-- Let every task run until it waits or is over. -/
  | settle
  | awaitRun
  | awaitInvalidate
  | awaitClose
  | runAsChild
  | lastCompilation
  | summary
  | outputs
  | cache
  | cachedArtifact (module : String)
  | requests
  | journal
  | listing

/-- What a step shows. -/
inductive Shown where
  | answer (answer : Answer)
  | result (result : RunResult)
  | child (result : Except RunError Brief)
  | calledBack
  | compilation (compilation : Option Compilation)
  | summary (text : Option String)
  /-- New requests to the output, and its files. -/
  | outputs (requests : List OutputRequest) (files : List (Path × ByteArray))
  | cache (cache : Option ArtifactCache)
  | cachedArtifact (artifact : Option CachedArtifact)
  | requests (requests : List WatchRequest)
  | journal (entries : List String)
  | listing (compiler hooks parent : String)

/-- Wait for a slot to be filled. -/
def takeSlot (key : Nat) : Play (Option SlotValue) := do
  await fun stage => if stage.slots.contains key then some stage else none
  return (← see).slots.get? key

/-- Do something with the current session and wait for its callback. -/
def awaitSession (act : SessionId → Callback → Play Unit) : Play Shown := do
  match (← see).session with
  | none => return .answer (.text "no session")
  | some session =>
    let key ← freshKey
    change fun stage => { stage with awaited := some session }
    act session (.slot key)
    let _ ← takeSlot key
    return .calledBack

/-- The error of a run whose callback was lost. -/
def lostResult : RunError := .other "run task ended without reporting a result"

/-- Start a run and wait for its callback. -/
def awaitRun : Play Shown := do
  let key ← freshKey
  Compiler.run (S := setting) leader (Callback.slot key)
  match ← takeSlot key with
  | some (.result result) => return .result result
  | _ => return .result (.error lostResult)

/-- What the output was asked for since the last look, and its files. -/
def showOutputs : Play Shown := do
  let record ← Prog.look (S := setting) leader
  let output := (← see).output record.output
  change fun stage =>
    stage.changeOutput record.output fun output => { output with requests := [] }
  return .outputs output.requests (output.store.files.filterMap fun path =>
    match output.store.read path with
    | .ok content => some (path, content)
    | .error _ => none)

def showJournal : Play Shown := do
  let entries := (← see).journal
  change fun stage => { stage with journal := [] }
  return .journal entries

def showListing : Play Shown := do
  let record ← Prog.look (S := setting) leader
  let cache ← (Prog.perform .lookCache : Play (Option ArtifactCache))
  return .listing (Compiler.listing record cache.isSome) record.registry.listing
    record.parent.listing

/-- The program of a step. -/
def Step.play : Step → Play Shown
  | .does deed => return .answer (← perform deed)
  | .settle => return .answer .nothing
  | .awaitRun => Rehearsal.awaitRun
  | .awaitInvalidate => awaitSession (Compiler.invalidate (S := setting))
  | .awaitClose => awaitSession (Compiler.close (S := setting))
  | .runAsChild => do
    let result ← Compiler.runAsChild (S := setting) leader
    match result with
    | .ok compilation => change fun stage => { stage with lastCompiled := some compilation }
    | .error _ => pure ()
    return .child (result.map Brief.of)
  | .lastCompilation => return .compilation (← see).lastCompiled
  | .summary =>
    return .summary ((← see).lastFinished.map fun compilation => compilation.summary elapsedMark)
  | .outputs => showOutputs
  | .cache => return .cache (← (Prog.perform .lookCache : Play (Option ArtifactCache)))
  | .cachedArtifact module => do
    let cache ← (Prog.perform .lookCache : Play (Option ArtifactCache))
    return .cachedArtifact (cache.bind fun cache => cache.entries.get? module)
  | .requests => do
    let record ← Prog.look (S := setting) leader
    return .requests ((← see).watcher record.watcher).requests
  | .journal => showJournal
  | .listing => showListing

/-- What a step shows if what it waits for is lost. -/
def Step.abandoned : Step → Shown
  | .awaitRun | .runAsChild => .result (.error lostResult)
  | _ => .calledBack

/-- The set-up and the steps of a rehearsal. -/
structure Plan where
  files : MemoryFiles
  options : Options
  input : InputKind := .plain
  parent : ParentMarker := .null
  plugins : List PluginScript := []
  builders : Option (Table String BuildScript) := none
  /-- Enter every hook in the journal. -/
  journals : Bool := false
  taps : List (TapScript Deed) := []
  /-- Start a run, with this label, as soon as the compiler is made. -/
  firstRun : Option String := none
  steps : List Step := []

/-- The hooks that the journal knows of. -/
def journalHooks : List HookName :=
  HookName.all.filter fun hook => hook != .shouldEmit && hook != .assetEmitted

def registerJournal : List HookName → Play Unit
  | [] => pure ()
  | hook :: rest => do
    Prog.perform (.register leader hook "log" (.outside (Observer.journal hook)))
    registerJournal rest

/-- Make the compiler and register what watches it. -/
def Plan.setUp (plan : Plan) : Play Unit := do
  let input ← addInput plan.input
  let output ← addOutput
  let watcher ← addWatcher
  let _ ← Compiler.create (S := setting)
    { options := plan.options, parent := plan.parent, input, output, watcher }
    fun compiler => applyPlugins compiler plan.plugins
  match plan.firstRun with
  | some label => Compiler.run (S := setting) leader (Callback.first label)
  | none => pure ()
  if plan.journals then registerJournal journalHooks
  applyPlugins.registerAll leader plan.taps

/-- What is reported of a step. -/
structure Report where
  notes : List Note
  state : RunState
  shown : Shown

/-- A bound on the steps of a program between two steps of a rehearsal. -/
def patience : Nat := 1000000000

/-- Take the notes and look at the state. -/
def report (shown : Shown) (machine : Machine environment) : Report × Machine environment :=
  (⟨machine.state.notes, (machine.world.compiler leader).state, shown⟩,
    { machine with state := { machine.state with notes := [] } })

/-- Take the steps one after the other. -/
def takeSteps : List Step → Machine environment → Option (List Report)
  | [], _ => some []
  | step :: rest, machine =>
    let settled := match step with
      | .settle => machine.settle patience
      | _ => machine
    let (outcome, machine) := settled.run patience step.play
    let shown? := match outcome with
      | .value shown => some shown
      | .waits _ => some step.abandoned
      | .panicked => none
    match shown? with
    | none => none
    | some shown =>
      let (_, machine) := machine.run patience endAwaiting
      let (report, machine) := report shown machine
      (takeSteps rest machine).map fun reports => report :: reports

/-- Carry out a plan. -/
def rehearse (plan : Plan) : Option (List Report) :=
  let start : Machine environment :=
    { state := { files := plan.files, builders := plan.builders } }
  match start.run patience plan.setUp with
  | (.value (), machine) => takeSteps plan.steps machine
  | _ => none

end Bundler.Rehearsal
