import Bundler.Rehearsal.Stage

/-!
# What scripted code does

The programs behind the scripts of a rehearsal. The first compiler is the one
that deeds act on. `environment` is the environment of a rehearsal: it gives a
program to every call of outside code.
-/

namespace Bundler.Rehearsal

open Play

/-- The compiler that is rehearsed. -/
def leader : CompilerId := 0

/-- Count a call under a key; gives its number, counted from one. -/
def countCall (key : Nat) : Play Nat := do
  let count := ((← see).counts.get? key).getD 0 + 1
  change fun stage => { stage with counts := stage.counts.insert key count }
  return count

/-- A key that was not used before. -/
def freshKey : Play Nat := do
  let key := (← see).nextKey
  change fun stage => { stage with nextKey := key + 1 }
  return key

/-- A script acts on its n-th call. -/
def actsOn (only : Option (List Nat)) (count : Nat) : Bool :=
  match only with
  | some counts => counts.contains count
  | none => true

/-- Register a scripted observer. -/
def register (compiler : CompilerId) (script : TapScript Deed) : Play Unit := do
  let key ← freshKey
  Prog.perform
    (.register compiler script.hook script.name (.outside (Observer.scripted key script)))

/-- Put an input, an output or a source of notices on the stage. -/
def addInput (kind : InputKind) : Play StorageId := do
  let id := (← see).inputs.length
  change fun stage => { stage with inputs := stage.inputs ++ [Stage.newInput kind] }
  return id

def addOutput : Play StorageId := do
  let id := (← see).outputs.length
  change fun stage => { stage with outputs := stage.outputs ++ [{}] }
  return id

def addWatcher : Play StorageId := do
  let id := (← see).watchers.length
  change fun stage => { stage with watchers := stage.watchers ++ [{}] }
  return id

def purgeInput (id : StorageId) : Play Unit :=
  change fun stage => stage.changeInput id InputStorage.purge

/-- What can be asked about the compiler and its session. -/
def inspect : Play Facts := do
  let record ← Prog.look (S := setting) leader
  let stage ← see
  let session ←
    match stage.session with
    | some id => some <$> (Prog.perform (.lookSession id) : Play _)
    | none => pure none
  let watcher := stage.watcher record.watcher
  return {
    state := record.state
    isChild := record.parent.isTruthy
    name := record.options.name
    changes := record.changes
    phase := session.map Session.phase
    lastChange := session.bind Session.lastChange
    subscriptions := watcher.requests.length
    closed := watcher.closed
    reads := stage.counted InputStorage.reads
    purges := stage.counted InputStorage.purges }

/-- Give up the handle of the current session. A step that waits for the session
still holds it. -/
def dropHandle : Play Unit := do
  let stage ← see
  match stage.session with
  | some id => if stage.awaited ≠ some id then Prog.perform (.dropHandle id)
  | none => pure ()
  change fun stage => { stage with session := none }

/-- The step no longer waits for a session. -/
def endAwaiting : Play Unit := do
  let stage ← see
  match stage.awaited with
  | some id => if stage.session ≠ some id then Prog.perform (.dropHandle id)
  | none => pure ()
  change fun stage => { stage with awaited := none }

/-- Do something with the current session, if there is one. -/
def withSession (act : SessionId → Play Unit) : Play Answer := do
  match (← see).session with
  | none => return .text "no session"
  | some id =>
    act id
    return .nothing

def startWatch (options : Option WatchOptions) (handler : List (List Deed)) : Play Answer := do
  let record ← Prog.look (S := setting) leader
  let key ← freshKey
  match ← Compiler.watch (S := setting) leader (options.getD record.options.watch)
      ⟨key, handler⟩ with
  | none => return .refused .concurrent
  | some session =>
    dropHandle
    change fun stage => { stage with session := some session }
    return .nothing

/-- Deliver a change set to the latest subscriber. -/
def push (changes : ChangeSet) : Play Bool := do
  let record ← Prog.look (S := setting) leader
  match ((← see).watcher record.watcher).subscriber with
  | none => return false
  | some session => Prog.perform (.deliver session changes)

/-- Do one deed. -/
def perform : Deed → Play Answer
  | .run label deeds => do
    Compiler.run (S := setting) leader (Callback.labelled label deeds)
    return .nothing
  | .watch options handler => startWatch options handler
  | .invalidate label deeds =>
    withSession fun session =>
      Compiler.invalidate (S := setting) session (Callback.labelled label deeds)
  | .close label deeds =>
    withSession fun session => Compiler.close (S := setting) session (Callback.labelled label deeds)
  | .dropHandle => do
    dropHandle
    return .nothing
  | .push changes => return .flag (← push changes)
  | .writeInput path content => do
    change fun stage => { stage with files := stage.files.addFile path content }
    return .nothing
  | .removeInput path => do
    let found := (← see).files.contains path
    change fun stage => { stage with files := (stage.files.remove path).2 }
    return .flag found
  | .refuseWrites value => do
    let record ← Prog.look (S := setting) leader
    change fun stage =>
      stage.changeOutput record.output fun output => { output with refuses := value }
    return .nothing
  | .refuseWatch => do
    let record ← Prog.look (S := setting) leader
    change fun stage =>
      stage.changeWatcher record.watcher fun watcher => { watcher with refusesNext := true }
    return .nothing
  | .purge => do
    purgeInput (← Prog.look (S := setting) leader).input
    return .nothing
  | .setParent parent => do
    Prog.perform (S := setting) (.setParent leader parent)
    return .nothing
  | .release gate count => do
    change fun stage => stage.release gate count
    return .nothing
  | .register script => do
    register leader script
    return .nothing
  | .newOutput => do
    Prog.perform (S := setting) (.setOutput leader (← addOutput))
    return .nothing
  | .newWatcher => do
    Prog.perform (S := setting) (.setWatcher leader (← addWatcher))
    return .nothing
  | .writeOutput path content => do
    let record ← Prog.look (S := setting) leader
    change fun stage => stage.changeOutput record.output fun output =>
      { output with store := output.store.addFile path content }
    return .nothing
  | .setInput kind => do
    Prog.perform (S := setting) (.setInput leader (← addInput kind))
    return .nothing
  | .clearCache => do
    match ← (Prog.perform .lookCache : Play (Option ArtifactCache)) with
    | some cache => Prog.perform (S := setting) (.setCache cache.clear)
    | none => pure ()
    return .nothing
  | .inspect => return .facts (← inspect)

/-- How a deed is named in notes. -/
def Deed.name : Deed → String
  | .run .. => "run"
  | .watch .. => "watch"
  | .invalidate .. => "invalidate"
  | .close .. => "close"
  | .dropHandle => "drop_watching"
  | .push _ => "push"
  | .writeInput .. => "write"
  | .removeInput _ => "remove"
  | .refuseWrites _ => "fail_writes"
  | .refuseWatch => "fail_watch"
  | .purge => "purge"
  | .setParent _ => "set_parent"
  | .release .. => "release"
  | .register _ => "tap"
  | .newOutput => "new_output"
  | .newWatcher => "new_watcher"
  | .writeOutput .. => "out_file"
  | .setInput _ => "set_input"
  | .clearCache => "clear_cache"
  | .inspect => "query"

/-- Do deeds one after the other, and note their answers. -/
def performAll : List Deed → Play Unit
  | [] => pure ()
  | deed :: rest => do
    match ← perform deed with
    | .nothing => pure ()
    | answer => note (.did deed.name answer)
    performAll rest

/-! ## Observers -/

/-- The hooks whose observers may wait. -/
def mayWait : HookName → Bool
  | .beforeRun | .run | .watchRun | .afterEmit | .done => true
  | _ => false

/-- Wait at a gate, if there is one. -/
def passGate (gate : Option String) (passed : String → Note) : Play Unit :=
  match gate with
  | some gate => do
    await fun stage => stage.pass? gate
    note (passed gate)
  | none => pure ()

/-- Change a compilation, and note the answers. -/
def editAll : List (String × Compilation.Edit) → Compilation → Play Compilation
  | [], compilation => pure compilation
  | (name, edit) :: rest, compilation => do
    let (result, compilation) := compilation.edit edit
    match result with
    | .none | .asset none => pure ()
    | result => note (.edited name result)
    editAll rest compilation

/-- Note a call of a scripted observer, and say whether it acts. -/
def beginTap (key : Nat) (script : TapScript Deed) (detail : Play Detail) : Play Bool := do
  let count ← countCall key
  if !script.quiet then note (.told script.hook script.name (← detail))
  return actsOn script.only count

/-- What an observer does after it has changed what it may change. -/
def endTap (script : TapScript Deed) : Play (Except String Unit) := do
  performAll script.deeds
  if script.panics then Prog.panic
  else
    match script.failure with
    | some reason => return .error reason
    | none => return .ok ()

/-- What is noted of an occasion. -/
def detailOf (compiler : CompilerId) : Occasion → Play Detail
  | .beforeRun | .run | .watchRun => do
    let record ← Prog.look (S := setting) compiler
    return .compiler record.state record.options.name record.changes
  | .afterCompile compilation | .afterEmit compilation | .done compilation =>
    return .compilation (Brief.of compilation)
  | .assetEmitted asset => return .asset asset
  | .failed error => return .error error
  | .afterDone compilation => return .finished (compilation.map Brief.of)
  | .invalid file => return .file file
  | .watchClose => return .nothing

def observe (compiler : CompilerId) (occasion : Occasion) :
    Observer → Play (Except String Unit)
  | .journal hook => do
    change fun stage => stage.enter hook.text
    return .ok ()
  | .scripted key script => do
    if ← beginTap key script (detailOf compiler occasion) then
      if mayWait script.hook then
        passGate script.gate fun gate => .passedTap gate script.name
      endTap script
    else return .ok ()

def adjust (compilation : Compilation) : Observer → Play (Except String Unit × Compilation)
  | .journal hook => do
    change fun stage => stage.enter hook.text
    return (.ok (), compilation)
  | .scripted key script => do
    if ← beginTap key script (return .compilation (Brief.of compilation)) then
      let compilation ← editAll script.edits compilation
      return (← endTap script, compilation)
    else return (.ok (), compilation)

def decide (compilation : Compilation) : Observer → Play (Except String (Option Bool))
  | .journal hook => do
    change fun stage => stage.enter hook.text
    return .ok none
  | .scripted key script => do
    if ← beginTap key script (return .compilation (Brief.of compilation)) then
      return (← endTap script).map fun _ => script.decision
    else return .ok none

/-! ## Callbacks and handlers -/

/-- Keep a finished compilation. -/
def keep : RunResult → Play Unit
  | .ok compilation => change fun stage =>
    { stage with lastFinished := some compilation, lastCompiled := some compilation }
  | .error _ => pure ()

def fill (key : Nat) (value : SlotValue) : Play Unit :=
  change fun stage => { stage with slots := stage.slots.insert key value }

/-- A run's callback. The journal knows of the callbacks of deeds only. -/
def answer (result : RunResult) : Callback → Play Unit
  | .labelled label deeds => do
    keep result
    change fun stage => stage.enter "callback"
    note (.callback label (some result))
    performAll deeds
  | .first label => do
    keep result
    note (.callback label (some result))
  | .slot key => do
    keep result
    fill key (.result result)

/-- A session's callback. -/
def notify : Callback → Play Unit
  | .labelled label deeds => do
    note (.callback label none)
    performAll deeds
  | .first label => note (.callback label none)
  | .slot key => fill key .called

def handle (handler : Handler) (result : RunResult) : Play Unit := do
  keep result
  let count ← countCall handler.key
  change fun stage => stage.enter "handler"
  note (.handler count result)
  performAll ((handler.deeds[count - 1]?).getD [])

/-! ## Builders -/

/-- Register the observers of plugins. -/
def applyPlugins (compiler : CompilerId) : List PluginScript → Play Unit
  | [] => pure ()
  | plugin :: rest => do
    let record ← Prog.look (S := setting) compiler
    note (.plugin plugin.name record.options.name)
    registerAll plugin.taps
    applyPlugins compiler rest
where
  registerAll : List (TapScript Deed) → Play Unit
    | [] => pure ()
    | tap :: rest => do
      register compiler tap
      registerAll rest

/-- Compile the children of a build one after the other. -/
def buildChildren (compiler : CompilerId) :
    List ChildScript → Compilation → Play (Except RunError Unit × Compilation)
  | [], compilation => pure (.ok (), compilation)
  | script :: rest, compilation => do
    let child ← Compiler.createChild (S := setting) compiler compilation script.name script.entry
      fun child => applyPlugins child script.plugins
    let record ← Prog.look (S := setting) child
    let name := record.options.name.getD ""
    note (.child name record.parent.isTruthy record.parent)
    applyPlugins.registerAll child script.taps
    let result ← Compiler.runAsChild (S := setting) child
    let state := (← Prog.look (S := setting) child).state
    match result with
    | .ok finished =>
      note (.childDone name state none)
      buildChildren compiler rest
        (if script.detached then compilation else compilation.addChild finished)
    | .error error =>
      note (.childDone name state (some error))
      if script.tolerant then
        note (.tolerated error)
        buildChildren compiler rest compilation
      else return (.error error, compilation)

/-- Count a build of the compiler of a name. -/
def countBuild (name : String) : Play Nat := do
  let count := ((← see).buildCounts.get? name).getD 0 + 1
  change fun stage => { stage with buildCounts := stage.buildCounts.insert name count }
  return count

/-- Build as a script says. -/
def buildScripted (compiler : CompilerId) (input : StorageId) (name : String)
    (script : BuildScript) (compilation : Compilation) :
    Play (Except RunError Unit × Compilation) := do
  passGate script.gate fun gate => .passedBuild gate name
  if script.panics then Prog.panic
  else
    match script.failure with
    | some fault => return (.error fault.error, compilation)
    | none =>
      let (result, compilation) ← Compiler.bundle (S := setting) compiler input compilation
      match result with
      | .error error => return (.error error, compilation)
      | .ok () =>
        let isChild := (← Prog.look (S := setting) compiler).parent.isTruthy
        if script.topOnly && isChild then return (.ok (), compilation)
        else buildChildren compiler script.children compilation

def build (compiler : CompilerId) (input : StorageId) (compilation : Compilation) :
    Play (Except RunError Unit × Compilation) := do
  match (← see).builders with
  | none => Compiler.bundle (S := setting) compiler input compilation
  | some builders =>
    let record ← Prog.look (S := setting) compiler
    let name := record.options.name.getD ""
    let count ← countBuild name
    let cache ← (Prog.perform .lookCache : Play (Option ArtifactCache))
    note (.build name count record.changes cache.isSome)
    match builders.get? name with
    | none => Compiler.bundle (S := setting) compiler input compilation
    | some script =>
      if actsOn script.only count then buildScripted compiler input name script compilation
      else Compiler.bundle (S := setting) compiler input compilation

/-! ## Storages -/

def readInput (id : StorageId) (path : Path) : Play (Except FileFault ByteArray) := do
  let stage ← see
  let (content, input) := (InputStorage.readFrom stage.files.view path).run (stage.input id).2
  change fun stage => stage.changeInput id fun _ => input
  return content

def isInputFile (id : StorageId) (path : Path) : Play Bool := do
  let stage ← see
  let (found, input) := (InputStorage.isFileIn stage.files.view path).run (stage.input id).2
  change fun stage => stage.changeInput id fun _ => input
  return found

def actOnOutput (id : StorageId)
    (act : OutputStorage → Except FileFault Unit × OutputStorage) :
    Play (Except FileFault Unit) := do
  let (result, output) := act ((← see).output id)
  change fun stage => stage.changeOutput id fun _ => output
  return result

def subscribe (id : StorageId) (session : SessionId) (request : WatchRequest) :
    Play (Option Subscription) := do
  let stage ← see
  if (stage.watcher id).refusesNext then
    change fun stage => stage.changeWatcher id fun watcher => { watcher with refusesNext := false }
    return none
  else
    change fun stage =>
      { stage.changeWatcher id fun watcher =>
          { watcher with
            requests := watcher.requests ++ [request]
            subscriber := some session } with
        subscriptions := stage.subscriptions ++ [id] }
    return some stage.subscriptions.length

def unsubscribe (subscription : Subscription) : Play Unit :=
  change fun stage =>
    match stage.subscriptions[subscription]? with
    | some id =>
      stage.changeWatcher id fun watcher => { watcher with closed := watcher.closed + 1 }
    | none => stage

/-- The program behind each call of outside code. -/
def respond : (call : Call setting) → Play call.Reply
  | .observe compiler observer occasion => observe compiler occasion observer
  | .adjust _ observer _ compilation => adjust compilation observer
  | .decide _ observer compilation => decide compilation observer
  | .build compiler input compilation => build compiler input compilation
  | .answer callback result => answer result callback
  | .notify callback => notify callback
  | .handle handler result => handle handler result
  | .isFile input path => isInputFile input path
  | .read input path => readInput input path
  | .purge input => purgeInput input
  | .mkdir output path => actOnOutput output fun storage => storage.mkdir path
  | .write output path content => actOnOutput output fun storage => storage.write path content
  | .subscribe watcher session request => subscribe watcher session request
  | .unsubscribe subscription => unsubscribe subscription

/-- The environment of a rehearsal. -/
def environment : Environment setting where
  State := Stage
  answer := respond
  serve
    | .see, stage => some (stage, stage)
    | .change step, stage => (step stage).map fun stage => ((), stage)

end Bundler.Rehearsal
