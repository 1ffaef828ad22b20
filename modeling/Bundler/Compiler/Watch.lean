import Bundler.Compiler.Run

/-!
# Watch sessions

A session runs once, and once more whenever files changed or it is told to. Its
driver takes signals and change sets from two queues; what arrives during a run
is kept for the next one. After a successful run the driver subscribes to the
files of the compilation. A close ends the session after the run that is under
way: the subscription is given up, `watch_close` fires, and the callbacks that
still wait are called.
-/

namespace Bundler.Compiler

variable {S : Setting}

/-- Start a session, unless the compiler is taken. -/
def watch (compiler : CompilerId) (options : WatchOptions) (handler : S.Handler) :
    Prog S (Option SessionId) := do
  if ← Prog.perform (.shift compiler .beginWatch) then
    let session ← Prog.perform (.openSession compiler)
    let _ ← Prog.perform (.spawn (.drive .waiting { session, compiler, options, handler }))
    return some session
  else
    return none

/-- Ask for another run. The callback is called after that run's handler; if the
session is closed, at once. -/
def invalidate (session : SessionId) (callback : S.Callback) : Prog S Unit := do
  let seen ← Prog.perform (.lookSession session)
  if seen.phase = .active then tell seen.compiler (.invalid none)
  if !(← Prog.perform (.send session (.invalidate callback))) then
    Prog.invoke (.notify callback)

/-- Ask for the end of the session. The callback is called when it is closed. -/
def close (session : SessionId) (callback : S.Callback) : Prog S Unit := do
  if !(← Prog.perform (.send session (.close callback))) then
    Prog.invoke (.notify callback)

/-! ## The driver -/

/-- Note a signal. -/
def onSignal (driver : Driver S) : Signal S → Driver S
  | .invalidate callback =>
    { driver with
      pendingCallbacks := driver.pendingCallbacks ++ [callback]
      runRequested := true }
  | .close callback =>
    { driver with closeCallbacks := driver.closeCallbacks ++ [callback], closing := true }

/-- Tell of each path of a change set. -/
def tellInvalid (compiler : CompilerId) : List Path → Prog S Unit
  | [] => pure ()
  | path :: rest => do
    tell compiler (.invalid (some path))
    tellInvalid compiler rest

/-- Note a change set. An empty one, or one that comes too late, is dropped. -/
def onChanges (driver : Driver S) (changes : ChangeSet) : Prog S (Driver S) := do
  if driver.closing || changes.isEmpty then return driver
  tellInvalid driver.compiler changes.paths
  return { driver with
    pendingChanges := driver.pendingChanges.merge changes
    runRequested := true }

/-- Call callbacks one after the other. -/
def notifyAll : List S.Callback → Prog S Unit
  | [] => pure ()
  | callback :: rest => do
    Prog.invoke (.notify callback)
    notifyAll rest

/-- The close sequence. -/
def closeNow (driver : Driver S) : Prog S (Driver S) := do
  match driver.subscription with
  | some subscription => Prog.invoke (.unsubscribe subscription)
  | none => pure ()
  let left ← Prog.perform (.shut driver.session)
  let driver := left.foldl onSignal driver
  let _ ← Prog.perform (.shift driver.compiler .endWatch)
  tell driver.compiler .watchClose
  notifyAll driver.closeCallbacks
  notifyAll driver.pendingCallbacks
  return { driver with subscription := none, closeCallbacks := [], pendingCallbacks := [] }

/-- Subscribe to the files of a compilation. The old subscription is given up
when there is a new one. -/
def resubscribe (driver : Driver S) (compilation : Compilation) : Prog S (Driver S) := do
  let record ← Prog.look driver.compiler
  let request : WatchRequest :=
    ⟨compilation.files, compilation.missing, record.options.context, driver.options⟩
  match ← Prog.invoke (.subscribe record.watcher driver.session request) with
  | none => return driver
  | some subscription =>
    match driver.subscription with
    | some old => Prog.invoke (.unsubscribe old)
    | none => pure ()
    return { driver with subscription := some subscription }

/-- One watch run up to the callbacks that waited for it. Gives the finished
compilation, if the run did not fail. -/
def watchRun (driver : Driver S) : Prog S (Option Compilation × Driver S) := do
  let compiler := driver.compiler
  Prog.perform (.acquire compiler)
  let changes := driver.pendingChanges
  if !changes.isEmpty then
    Prog.invoke (.purge (← Prog.look compiler).input)
    Prog.perform (.setLastChange driver.session changes)
  Prog.perform (.setChanges compiler changes)
  let callbacks := driver.pendingCallbacks
  let driver := { driver with
    pendingChanges := ChangeSet.empty
    pendingCallbacks := []
    runRequested := false }
  let _ ← Prog.perform (.shift compiler .beginWatchRun)
  let task ← Prog.perform (.spawn (.watchPhases compiler))
  let result ← Prog.perform (.join task)
  let _ ← Prog.perform (.shift compiler .endWatchRun)
  tellFailure compiler result
  Prog.invoke (.handle driver.handler result)
  notifyAll callbacks
  return (result.toOption, driver)

/-- What a job goes on as, if it is not over. -/
abbrev Next (S : Setting) := Option (Job S)

/-- Leave the session for good. -/
def retire (driver : Driver S) : Prog S (Next S) := do
  Prog.perform (.leave driver.session)
  return none

/-- Wait for something to happen, unless there is something to do. -/
def awaitEvent (driver : Driver S) : Prog S (Driver S) := do
  if driver.runRequested || driver.closing then return driver
  match ← Prog.perform (.await driver.session) with
  | .signal signal => return onSignal driver signal
  | .changes changes => onChanges driver changes
  | .gone => return { driver with closing := true }

/-- Between two runs, when everything queued was taken. -/
def decideNext (driver : Driver S) : Prog S (Next S) := do
  if driver.closing then
    retire (← closeNow driver)
  else if driver.runRequested then
    let (finished, driver) ← watchRun driver
    let (left, gone) ← Prog.perform (.takeSignals driver.session)
    let driver := left.foldl onSignal driver
    return some (.drive (.drainingAfter finished)
      { driver with closing := driver.closing || gone })
  else
    return some (.drive .waiting driver)

/-- After a run, when everything queued was taken: a close that came so far is
carried out before the last observers are called. -/
def endRun (finished : Option Compilation) (driver : Driver S) : Prog S (Next S) := do
  let closing := driver.closing
  let driver ←
    if closing then closeNow driver
    else
      match finished with
      | some compilation => resubscribe driver compilation
      | none => pure driver
  tell driver.compiler (.afterDone finished)
  Prog.perform (.release driver.compiler)
  if closing then retire driver else return some (.drive .waiting driver)

/-- One step of a driver. Change sets are taken one at a time, because observers
are told of each and may cause more. -/
def drive (stage : DriverStage) (driver : Driver S) : Prog S (Next S) :=
  match stage with
  | .waiting => do
    let driver ← awaitEvent driver
    let (left, gone) ← Prog.perform (.takeSignals driver.session)
    let driver := left.foldl onSignal driver
    return some (.drive .draining { driver with closing := driver.closing || gone })
  | .draining => do
    match ← Prog.perform (.takeChanges driver.session) with
    | some changes => return some (.drive .draining (← onChanges driver changes))
    | none => decideNext driver
  | .drainingAfter finished => do
    match ← Prog.perform (.takeChanges driver.session) with
    | some changes =>
      return some (.drive (.drainingAfter finished) (← onChanges driver changes))
    | none => endRun finished driver

/-- Leave the result of phases for the task that waits for it. -/
def reporting (phases : Phase S Compilation) : Prog S (Next S) := do
  Prog.perform (.report (← phases.run))
  return none

/-- The program of a job. -/
def program : Job S → Prog S (Next S)
  | .run compiler callback => do
    runToEnd compiler callback
    return none
  | .phases compiler => reporting (phases compiler)
  | .watchPhases compiler => reporting (watchPhases compiler)
  | .drive stage driver => drive stage driver

end Bundler.Compiler
