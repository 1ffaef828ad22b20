import Bundler.Compiler.Program

/-!
# The world of compilers

The state that a compiler, its children and its sessions share, and what every
operation does to it. An operation that has to wait has no result yet; it is
tried again when the world has changed. `World.perform` is the meaning of an `Op`.
-/

namespace Bundler

instance {S : Setting} : Inhabited (CompilerRecord S) :=
  ⟨{ options := Options.forContext (.of "") }⟩

instance {S : Setting} : Inhabited (Session S) := ⟨{ compiler := 0 }⟩

/-- Everything that compilers share. -/
structure World (S : Setting) where
  /-- Compilers by their identity. -/
  compilers : List (CompilerRecord S) := []
  sessions : List (Session S) := []
  cache : Option ArtifactCache := none
  /-- The identity of the latest compilation. -/
  lastCompilation : Nat := 0
  nextTask : TaskId := 0
  /-- Jobs that were spawned and have not begun. -/
  spawned : List (TaskId × Job S) := []
  /-- Results that tasks have left. -/
  results : Table TaskId RunResult := Table.empty
  /-- The drivers of sessions. -/
  drivers : Table TaskId SessionId := Table.empty

namespace World

variable {S : Setting}

def compiler (world : World S) (id : CompilerId) : CompilerRecord S :=
  (world.compilers[id]?).getD default

def changeCompiler (world : World S) (id : CompilerId)
    (change : CompilerRecord S → CompilerRecord S) : World S :=
  { world with compilers := world.compilers.modify id change }

def session (world : World S) (id : SessionId) : Session S := (world.sessions[id]?).getD default

def changeSession (world : World S) (id : SessionId) (change : Session S → Session S) : World S :=
  { world with sessions := world.sessions.modify id change }

/-- A fresh compilation of a compiler. -/
def newCompilation (world : World S) (id : CompilerId) : Compilation × World S :=
  let options := (world.compiler id).options
  let number := world.lastCompilation + 1
  ({ id := number, name := options.name, bail := options.bail },
    { world with lastCompilation := number })

/-- Set a job going. -/
def spawn (world : World S) (job : Job S) : TaskId × World S :=
  let task := world.nextTask
  (task, { world with
    nextTask := task + 1
    spawned := world.spawned ++ [(task, job)]
    drivers :=
      match job with
      | .drive _ driver => world.drivers.insert task driver.session
      | _ => world.drivers })

/-- Queue a signal, if the driver takes signals. -/
def send (world : World S) (id : SessionId) (signal : Signal S) : Bool × World S :=
  let session := world.session id
  if session.phase = .closed then (false, world)
  else
    let phase :=
      match signal with
      | .close _ => .closing
      | .invalidate _ => session.phase
    if session.answers then
      (true, world.changeSession id fun session =>
        { session with phase, signals := session.signals ++ [signal] })
    else (false, world.changeSession id fun session => { session with phase })

/-- Queue a change set, if the driver takes change sets. -/
def deliver (world : World S) (id : SessionId) (changes : ChangeSet) : Bool × World S :=
  if (world.session id).receives then
    (true, world.changeSession id fun session =>
      { session with arrivals := session.arrivals ++ [changes] })
  else (false, world)

/-- What wakes a driver. Where there is both a signal and a change set, the driver
takes either. -/
def wake? (world : World S) (preferChanges : Bool) (id : SessionId) :
    Option (Wake S × World S) :=
  let session := world.session id
  match session.signals, session.arrivals with
  | [], [] => if session.held then none else some (.gone, world)
  | signal :: rest, [] =>
    some (.signal signal, world.changeSession id fun session => { session with signals := rest })
  | [], changes :: rest =>
    if session.held || preferChanges then
      some (.changes changes,
        world.changeSession id fun session => { session with arrivals := rest })
    else some (.gone, world)
  | signal :: signals, changes :: arrivals =>
    if preferChanges then
      some (.changes changes,
        world.changeSession id fun session => { session with arrivals })
    else
      some (.signal signal, world.changeSession id fun session => { session with signals })

/-- Begin a run of a compiler, if no other task is in one. -/
def acquire? (world : World S) (task : TaskId) (id : CompilerId) : Option (World S) :=
  match (world.compiler id).owner with
  | none => some (world.changeCompiler id fun record => { record with owner := some task })
  | some _ => none

def takeSignals (world : World S) (id : SessionId) : (List (Signal S) × Bool) × World S :=
  let session := world.session id
  ((session.signals, !session.held),
    world.changeSession id fun session => { session with signals := [] })

def takeChanges (world : World S) (id : SessionId) : Option ChangeSet × World S :=
  match (world.session id).arrivals with
  | [] => (none, world)
  | changes :: rest =>
    (some changes, world.changeSession id fun session => { session with arrivals := rest })

/-- Close a session and take the signals that are left. -/
def shut (world : World S) (id : SessionId) : List (Signal S) × World S :=
  ((world.session id).signals,
    world.changeSession id fun session =>
      { session with phase := .closed, answers := false, signals := [] })

/-- The driver of a session takes nothing any more. -/
def abandon (world : World S) (id : SessionId) : World S :=
  world.changeSession id fun session =>
    { session with answers := false, receives := false, signals := [], arrivals := [] }

/-- A task ends in a panic: its run is over, nobody takes what it would have
taken, and who waits for its result learns of the panic. -/
def crash (world : World S) (task : TaskId) : World S :=
  let freed := world.compilers.map fun record =>
    if record.owner = some task then { record with owner := none } else record
  let world :=
    { world with
      compilers := freed
      results := world.results.insert task (.error .panicked) }
  match world.drivers.get? task with
  | some session => world.abandon session
  | none => world

/-- The meaning of an operation that a task makes: its answer and the world after
it, or nothing if the task has to wait. -/
def perform (world : World S) (task : TaskId) (preferChanges : Bool) :
    (op : Op S) → Option (op.Reply × World S)
  | .look id => some (world.compiler id, world)
  | .shift id transition =>
    some (((world.compilers[id]?).bind fun record => record.state.next? transition).isSome,
      world.changeCompiler id fun record =>
        { record with state := record.state.after transition })
  | .acquire id => (world.acquire? task id).map fun world => ((), world)
  | .release id =>
    some ((), world.changeCompiler id fun record => { record with owner := none })
  | .setChanges id changes =>
    some ((), world.changeCompiler id fun record => { record with changes })
  | .setParent id parent =>
    some ((), world.changeCompiler id fun record => { record with parent })
  | .setInput id input => some ((), world.changeCompiler id fun record => { record with input })
  | .setOutput id output =>
    some ((), world.changeCompiler id fun record => { record with output })
  | .setWatcher id watcher =>
    some ((), world.changeCompiler id fun record => { record with watcher })
  | .register id hook name observer =>
    some ((), world.changeCompiler id fun record =>
      { record with registry := record.registry.add hook name observer })
  | .createCompiler record =>
    some (world.compilers.length, { world with compilers := world.compilers ++ [record] })
  | .newCompilation id => some (world.newCompilation id)
  | .lookCache => some (world.cache, world)
  | .setCache cache => some ((), { world with cache := some cache })
  | .retain modules =>
    some ((), { world with cache := world.cache.map fun cache => (cache.retain modules).2 })
  | .spawn job => some (world.spawn job)
  | .report result => some ((), { world with results := world.results.insert task result })
  | .join other => (world.results.get? other).map fun result => (result, world)
  | .openSession compiler =>
    some (world.sessions.length, { world with sessions := world.sessions ++ [{ compiler }] })
  | .lookSession id => some (world.session id, world)
  | .send id signal => some (world.send id signal)
  | .dropHandle id =>
    some ((), world.changeSession id fun session => { session with held := false })
  | .deliver id changes => some (world.deliver id changes)
  | .await id => world.wake? preferChanges id
  | .takeSignals id => some (world.takeSignals id)
  | .takeChanges id => some (world.takeChanges id)
  | .setLastChange id changes =>
    some ((), world.changeSession id fun session => { session with lastChange := some changes })
  | .shut id => some (world.shut id)
  | .leave id => some ((), world.abandon id)

end World

end Bundler
