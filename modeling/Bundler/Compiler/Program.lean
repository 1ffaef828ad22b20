import Bundler.ArtifactCache
import Bundler.ChangeSet
import Bundler.Compiler.Hooks
import Bundler.Compiler.ParentMarker
import Bundler.Compiler.RunState
import Bundler.Options.Basic

/-!
# Programs of compilers

What a compiler does is a `Prog`: a tree of requests, each followed by a program
for every answer. A request is one of three kinds. An `Op` is a step on the state
that compilers share, made at once and by one task at a time. A `Call` goes to
code outside: observers, builders, storages, callbacks. Code outside is made of
programs as well, which may use further requests of its own. A program may also
panic, which ends its task.

Work that goes on by itself is a `Job`. The program of a job ends, or goes on as
another job, so that endless work is a sequence of finite programs.
-/

namespace Bundler

/-- What the code outside is made of. -/
structure Setting where
  /-- Code that is registered on hooks. -/
  Observer : Type
  /-- Code that is called once, when a run or a request is over. -/
  Callback : Type
  /-- Code that is called after every run of a session. -/
  Handler : Type
  /-- Further requests. -/
  Request : Type
  Answer : Request → Type

abbrev CompilerId := Nat
abbrev SessionId := Nat
abbrev TaskId := Nat

/-- The identity of a storage or of a source of change notices. -/
abbrev StorageId := Nat

/-- The identity of a subscription to change notices. -/
abbrev Subscription := Nat

/-- What a run ends with. -/
abbrev RunResult := Except RunError Compilation

/-- An observer of a compiler. -/
inductive Watcher (S : Setting) where
  | outside (observer : S.Observer)
  /-- Decides against output for every compilation with errors. -/
  | noEmitOnErrors

/-- A compiler as it is at one moment. -/
structure CompilerRecord (S : Setting) where
  options : Options
  state : RunState := .idle
  /-- The task that a run of this compiler belongs to. -/
  owner : Option TaskId := none
  registry : Registry (Watcher S) := []
  parent : ParentMarker := .null
  /-- Where input is read. -/
  input : StorageId := 0
  /-- Where output is written. -/
  output : StorageId := 0
  /-- Where change notices come from. -/
  watcher : StorageId := 0
  /-- The changes behind the current watch run. -/
  changes : ChangeSet := {}

/-- A session goes from active to closing and closed, never back. -/
inductive SessionPhase where
  | active
  | closing
  | closed
  deriving DecidableEq, Repr

def SessionPhase.name : SessionPhase → String
  | active => "Active"
  | closing => "Closing"
  | closed => "Closed"

/-- What a session is asked to do; the callback is called when it is done. -/
inductive Signal (S : Setting) where
  | invalidate (callback : S.Callback)
  | close (callback : S.Callback)

/-- A watch session as its handle and its driver share it. -/
structure Session (S : Setting) where
  compiler : CompilerId
  phase : SessionPhase := .active
  lastChange : Option ChangeSet := none
  /-- Signals that the driver has not taken yet. -/
  signals : List (Signal S) := []
  /-- Change sets that the driver has not taken yet. -/
  arrivals : List ChangeSet := []
  /-- The driver takes signals. -/
  answers : Bool := true
  /-- The driver takes change sets. -/
  receives : Bool := true
  /-- The handle is still held. -/
  held : Bool := true

/-- What woke a driver. -/
inductive Wake (S : Setting) where
  | signal (signal : Signal S)
  | changes (changes : ChangeSet)
  /-- The handle was dropped. -/
  | gone

/-- The mutable state of a driver between two steps. -/
structure Driver (S : Setting) where
  session : SessionId
  compiler : CompilerId
  options : WatchOptions
  handler : S.Handler
  subscription : Option Subscription := none
  pendingChanges : ChangeSet := {}
  /-- Callbacks that wait for the next run. -/
  pendingCallbacks : List S.Callback := []
  closeCallbacks : List S.Callback := []
  runRequested : Bool := true
  closing : Bool := false

/-- Where a driver is. -/
inductive DriverStage where
  /-- Between two runs. -/
  | waiting
  /-- Taking what was queued, before it decides what to do. -/
  | draining
  /-- Taking what was queued after a run that ended with this compilation. -/
  | drainingAfter (finished : Option Compilation)

/-- Work that goes on by itself. -/
inductive Job (S : Setting) where
  /-- A single run with its callback. -/
  | run (compiler : CompilerId) (callback : S.Callback)
  /-- The phases of a single run. -/
  | phases (compiler : CompilerId)
  /-- The phases of a watch run. -/
  | watchPhases (compiler : CompilerId)
  | drive (stage : DriverStage) (driver : Driver S)

/-- What a driver asks to be told of. -/
structure WatchRequest where
  files : PathSet
  missing : PathSet
  context : Path
  options : WatchOptions
  deriving DecidableEq

/-- A step on the state that compilers share. -/
inductive Op (S : Setting) where
  | look (compiler : CompilerId)
  /-- Change the owner; refused if it does not fit. -/
  | shift (compiler : CompilerId) (transition : Transition)
  /-- Wait until no other run of the compiler is under way, and begin. -/
  | acquire (compiler : CompilerId)
  | release (compiler : CompilerId)
  | setChanges (compiler : CompilerId) (changes : ChangeSet)
  | setParent (compiler : CompilerId) (parent : ParentMarker)
  | setInput (compiler : CompilerId) (input : StorageId)
  | setOutput (compiler : CompilerId) (output : StorageId)
  | setWatcher (compiler : CompilerId) (watcher : StorageId)
  | register (compiler : CompilerId) (hook : HookName) (name : String) (observer : Watcher S)
  | createCompiler (record : CompilerRecord S)
  /-- A fresh compilation of a compiler. -/
  | newCompilation (compiler : CompilerId)
  | lookCache
  | setCache (cache : ArtifactCache)
  /-- Drop the artifacts of all other modules. -/
  | retain (modules : List String)
  | spawn (job : Job S)
  /-- Leave a result for the task that waits for it. -/
  | report (result : RunResult)
  /-- Wait for the result of a task. -/
  | join (task : TaskId)
  | openSession (compiler : CompilerId)
  | lookSession (session : SessionId)
  /-- Queue a signal, unless nobody takes it. A close signal makes an active
  session a closing one. -/
  | send (session : SessionId) (signal : Signal S)
  | dropHandle (session : SessionId)
  /-- Queue a change set, unless nobody takes it. -/
  | deliver (session : SessionId) (changes : ChangeSet)
  /-- Wait for a signal, for a change set, or for the handle to be dropped. -/
  | await (session : SessionId)
  /-- Take all queued signals, and see whether the handle was dropped. -/
  | takeSignals (session : SessionId)
  | takeChanges (session : SessionId)
  | setLastChange (session : SessionId) (changes : ChangeSet)
  /-- Close the session for good, and take the signals that are left. -/
  | shut (session : SessionId)
  /-- Take no more change sets. -/
  | leave (session : SessionId)

/-- The answer to an operation. -/
@[reducible] def Op.Reply {S : Setting} : Op S → Type
  | .look _ => CompilerRecord S
  | .shift _ _ => Bool
  | .createCompiler _ => CompilerId
  | .newCompilation _ => Compilation
  | .lookCache => Option ArtifactCache
  | .spawn _ => TaskId
  | .join _ => RunResult
  | .openSession _ => SessionId
  | .lookSession _ => Session S
  | .send _ _ => Bool
  | .deliver _ _ => Bool
  | .await _ => Wake S
  | .takeSignals _ => List (Signal S) × Bool
  | .takeChanges _ => Option ChangeSet
  | .shut _ => List (Signal S)
  | _ => Unit

/-- A call of code outside. -/
inductive Call (S : Setting) where
  | observe (compiler : CompilerId) (observer : S.Observer) (occasion : Occasion)
  | adjust (compiler : CompilerId) (observer : S.Observer) (adjustment : Adjustment)
      (compilation : Compilation)
  | decide (compiler : CompilerId) (observer : S.Observer) (compilation : Compilation)
  /-- Build from the input that the compiler had when the build began. -/
  | build (compiler : CompilerId) (input : StorageId) (compilation : Compilation)
  /-- A callback of a run, with its result. -/
  | answer (callback : S.Callback) (result : RunResult)
  /-- A callback of a session. -/
  | notify (callback : S.Callback)
  | handle (handler : S.Handler) (result : RunResult)
  | isFile (input : StorageId) (path : Path)
  | read (input : StorageId) (path : Path)
  | purge (input : StorageId)
  | mkdir (output : StorageId) (path : Path)
  | write (output : StorageId) (path : Path) (content : ByteArray)
  | subscribe (watcher : StorageId) (session : SessionId) (request : WatchRequest)
  | unsubscribe (subscription : Subscription)

/-- The answer to a call. -/
@[reducible] def Call.Reply {S : Setting} : Call S → Type
  | .observe .. => Except String Unit
  | .adjust .. => Except String Unit × Compilation
  | .decide .. => Except String (Option Bool)
  | .build .. => Except RunError Unit × Compilation
  | .isFile .. => Bool
  | .read .. => Except FileFault ByteArray
  | .mkdir .. => Except FileFault Unit
  | .write .. => Except FileFault Unit
  | .subscribe .. => Option Subscription
  | _ => Unit

/-- A program that ends with a value or panics. -/
inductive Prog (S : Setting) (α : Type) where
  | done (value : α)
  | op (op : Op S) (next : op.Reply → Prog S α)
  | call (call : Call S) (next : call.Reply → Prog S α)
  | request (request : S.Request) (next : S.Answer request → Prog S α)
  | panic

namespace Prog

variable {S : Setting} {α β : Type}

def bind : Prog S α → (α → Prog S β) → Prog S β
  | done value, next => next value
  | op o rest, next => op o fun reply => bind (rest reply) next
  | call c rest, next => call c fun reply => bind (rest reply) next
  | request r rest, next => request r fun answer => bind (rest answer) next
  | panic, _ => panic

instance : Monad (Prog S) where
  pure := done
  bind := bind

/-- Make one step on the shared state. -/
def perform (o : Op S) : Prog S o.Reply := op o done

/-- Call code outside. -/
def invoke (c : Call S) : Prog S c.Reply := call c done

/-- Make a request of the code outside. -/
def ask (r : S.Request) : Prog S (S.Answer r) := request r done

def look (compiler : CompilerId) : Prog S (CompilerRecord S) := perform (.look compiler)

@[simp] theorem bind_done (program : Prog S α) : bind program done = program := by
  induction program with
  | done value => rfl
  | op o next ih => simp [bind, ih]
  | call c next ih => simp [bind, ih]
  | request r next ih => simp [bind, ih]
  | panic => rfl

theorem bind_assoc {γ : Type} (program : Prog S α) (next : α → Prog S β) (last : β → Prog S γ) :
    bind (bind program next) last = bind program fun value => bind (next value) last := by
  induction program with
  | done value => rfl
  | op o rest ih => simp [bind, ih]
  | call c rest ih => simp [bind, ih]
  | request r rest ih => simp [bind, ih]
  | panic => rfl

instance : LawfulMonad (Prog S) :=
  LawfulMonad.mk' (Prog S) (fun program => bind_done program) (fun _ _ => rfl) bind_assoc

end Prog

/-- A part of a run, which may fail. -/
abbrev Phase (S : Setting) := ExceptT RunError (Prog S)

end Bundler
