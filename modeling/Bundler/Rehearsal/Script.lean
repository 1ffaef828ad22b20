import Bundler.Compiler.Watch

/-!
# Scripts for rehearsals

A rehearsal lets a compiler run with scripted code around it. A script says what
an observer, a callback, a handler or a builder does when it is called: note the
call, wait at a gate, change the compilation, do some deeds, panic, fail, decide.
-/

namespace Bundler.Rehearsal

/-- The text that stands for elapsed time. -/
def elapsedMark : String := "T"

/-- What an observer does; `δ` are the deeds that it may do. -/
structure TapScript (δ : Type) where
  hook : HookName
  name : String
  /-- The calls on which it acts, counted from one; all if none are listed. -/
  only : Option (List Nat) := none
  /-- Do not note the calls. -/
  quiet : Bool := false
  /-- Wait here before acting. -/
  gate : Option String := none
  /-- Named changes of the compilation. -/
  edits : List (String × Compilation.Edit) := []
  deeds : List δ := []
  panics : Bool := false
  failure : Option String := none
  decision : Option Bool := none
  deriving Inhabited

/-- How input is read. -/
inductive InputKind where
  | plain
  | counted
  /-- Counted, and remembered until it is purged. -/
  | remembered
  deriving DecidableEq, Repr

/-- Something that scripted code does. -/
inductive Deed where
  | run (label : String) (deeds : List Deed)
  /-- Watch; the n-th run is followed by the n-th list of deeds. -/
  | watch (options : Option WatchOptions) (handler : List (List Deed))
  | invalidate (label : String) (deeds : List Deed)
  | close (label : String) (deeds : List Deed)
  | dropHandle
  | push (changes : ChangeSet)
  | writeInput (path : Path) (content : ByteArray)
  | removeInput (path : Path)
  | refuseWrites (value : Bool)
  | refuseWatch
  | purge
  | setParent (parent : ParentMarker)
  | release (gate : String) (count : Nat)
  | register (tap : TapScript Deed)
  | newOutput
  | newWatcher
  | writeOutput (path : Path) (content : ByteArray)
  | setInput (kind : InputKind)
  | clearCache
  | inspect
  deriving Inhabited

/-- Observers that are registered when a compiler is made. -/
structure PluginScript where
  name : String
  taps : List (TapScript Deed) := []

/-- How a build fails. -/
inductive BuildFault where
  | build (reason : String)
  | io (path : Path) (reason : String)
  | other (reason : String)

def BuildFault.error : BuildFault → RunError
  | .build reason => .build reason
  | .io path reason => .io path (.other reason)
  | .other reason => .other reason

/-- A compilation inside a build. -/
structure ChildScript where
  name : String
  entry : Option (Table String String) := none
  plugins : List PluginScript := []
  taps : List (TapScript Deed) := []
  /-- Do not attach the result. -/
  detached : Bool := false
  /-- Go on after a failure. -/
  tolerant : Bool := false

/-- What the builder of a compiler does. -/
structure BuildScript where
  /-- The builds on which it acts, counted from one; all if none are listed. -/
  only : Option (List Nat) := none
  gate : Option String := none
  panics : Bool := false
  failure : Option BuildFault := none
  /-- Make children only for a compiler that is no child itself. -/
  topOnly : Bool := false
  children : List ChildScript := []

/-- An observer of a rehearsal. -/
inductive Observer where
  /-- A script, and the key under which its calls are counted. -/
  | scripted (key : Nat) (script : TapScript Deed)
  /-- Enter the hook in the journal. -/
  | journal (hook : HookName)

/-- A callback of a rehearsal. -/
inductive Callback where
  | labelled (label : String) (deeds : List Deed)
  /-- The callback of a run that begins together with its compiler. -/
  | first (label : String)
  /-- Put the result where it is waited for. -/
  | slot (key : Nat)

/-- A handler, and the key under which its calls are counted. -/
structure Handler where
  key : Nat
  deeds : List (List Deed)

end Bundler.Rehearsal
