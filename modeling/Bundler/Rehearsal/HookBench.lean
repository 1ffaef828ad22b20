import Bundler.Hook

/-!
# A bench for hooks

Scripted observers on a single hook. A script says what an observer does when it
is called; the bench notes every call, so that order and extent of a call can be
seen.
-/

namespace Bundler.Rehearsal

/-- What an observer does when it is called with an argument. -/
structure ObserverScript (β : Type) where
  name : String
  /-- Do nothing more for any other argument. -/
  onlyFor : Option β := none
  failure : Option String := none
  decision : Option β := none
  /-- An observer to register; only an observing call does so. -/
  late : Option (ObserverScript β) := none
  /-- What becomes of an argument that may be changed. -/
  change : β → β := id
  /-- Note when the work starts; only observers in a series do so. -/
  announces : Bool := false
  deriving Inhabited

/-- A noted event of a bench. -/
inductive HookNote (β : Type) where
  | started (tap : String)
  | called (tap : String) (argument : β)
  | finished (argument : β)

/-- How observers take part in a call. -/
inductive HookKind where
  | observe
  | adjust
  | decide
  | series
  deriving DecidableEq, Repr

/-- A hook with its notes since the last look. -/
structure HookBench (β : Type) where
  hook : Hook (ObserverScript β)
  notes : List (HookNote β) := []

namespace HookBench

variable {β : Type} [BEq β]

def note (entry : HookNote β) : StateM (HookBench β) Unit :=
  modify fun bench => { bench with notes := bench.notes ++ [entry] }

def register (script : ObserverScript β) : StateM (HookBench β) Unit :=
  modify fun bench => { bench with hook := bench.hook.tap script.name script }

/-- Call one observer; gives its decision. -/
def callObserver (kind : HookKind) (argument : β) (script : ObserverScript β) :
    StateM (HookBench β) (Except String (Option β)) := do
  if script.announces && kind == .series then note (.started script.name)
  note (.called script.name argument)
  if script.onlyFor.any (· != argument) then return .ok none
  match script.failure with
  | some reason => return .error reason
  | none =>
    match script.late with
    | some late => if kind == .observe then register late
    | none => pure ()
    return .ok script.decision

def watch (kind : HookKind) (argument : β) (script : ObserverScript β) :
    StateM (HookBench β) (Except String Unit) := do
  return (← callObserver kind argument script).map fun _ => ()

def adjust (script : ObserverScript β) (argument : β) :
    StateM (HookBench β) (Except String Unit × β) := do
  let argument := script.change argument
  return (← watch .adjust argument script, argument)

/-- Call the hook; a deciding hook gives its decision. -/
def call (kind : HookKind) (argument : β) :
    StateM (HookBench β) (Except RunError (Option β)) := do
  let hook := (← get).hook
  match kind with
  | .observe | .series =>
    return (← Hook.observeAll hook.name (watch kind argument) hook.taps).map fun _ => none
  | .decide => Hook.decideAll hook.name (callObserver kind argument) hook.taps
  | .adjust =>
    let (result, argument) ← Hook.adjustAll hook.name adjust hook.taps argument
    note (.finished argument)
    return result.map fun _ => none

end HookBench

end Bundler.Rehearsal
