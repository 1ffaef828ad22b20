/-!
# Run states

Who has a compiler: nobody, a single run, or a watch session, which may have a
run under way. Every change of owner is a `Transition`; one that does not fit the
state is refused and changes nothing. `RunState.begin_iff_idle` says that a run
or a session starts only on a compiler that nobody has.
-/

namespace Bundler

inductive RunState where
  | idle
  | running
  | watching (activeRun : Bool)
  deriving DecidableEq, Repr, Inhabited

/-- A change that some owner of a compiler makes. -/
inductive Transition where
  | beginRun
  | endRun
  | beginWatch
  | beginWatchRun
  | endWatchRun
  | endWatch
  deriving DecidableEq, Repr

namespace RunState

/-- The state after a transition; `none` if the transition is refused. -/
def next? : RunState → Transition → Option RunState
  | idle, .beginRun => some running
  | running, .endRun => some idle
  | idle, .beginWatch => some (watching false)
  | watching false, .beginWatchRun => some (watching true)
  | watching _, .endWatchRun => some (watching false)
  | watching _, .endWatch => some idle
  | _, _ => none

/-- The state after a transition that may be refused. -/
def after (state : RunState) (transition : Transition) : RunState :=
  (state.next? transition).getD state

/-- Some run is under way. -/
def isRunning : RunState → Bool
  | running => true
  | watching activeRun => activeRun
  | idle => false

def isWatching : RunState → Bool
  | watching _ => true
  | _ => false

def listing : RunState → String
  | idle => "Idle"
  | running => "Running"
  | watching activeRun => "Watching \x7b active_run: " ++ toString activeRun ++ " \x7d"

/-! ## Laws -/

/-- A run or a session starts only on a compiler that nobody has. -/
theorem begin_iff_idle (state : RunState) (transition : Transition)
    (starts : transition = .beginRun ∨ transition = .beginWatch) :
    (state.next? transition).isSome = true ↔ state = idle := by
  rcases starts with rfl | rfl <;> cases state <;> simp [next?]

/-- A refused transition changes nothing. -/
theorem after_of_refused (state : RunState) (transition : Transition)
    (refused : state.next? transition = none) : state.after transition = state := by
  simp [after, refused]

end RunState

end Bundler
