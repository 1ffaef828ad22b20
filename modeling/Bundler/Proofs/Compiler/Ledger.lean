import Bundler.Proofs.Compiler.Execution
import Bundler.Proofs.Compiler.Rights

/-!
# The ledger of a compiler

The ledger of a compiler is read off the events of a trace, and of nothing else. It lists
who owns the compiler and which runs of it are under way. A run or a session is an owner
from the step that accepts it; its ownership passes to the task that is spawned for it, and
ends with the step by which that task gives the compiler away. The stretch of a run goes
from the step that begins it to the one that releases the compiler, and knows the worker
that does its phases.

Nothing in the ledger keeps two owners or two stretches apart. `Ledger.Fits` relates it to
the record of the compiler, which has room for one of each.
-/

namespace Bundler

open Compiler (RunKind)

variable {S : Setting}

/-- The step that makes somebody the owner of a compiler. -/
def Compiler.RunKind.entry : RunKind → Transition
  | single => .beginRun
  | watch => .beginWatch

/-- The step by which an owner gives a compiler away. -/
def Compiler.RunKind.exit : RunKind → Transition
  | single => .endRun
  | watch => .endWatch

/-- The task of a run or of a session that a compiler was given to. -/
structure Owner where
  kind : RunKind
  task : TaskId
  deriving DecidableEq

/-- What became of the phases of a run. -/
inductive Work where
  /-- Nobody was set to do them, or their result was taken. -/
  | none
  | working (worker : TaskId)
  | reported (worker : TaskId)
  deriving DecidableEq

/-- A run that has begun and has not released its compiler. -/
structure Stretch where
  holder : TaskId
  work : Work := .none
  deriving DecidableEq

/-- A task that takes part in a run at this moment. -/
def Stretch.Involves (stretch : Stretch) (task : TaskId) : Prop :=
  stretch = ⟨task, .none⟩ ∨ stretch.work = .working task

/-- Who owns a compiler, and which runs of it are under way. -/
structure Ledger where
  owners : List Owner := []
  stretches : List Stretch := []

namespace Ledger

/-- A run or a session was accepted. -/
def enter (ledger : Ledger) (owner : Owner) : Ledger :=
  { ledger with owners := ledger.owners ++ [owner] }

/-- An owner gave the compiler away. -/
def leave (ledger : Ledger) (owner : Owner) : Ledger :=
  { ledger with owners := ledger.owners.filter (· ≠ owner) }

/-- An owner goes on as another task. -/
def passOn (ledger : Ledger) (kind : RunKind) (task other : TaskId) : Ledger :=
  { ledger with
    owners := ledger.owners.map fun owner =>
      if owner = ⟨kind, task⟩ then ⟨kind, other⟩ else owner }

/-- A run began. -/
def openStretch (ledger : Ledger) (task : TaskId) : Ledger :=
  { ledger with stretches := ledger.stretches ++ [⟨task, .none⟩] }

/-- A run released the compiler. -/
def closeStretch (ledger : Ledger) (task : TaskId) : Ledger :=
  { ledger with stretches := ledger.stretches.filter (·.holder ≠ task) }

/-- A worker was set to do the phases of a run. -/
def lend (ledger : Ledger) (task worker : TaskId) : Ledger :=
  { ledger with
    stretches := ledger.stretches.map fun stretch =>
      if stretch.holder = task then { stretch with work := .working worker } else stretch }

/-- A worker left the result of the phases. -/
def noteReport (ledger : Ledger) (worker : TaskId) : Ledger :=
  { ledger with
    stretches := ledger.stretches.map fun stretch =>
      if stretch.work = .working worker then { stretch with work := .reported worker }
      else stretch }

/-- A run took the result of its worker. -/
def noteJoin (ledger : Ledger) (task worker : TaskId) : Ledger :=
  { ledger with
    stretches := ledger.stretches.map fun stretch =>
      if stretch = ⟨task, .reported worker⟩ then { stretch with work := .none } else stretch }

/-- What an operation of a task changes in the ledger of its compiler. -/
def afterOp (ledger : Ledger) (compiler : CompilerId) (task : TaskId) :
    (operation : Op S) → operation.Reply → Ledger
  | .shift id .beginRun, true => if id = compiler then ledger.enter ⟨.single, task⟩ else ledger
  | .shift id .beginWatch, true => if id = compiler then ledger.enter ⟨.watch, task⟩ else ledger
  | .shift id .endRun, _ => if id = compiler then ledger.leave ⟨.single, task⟩ else ledger
  | .shift id .endWatch, _ => if id = compiler then ledger.leave ⟨.watch, task⟩ else ledger
  | .acquire id, _ => if id = compiler then ledger.openStretch task else ledger
  | .release id, _ => if id = compiler then ledger.closeStretch task else ledger
  | .spawn (.run id _), other => if id = compiler then ledger.passOn .single task other else ledger
  | .spawn (.drive _ driver), other =>
    if driver.compiler = compiler then ledger.passOn .watch task other else ledger
  | .spawn (.phases id), worker => if id = compiler then ledger.lend task worker else ledger
  | .spawn (.watchPhases id), worker => if id = compiler then ledger.lend task worker else ledger
  | .report _, _ => ledger.noteReport task
  | .join worker, _ => ledger.noteJoin task worker
  | _, _ => ledger

/-- What an event of a task changes in the ledger of a compiler. -/
def after (ledger : Ledger) (compiler : CompilerId) (task : TaskId) : Event S → Ledger
  | .op operation reply => ledger.afterOp compiler task operation reply
  | .call _ => ledger
  | .request _ _ => ledger

end Ledger

/-- The ledger of a compiler after some events. -/
def ledger (compiler : CompilerId) (events : List (TaskId × Event S)) : Ledger :=
  events.foldl (fun sofar entry => sofar.after compiler entry.1 entry.2) {}

@[simp]
theorem ledger_concat (compiler : CompilerId) (events : List (TaskId × Event S)) (task : TaskId)
    (event : Event S) :
    ledger compiler (events ++ [(task, event)]) =
      (ledger compiler events).after compiler task event := by
  simp [ledger]

/-! ## What tasks have by the ledger -/

/-- What a task may do with its run while its worker is so far. -/
def Work.gate : Work → Gate
  | none => .held
  | working worker => .lent worker
  | reported worker => .lent worker

/-- What a task owns. -/
def ownsOf (owners : List Owner) (task : TaskId) : Option RunKind :=
  (owners.find? fun owner => owner.task = task).map Owner.kind

/-- What a task has of the run that is under way. -/
def gateOf (stretches : List Stretch) (task : TaskId) : Gate :=
  match stretches.find? fun stretch => stretch.holder = task with
  | none => .none
  | some stretch => stretch.work.gate

/-- A task does the phases of a run. -/
def worksOf (stretches : List Stretch) (task : TaskId) : Bool :=
  stretches.any fun stretch => stretch.work = .working task

/-- What a task has of a compiler. -/
def Ledger.share (ledger : Ledger) (task : TaskId) : Share where
  owns := ownsOf ledger.owners task
  gate := gateOf ledger.stretches task
  works := worksOf ledger.stretches task

/-- What a task has of all compilers after some events. -/
def rightsOf (events : List (TaskId × Event S)) (task : TaskId) : Rights :=
  fun compiler => (ledger compiler events).share task

section Shares

variable {task other : TaskId} {kind : RunKind} {work : Work}

@[simp] theorem ownsOf_nil : ownsOf [] task = none := rfl

@[simp]
theorem ownsOf_singleton :
    ownsOf [⟨kind, other⟩] task = if other = task then some kind else none := by
  by_cases same : other = task <;> simp [ownsOf, same]

@[simp] theorem gateOf_nil : gateOf [] task = .none := rfl

@[simp]
theorem gateOf_singleton :
    gateOf [⟨other, work⟩] task = if other = task then work.gate else .none := by
  by_cases same : other = task <;> simp [gateOf, same]

@[simp] theorem worksOf_nil : worksOf [] task = false := rfl

@[simp]
theorem worksOf_singleton : worksOf [⟨other, work⟩] task = decide (work = .working task) := by
  simp [worksOf]

end Shares

/-! ## The ledger and the record of the compiler -/

/-- Who owns a compiler in some state. -/
def OwnersFit : RunState → List Owner → Prop
  | .idle, owners => owners = []
  | .running, owners => ∃ task, owners = [⟨.single, task⟩]
  | .watching _, owners => ∃ task, owners = [⟨.watch, task⟩]

/-- Which runs of a compiler are under way. -/
def StretchesFit : Option TaskId → List Stretch → Prop
  | none, stretches => stretches = []
  | some holder, stretches => ∃ work, stretches = [⟨holder, work⟩]

/-- A ledger says of a compiler what its record says. -/
structure Ledger.Fits (ledger : Ledger) (record : CompilerRecord S) : Prop where
  owners : OwnersFit record.state ledger.owners
  stretches : StretchesFit record.owner ledger.stretches

section Fits

variable {state : RunState} {owners : List Owner} {holder : Option TaskId}
  {stretches : List Stretch} {task : TaskId}

theorem OwnersFit.length_le (fit : OwnersFit state owners) : owners.length ≤ 1 := by
  cases state with
  | idle =>
      obtain rfl := fit
      exact Nat.zero_le 1
  | running | watching =>
      obtain ⟨task, rfl⟩ := fit
      exact Nat.le_refl 1

theorem OwnersFit.eq_nil_iff (fit : OwnersFit state owners) : owners = [] ↔ state = .idle := by
  cases state with
  | idle =>
      obtain rfl := fit
      simp
  | running | watching =>
      obtain ⟨task, rfl⟩ := fit
      simp

/-- A task that owns a compiler is the only owner. -/
theorem OwnersFit.of_owns {kind : RunKind} (fit : OwnersFit state owners)
    (owns : ownsOf owners task = some kind) : owners = [⟨kind, task⟩] := by
  cases state with
  | idle =>
      obtain rfl := fit
      cases owns
  | running | watching =>
      obtain ⟨other, rfl⟩ := fit
      rw [ownsOf_singleton] at owns
      split at owns
      · rename_i same
        cases owns
        rw [same]
      · cases owns

/-- Only a compiler that nobody owns is given to somebody. -/
theorem OwnersFit.enter {kind : RunKind} {next : RunState} (fit : OwnersFit state owners)
    (entered : state.next? kind.entry = some next) (task : TaskId) :
    owners = [] ∧ OwnersFit next [⟨kind, task⟩] := by
  cases state with
  | idle =>
      cases kind <;> cases entered <;> exact ⟨fit, task, rfl⟩
  | running => cases kind <;> cases entered
  | watching activeRun => cases kind <;> cases activeRun <;> cases entered

/-- An owner is not refused when it gives the compiler away. -/
theorem OwnersFit.exit {kind : RunKind} (fit : OwnersFit state [⟨kind, task⟩]) :
    state.next? kind.exit = some .idle := by
  cases state with
  | idle => cases fit
  | running =>
      obtain ⟨other, same⟩ := fit
      cases same
      rfl
  | watching activeRun =>
      obtain ⟨other, same⟩ := fit
      cases same
      cases activeRun <;> rfl

/-- The state does not know which task owns the compiler. -/
theorem OwnersFit.passOn {kind : RunKind} (fit : OwnersFit state [⟨kind, task⟩])
    (next : TaskId) : OwnersFit state [⟨kind, next⟩] := by
  cases state with
  | idle => cases fit
  | running | watching =>
      obtain ⟨other, same⟩ := fit
      cases same
      exact ⟨next, rfl⟩

/-- The beginning and the end of a run of a session change no owner. -/
theorem OwnersFit.mark {transition : Transition} {next : RunState}
    (mark : transition = .beginWatchRun ∨ transition = .endWatchRun)
    (fit : OwnersFit state [⟨.watch, task⟩]) (moved : state.next? transition = some next) :
    OwnersFit next [⟨.watch, task⟩] := by
  cases state with
  | idle => cases fit
  | running =>
      obtain ⟨other, same⟩ := fit
      cases same
  | watching activeRun =>
      rcases mark with rfl | rfl <;> cases activeRun <;> cases moved <;> exact ⟨task, rfl⟩

theorem StretchesFit.length_le (fit : StretchesFit holder stretches) : stretches.length ≤ 1 := by
  cases holder with
  | none =>
      obtain rfl := fit
      exact Nat.zero_le 1
  | some task =>
      obtain ⟨work, rfl⟩ := fit
      exact Nat.le_refl 1

/-- What becomes of the phases does not matter to the record. -/
theorem StretchesFit.map {change : Stretch → Stretch} (fit : StretchesFit holder stretches)
    (kept : ∀ stretch, (change stretch).holder = stretch.holder) :
    StretchesFit holder (stretches.map change) := by
  cases holder with
  | none =>
      obtain rfl := fit
      rfl
  | some task =>
      obtain ⟨work, rfl⟩ := fit
      have same := kept ⟨task, work⟩
      cases made : change ⟨task, work⟩ with
      | mk other later =>
          rw [made] at same
          obtain rfl : other = task := same
          exact ⟨later, by rw [List.map_singleton, made]⟩

/-- A task that has begun a run holds the only stretch. -/
theorem StretchesFit.of_gate (fit : StretchesFit holder stretches)
    (gate : gateOf stretches task ≠ .none) :
    ∃ work, stretches = [⟨task, work⟩] ∧ gateOf stretches task = work.gate := by
  cases holder with
  | none =>
      obtain rfl := fit
      exact absurd rfl gate
  | some other =>
      obtain ⟨work, rfl⟩ := fit
      by_cases same : other = task
      · obtain rfl := same
        exact ⟨work, rfl, by simp⟩
      · simp [same] at gate

theorem StretchesFit.of_held (fit : StretchesFit holder stretches)
    (held : gateOf stretches task = .held) : stretches = [⟨task, .none⟩] := by
  have gate : gateOf stretches task ≠ .none := by simp [held]
  obtain ⟨work, same, given⟩ := fit.of_gate gate
  rw [held] at given
  cases work with
  | none => exact same
  | working | reported => cases given

/-- A task that works does so for the only stretch. -/
theorem StretchesFit.of_works (fit : StretchesFit holder stretches)
    (works : worksOf stretches task = true) : ∃ other, stretches = [⟨other, .working task⟩] := by
  cases holder with
  | none =>
      obtain rfl := fit
      cases works
  | some other =>
      obtain ⟨work, rfl⟩ := fit
      obtain rfl : work = .working task := by simpa using works
      exact ⟨other, rfl⟩

/-- A task with rights in a run takes part in the only stretch. -/
theorem StretchesFit.of_inRun {ledger : Ledger} (fit : StretchesFit holder ledger.stretches)
    (during : (ledger.share task).InRun) :
    ∃ stretch ∈ ledger.stretches, stretch.Involves task := by
  rcases during with held | works
  · refine ⟨⟨task, .none⟩, ?_, .inl rfl⟩
    rw [fit.of_held held]
    exact List.mem_singleton.mpr rfl
  · obtain ⟨other, same⟩ := fit.of_works works
    refine ⟨⟨other, .working task⟩, ?_, .inr rfl⟩
    rw [same]
    exact List.mem_singleton.mpr rfl

end Fits

/-! ## How entries change what tasks have -/

namespace Ledger

variable {ledger : Ledger} {kind : RunKind} {task : TaskId} (other : TaskId)

theorem share_enter (unowned : ledger.owners = []) :
    (ledger.enter ⟨kind, task⟩).share other =
      if task = other then { ledger.share other with owns := some kind }
      else ledger.share other := by
  by_cases same : task = other <;> simp [share, enter, unowned, same]

theorem share_leave (owned : ledger.owners = [⟨kind, task⟩]) :
    (ledger.leave ⟨kind, task⟩).share other =
      if task = other then { ledger.share other with owns := none } else ledger.share other := by
  by_cases same : task = other <;> simp [share, leave, owned, same]

theorem share_passOn (next : TaskId) (owned : ledger.owners = [⟨kind, task⟩]) :
    (ledger.passOn kind task next).share other =
      if next = other then { ledger.share other with owns := some kind }
      else { ledger.share other with
        owns := if task = other then none else (ledger.share other).owns } := by
  by_cases same : next = other
  · simp [share, passOn, owned, same]
  · by_cases self : task = other <;> simp [share, passOn, owned, same, self]

theorem share_openStretch (free : ledger.stretches = []) :
    (ledger.openStretch task).share other =
      if task = other then { ledger.share other with gate := .held } else ledger.share other := by
  by_cases same : task = other <;> simp [share, openStretch, free, same, Work.gate]

theorem share_closeStretch (held : ledger.stretches = [⟨task, .none⟩]) :
    (ledger.closeStretch task).share other =
      if task = other then { ledger.share other with gate := .none } else ledger.share other := by
  by_cases same : task = other <;> simp [share, closeStretch, held, same]

theorem share_lend (worker : TaskId) (held : ledger.stretches = [⟨task, .none⟩]) :
    (ledger.lend task worker).share other =
      { ledger.share other with
        gate := if task = other then .lent worker else (ledger.share other).gate
        works := decide (worker = other) } := by
  by_cases same : task = other <;> simp [share, lend, held, same, Work.gate]

theorem share_noteReport {holder : Option TaskId} (task : TaskId)
    (fit : StretchesFit holder ledger.stretches) :
    (ledger.noteReport task).share other =
      if task = other then { ledger.share other with works := false } else ledger.share other := by
  cases holder with
  | none =>
      have empty : ledger.stretches = [] := fit
      simp [share, noteReport, empty]
  | some holder =>
      obtain ⟨work, held⟩ := fit
      by_cases working : work = .working task
      · by_cases same : task = other <;>
          simp [share, noteReport, held, working, same, Work.gate]
      · by_cases same : task = other
        · obtain rfl := same
          simp [share, noteReport, held, working]
        · simp [share, noteReport, held, working, same]

/-- A task that takes the result of a worker that is done gets its run back. -/
theorem share_noteJoin {holder : Option TaskId} {worker : TaskId} (task : TaskId)
    (fit : StretchesFit holder ledger.stretches)
    (done : ∀ stretch ∈ ledger.stretches, stretch.work ≠ .working worker) :
    (ledger.noteJoin task worker).share other =
      if task = other then { ledger.share other with gate := (ledger.share other).gate.back worker }
      else ledger.share other := by
  cases holder with
  | none =>
      have empty : ledger.stretches = [] := fit
      simp [share, noteJoin, empty, Gate.back]
  | some holder =>
      obtain ⟨work, held⟩ := fit
      have unlike : work ≠ .working worker := by
        have entry := done ⟨holder, work⟩
        rw [held] at entry
        exact entry (List.mem_singleton.mpr rfl)
      by_cases same : task = other
      · obtain rfl := same
        by_cases self : holder = task
        · obtain rfl := self
          cases work with
          | none => simp [share, noteJoin, held, Work.gate, Gate.back]
          | working first =>
              have different : first ≠ worker := fun same => unlike (same ▸ rfl)
              simp [share, noteJoin, held, Work.gate, Gate.back, different]
          | reported first =>
              by_cases same : first = worker <;>
                simp [share, noteJoin, held, Work.gate, Gate.back, same]
        · simp [share, noteJoin, held, self, Gate.back]
      · by_cases self : holder = task
        · obtain rfl := self
          by_cases reported : work = .reported worker <;>
            simp [share, noteJoin, held, same, reported]
        · simp [share, noteJoin, held, same, self]

end Ledger

end Bundler
