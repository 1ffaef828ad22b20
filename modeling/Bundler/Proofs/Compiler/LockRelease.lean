import Bundler.Proofs.Compiler.ChangeDelivery
import Bundler.Proofs.Compiler.RunEndings
import Bundler.Proofs.Compiler.SessionClosing

/-!
# Who leaves a compiler locked

A panic in the phases of a run ends the task of the phases alone: the run goes on to tell of the
failure, to give the compiler back and to call its callback. `Machine.locks_released` says that
a compiler is never locked in any other way than by a task that panicked on its own account:
the task of a single run in an observer of `failed`, a task that runs a compiler as a child in
any code that the child calls, and a driver in any code that it calls between two runs. That an
observer of `failed` does lock the compiler is `Compiler.failure_locks`.
-/

namespace Bundler

variable {S : Setting} {E : Environment S}

namespace Machine

/-- A driver answers for its session as long as it is there. -/
structure Served (machine : Machine E) (events : List (TaskId × Event S)) (session : SessionId)
    (driver : TaskId) (life : List (Bool × Event S)) : Prop where
  /-- Signals are taken until the session is closed. -/
  answers : machine.program? driver ≠ none →
    (machine.world.session session).phase = .closed ∨
      (machine.world.session session).answers = true
  /-- A driver that waits was not told to close, and every signal that is queued wakes it. -/
  waits : ∀ next, machine.program? driver = some (.op (.await session) next) →
    (∀ entry ∈ life, ¬ entry.2.closes session) ∧
      ((machine.world.session session).signals ≠ [] →
        ∃ event after, machine.Step driver (some event) after)
  /-- A driver does not go away before the session is closed and the compiler given back. -/
  leaves : machine.program? driver = none →
    (machine.world.session session).phase = .closed ∧ tenureOf events driver = Tenure.free ∨
      machine.world.results.get? driver = some (.error .panicked) ∧
        (machine.world.session session).answers = false

/-- No compiler is locked but by a task that has something to do with it yet, or panicked. -/
structure LocksReleased (machine : Machine E) (events : List (TaskId × Event S)) : Prop where
  /-- The state of a compiler is there on account of one task. -/
  holder : ∀ compiler, ∃ task, Holds events compiler (machine.world.compiler compiler).state task
  /-- A task that is over has given back all that it had, also what it ran as a child, unless
  it panicked. -/
  free : ∀ task, machine.program? task = none →
    tenureOf events task = Tenure.free ∨
      machine.world.results.get? task = some (.error .panicked)
  /-- The task of a single run that is over has given the compiler back and called the callback
  once, if it did not panic in an observer of `failed`. -/
  run : ∀ spawner task compiler callback,
    (spawner, .op (.spawn (.run compiler callback)) task) ∈ events →
    machine.program? task = none →
    ∃ deeds broken, Ended E (.run compiler callback) (eventsOf task events) deeds broken ∧
      Compiler.RunEnds compiler callback deeds broken
  /-- A watch run is under way only while its driver is there. -/
  active : ∀ compiler, (machine.world.compiler compiler).state = .watching true →
    ∃ task, machine.program? task ≠ none ∧ tenureOf events task compiler = .watching true
  /-- When code outside is called, no watch run is under way on account of the task. -/
  still : ∀ before task outside after, events = before ++ (task, .call outside) :: after →
    (tenureOf before task).Still
  session : ∀ past opener spawner driver compiler session life stage options handler,
    events = past ++ (opener, .op (.openSession compiler) session) :: life →
    (spawner, .op (.spawn (.drive stage { session, compiler, options, handler })) driver) ∈ life →
    machine.Served events session driver (marked driver life)

section Locks

variable {start machine : Machine E} {events : List (TaskId × Event S)} {panics : Prop}

/-- A driver that is not over has not panicked, and one that is over and has not panicked has
closed its session. -/
theorem Trace.served {past life : List (TaskId × Event S)} {opener spawner task : TaskId}
    {stage : DriverStage} {driver : Driver S} {compiler : CompilerId}
    (vacant : start.Vacant panics) (hosts : E.Hosts panics) (trace : start.Trace
      (past ++ (opener, .op (.openSession compiler) driver.session) :: life) machine)
    (spawned : (spawner, .op (.spawn (.drive stage driver)) task) ∈ life) :
    machine.Served (past ++ (opener, .op (.openSession compiler) driver.session) :: life)
      driver.session task (marked task life) := by
  obtain ⟨driven, lived⟩ := trace.life_of_spawned vacant hosts spawned
  obtain ⟨book, placed⟩ := lived.placed
  refine { answers := fun alive => ?_, waits := fun next runs => ?_, leaves := fun gone => ?_ }
  · by_contra unheard
    rw [not_or, Bool.not_eq_true] at unheard
    rcases placed.answers unheard.2 with shut | over_
    · exact unheard.1 (placed.closed.mpr shut)
    · exact alive (Option.not_isSome_iff_eq_none.mp (by simpa using over_))
  · constructor
    · obtain ⟨_, found, -, resting⟩ :
          (standingOf (past ++ _ :: life) task).Drives driver.session Book.Rests := by
        cases (trace.orderly vacant hosts).abides task _ runs with
        | op allowed => exact allowed.2
      obtain rfl := Option.some.inj (placed.held.symm.trans found)
      intro entry member closes
      have closing := (lived.closing_iff placed.held).mpr ⟨entry, member, closes⟩
      exact Bool.false_ne_true (resting.closing.symm.trans closing)
    · intro queued
      obtain ⟨signal, rest, same⟩ := List.exists_cons_of_ne_nil queued
      have woken : ∃ wake after,
          machine.world.wake? false driver.session = some (wake, after) := by
        simp only [World.wake?, same]
        cases (machine.world.session driver.session).arrivals <;> exact ⟨_, _, rfl⟩
      obtain ⟨wake, after, performed⟩ := woken
      exact ⟨_, _, .op runs performed⟩
  · have deaf := placed.over_ (by simp [gone])
    rcases trace.given_back vacant hosts gone with free | ⟨panicked, -⟩
    · have ending : (standingOf (past ++ _ :: life) task).Ends ∨ _ :=
        trace.ending vacant Standing.ends_empty
          (fun before => (before.orderly vacant hosts).abides) gone
      rcases ending with ends | ⟨panicked, -⟩
      · exact .inl ⟨placed.closed.mpr (ends.closed book placed.held).1, free⟩
      · exact .inr ⟨panicked, deaf⟩
    · exact .inr ⟨panicked, deaf⟩

/-- In every execution, whatever the code outside does, a compiler is locked only by a task that
is not over, or that panicked on its own account. -/
theorem locks_released (vacant : start.Vacant panics) (hosts : E.Hosts panics)
    (trace : start.Trace events machine) : machine.LocksReleased events where
  holder := (trace.tenured vacant hosts).held
  free task gone := (trace.given_back vacant hosts gone).imp_right And.left
  run spawner task compiler callback spawned gone := trace.run_ended vacant hosts spawned gone
  active compiler watching := by
    obtain ⟨task, same, -⟩ := (trace.tenured vacant hosts).held compiler
    rw [watching] at same
    refine ⟨task, fun gone => ?_, same⟩
    rcases trace.given_back vacant hosts gone with free | ⟨-, still⟩
    · rw [free] at same
      cases same
    · exact still compiler same
  still := by
    rintro before task outside after rfl
    obtain ⟨first, second, begun, step⟩ := trace.split
    exact (begun.tenured vacant hosts).abides.allowsCall step
  session := by
    rintro past opener spawner driver compiler session life stage options handler rfl spawned
    exact trace.served vacant hosts spawned

end Locks

end Machine

/-! ## Observers that panic -/

/-- A result that is handed to the callback of a run. -/
def Event.answered? : Event S → Option (S.Callback × RunResult)
  | .call outside => outside.answered?
  | _ => none

/-- Code outside that does nothing, but for observers. -/
def Environment.observing (observe : Occasion → Prog Setting.plain (Except String Unit)) :
    Environment Setting.plain where
  State := Unit
  answer
    | .observe _ _ occasion => observe occasion
    | outside => Environment.inert.answer outside
  serve wish := wish.elim

theorem Environment.observing_hosts {observe : Occasion → Prog Setting.plain (Except String Unit)}
    (visitors : ∀ occasion, (observe occasion).Visitor True) :
    (Environment.observing observe).Hosts True := by
  intro outside
  cases outside with
  | observe compiler observer occasion => exact visitors occasion
  | _ => exact .done _

namespace Compiler

/-- A compiler with an observer that may stop a run, and one that is told of failures. -/
def checkedCompiler : CompilerRecord Setting.plain where
  options := Options.forContext (.of "/")
  registry := [⟨.beforeRun, ⟨"check", .outside ()⟩⟩, ⟨.failed, ⟨"report", .outside ()⟩⟩]

/-- A task starts a run. -/
def checker (E : Environment Setting.plain) (state : E.State) : Machine E :=
  .hosting state [checkedCompiler] (run 0 ())

theorem checker_vacant (E : Environment Setting.plain) (state : E.State) :
    (checker E state).Vacant True := by
  have visitor : (run 0 () >>= pure : Prog Setting.plain Unit).Visitor True :=
    .run fun _ => .done ()
  rw [bind_pure] at visitor
  refine Machine.vacant_hosting visitor fun record member => ?_
  obtain rfl : record = checkedCompiler := by simpa using member
  exact ⟨rfl, rfl⟩

/-- The task of the run and the task of the phases, each as far as it goes. -/
def schedule : List TaskId :=
  List.replicate 3 0 ++ List.replicate 3 1 ++ List.replicate 6 2 ++ List.replicate 12 1

/-- The check panics. -/
def panickingCheck : Occasion → Prog Setting.plain (Except String Unit)
  | .beforeRun => .panic
  | _ => return .ok ()

theorem panickingCheck_visitor (occasion : Occasion) : (panickingCheck occasion).Visitor True := by
  cases occasion with
  | beforeRun => exact .panic trivial
  | _ => exact .done _

/-- The check fails, and who is told of the failure panics. -/
def panickingReport : Occasion → Prog Setting.plain (Except String Unit)
  | .beforeRun => return .error "stop"
  | .failed _ => .panic
  | _ => return .ok ()

theorem panickingReport_visitor (occasion : Occasion) :
    (panickingReport occasion).Visitor True := by
  cases occasion with
  | failed => exact .panic trivial
  | _ => exact .done _

/-- A run whose check panics. -/
def checked :
    List (TaskId × Event Setting.plain) × Machine (Environment.observing panickingCheck) :=
  Machine.playback [] (checker _ ()) schedule

/-- After a panic in the phases the compiler is given back, and the callback is called with the
failure. -/
theorem panic_released :
    checked.2.LocksReleased checked.1 ∧ checked.2.tasks.length = 0 ∧
      (checked.2.world.compiler 0).state = .idle ∧
      (1, .call (.answer () (.error .panicked))) ∈ checked.1 := by
  refine ⟨?_, rfl, rfl, List.mem_of_getElem? (i := 11) rfl⟩
  exact Machine.locks_released (checker_vacant _ ())
    (Environment.observing_hosts panickingCheck_visitor) (Machine.trace_playback .start _)

/-- A run whose check fails, with an observer of `failed` that panics. -/
def locked :
    List (TaskId × Event Setting.plain) × Machine (Environment.observing panickingReport) :=
  Machine.playback [] (checker _ ()) schedule

/-- A panic of an observer of `failed` leaves a compiler running for good: the run was accepted,
all tasks are over, and the callback was not called. -/
theorem failure_locks :
    (checker (Environment.observing panickingReport) ()).Vacant True ∧
      (Environment.observing panickingReport).Hosts True ∧
      (checker (Environment.observing panickingReport) ()).Trace locked.1 locked.2 ∧
      (0, .op (.shift 0 .beginRun) true) ∈ locked.1 ∧ locked.2.tasks.length = 0 ∧
      (locked.2.world.compiler 0).state = .running ∧
      ∀ task callback result, (task, .call (.answer callback result)) ∉ locked.1 := by
  refine ⟨checker_vacant (Environment.observing panickingReport) (),
    Environment.observing_hosts panickingReport_visitor,
    Machine.trace_playback .start _, List.mem_of_getElem? (i := 0) rfl, rfl, rfl, ?_⟩
  intro task callback result member
  have silent : (locked.1.filterMap fun entry => entry.2.answered?) = [] := by rfl
  have absent := List.filterMap_eq_nil_iff.mp silent _ member
  cases absent

end Compiler

end Bundler
