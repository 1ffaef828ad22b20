import Bundler.Proofs.Compiler.Bookkeeping
import Bundler.Proofs.Compiler.DriverConduct
import Bundler.Proofs.Compiler.SessionMoves

/-!
# The order of sessions

`Machine.Orderly` says what holds of a machine by the standings of its tasks: every task keeps
to the protocol, it has the compilers that its standing says and no others, and every session
has one keeper, which is the task that opened it and after that its driver. Every execution
from a vacant machine is orderly, whatever visitors do, and whether or not they panic.
-/

namespace Bundler

variable {S : Setting} {E : Environment S}

/-! ## What operations do to owners -/

namespace World

variable {world after : World S} {task : TaskId} {preferChanges : Bool}

/-- The owner of a compiler after an operation that did not have to wait. -/
def ownerAfter (world : World S) (task : TaskId) (compiler : CompilerId) : Op S → Option TaskId
  | .acquire other =>
    if other = compiler ∧ compiler < world.compilers.length then some task
    else (world.compiler compiler).owner
  | .release other => if other = compiler then none else (world.compiler compiler).owner
  | _ => (world.compiler compiler).owner

theorem owner_eq_none {compiler : CompilerId} (absent : world.compilers.length ≤ compiler) :
    (world.compiler compiler).owner = none := by
  by_contra busy
  exact Nat.not_lt.mpr absent (exists_of_busy (.inr busy))

theorem owner_changeCompiler {change : CompilerRecord S → CompilerRecord S}
    (kept : ∀ record, (change record).owner = record.owner) (other compiler : CompilerId) :
    ((world.changeCompiler other change).compiler compiler).owner =
      (world.compiler compiler).owner := by
  rw [compiler_change]
  split
  · exact kept _
  · rfl

/-- Only who begins a run becomes an owner, and nobody while there is one. -/
theorem perform_owner {operation : Op S} {reply : operation.Reply}
    (unowned : ∀ record, operation = .createCompiler record → record.owner = none)
    (performed : world.perform task preferChanges operation = some (reply, after))
    (compiler : CompilerId) :
    (after.compiler compiler).owner = world.ownerAfter task compiler operation := by
  by_cases sessional : OnSessions operation
  · obtain ⟨sessions, rfl⟩ := perform_onSessions sessional performed
    cases operation <;> first | exact sessional.elim | rfl
  · cases operation with
    | shift | setChanges | setParent | setInput | setOutput | setWatcher | register =>
        cases performed
        refine owner_changeCompiler ?_ _ _
        exact fun _ => rfl
    | look | newCompilation | lookCache | setCache | retain | spawn | report =>
        cases performed
        rfl
    | acquire other =>
        simp only [perform, acquire?] at performed
        split at performed
        · cases performed
          rw [compiler_change]
          by_cases here : other = compiler ∧ compiler < world.compilers.length
          · rw [if_pos here]
            exact (if_pos here).symm
          · rw [if_neg here]
            exact (if_neg here).symm
        · cases performed
    | release other =>
        cases performed
        rw [compiler_change, ownerAfter]
        by_cases same : other = compiler
        · by_cases inside : compiler < world.compilers.length
          · rw [if_pos ⟨same, inside⟩, if_pos same]
          · rw [if_neg fun here => inside here.2, if_pos same,
              owner_eq_none (Nat.le_of_not_lt inside)]
        · rw [if_neg fun here => same here.1, if_neg same]
    | join other =>
        obtain ⟨result, -, same⟩ := Option.map_eq_some_iff.mp performed
        cases same
        rfl
    | createCompiler record =>
        cases performed
        simp only [World.compiler, ownerAfter, List.getElem?_append]
        by_cases inside : compiler < world.compilers.length
        · rw [if_pos inside]
        · rw [if_neg inside, List.getElem?_eq_none (Nat.le_of_not_lt inside)]
          cases compiler - world.compilers.length with
          | zero => exact unowned record rfl
          | succ => rfl
    | _ => exact (sessional trivial).elim

/-- A run of a compiler begins only while no other is under way. -/
theorem perform_acquire {compiler : CompilerId}
    (performed : world.perform task preferChanges (.acquire compiler) = some ((), after)) :
    (world.compiler compiler).owner = none := by
  simp only [perform, acquire?] at performed
  split at performed
  · assumption
  · cases performed

theorem crash_owner (world : World S) (task : TaskId) (compiler : CompilerId) :
    ((world.crash task).compiler compiler).owner =
      if (world.compiler compiler).owner = some task then none
      else (world.compiler compiler).owner := by
  rw [World.compiler, crash_compilers, World.compiler, List.getElem?_map]
  cases world.compilers[compiler]? with
  | none => rfl
  | some record =>
      simp only [Option.map_some, Option.getD_some]
      split <;> rfl

theorem crash_compilers_length (world : World S) (task : TaskId) :
    (world.crash task).compilers.length = world.compilers.length := by
  rw [crash_compilers, List.length_map]

theorem crash_drivers (world : World S) (task : TaskId) :
    (world.crash task).drivers = world.drivers := by
  rw [crash]
  simp only
  cases world.drivers.get? task <;> rfl

/-- The session of a driver that panics is abandoned, all others stay as they are. -/
theorem crash_session (world : World S) (task : TaskId) {id : SessionId}
    (there : id < world.sessions.length) :
    (world.crash task).session id =
      if world.drivers.get? task = some id then
        { world.session id with answers := false, receives := false, signals := [], arrivals := [] }
      else world.session id := by
  rw [crash]
  simp only
  cases found : world.drivers.get? task with
  | none => rfl
  | some driven =>
      simp only [Option.some.injEq]
      exact session_changeSession there driven _

theorem crash_sessions_length (world : World S) (task : TaskId) :
    (world.crash task).sessions.length = world.sessions.length := by
  rw [crash]
  simp only
  cases world.drivers.get? task <;> simp [abandon, changeSession]

/-- Compilers and sessions are only ever added, and a session stays with its compiler. -/
structure Grows (world after : World S) : Prop where
  compilers : world.compilers.length ≤ after.compilers.length
  sessions : world.sessions.length ≤ after.sessions.length
  kept : ∀ id < world.sessions.length, (after.session id).compiler = (world.session id).compiler

theorem perform_grows {operation : Op S} {reply : operation.Reply}
    (performed : world.perform task preferChanges operation = some (reply, after)) :
    world.Grows after where
  compilers := by
    rw [(perform_changes performed).compilers]
    cases operation <;> simp [compilersAfter]
  sessions := by
    rw [perform_sessions_length performed]
    cases operation <;> simp [sessionCountAfter]
  kept _ there := (perform_moves there performed).compiler

theorem crash_grows (world : World S) (task : TaskId) : world.Grows (world.crash task) where
  compilers := Nat.le_of_eq (crash_compilers_length world task).symm
  sessions := Nat.le_of_eq (crash_sessions_length world task).symm
  kept id there := by
    rw [crash_session world task there]
    split <;> rfl

/-- The drivers after an operation: only a spawn makes a task the driver of a session. -/
def driversAfter (world : World S) : Op S → Table TaskId SessionId
  | .spawn (.drive _ driver) => world.drivers.insert world.nextTask driver.session
  | _ => world.drivers

theorem perform_drivers {operation : Op S} {reply : operation.Reply}
    (performed : world.perform task preferChanges operation = some (reply, after)) :
    after.drivers = world.driversAfter operation := by
  by_cases sessional : OnSessions operation
  · obtain ⟨sessions, rfl⟩ := perform_onSessions sessional performed
    cases operation <;> first | exact sessional.elim | rfl
  · cases operation with
    | spawn job =>
        cases performed
        cases job <;> rfl
    | acquire id =>
        simp only [perform, acquire?] at performed
        split at performed
        · cases performed
          rfl
        · cases performed
    | join other =>
        obtain ⟨result, -, same⟩ := Option.map_eq_some_iff.mp performed
        cases same
        rfl
    | _ =>
        first
        | exact (sessional trivial).elim
        | cases performed; rfl

end World

/-! ## Who keeps a session -/

namespace Book

variable {book : Book S}

@[simp]
theorem session_signal (signal : Signal S) : (book.signal signal).session = book.session := by
  cases signal <;> rfl

@[simp]
theorem compiler_signal (signal : Signal S) : (book.signal signal).compiler = book.compiler := by
  cases signal <;> rfl

@[simp]
theorem session_signals (signals : List (Signal S)) :
    (signals.foldl signal book).session = book.session := by
  induction signals generalizing book with
  | nil => rfl
  | cons signal rest ih => rw [List.foldl_cons, ih, session_signal]

@[simp]
theorem compiler_signals (signals : List (Signal S)) :
    (signals.foldl signal book).compiler = book.compiler := by
  induction signals generalizing book with
  | nil => rfl
  | cons signal rest ih => rw [List.foldl_cons, ih, compiler_signal]

/-- A book stays the book of one session. -/
theorem after_same (book : Book S) (operation : Op S) (reply : operation.Reply) :
    (book.after operation reply).session = book.session ∧
      (book.after operation reply).compiler = book.compiler := by
  cases operation with
  | await session =>
      cases reply with
      | signal signal => exact ⟨session_signal signal, compiler_signal signal⟩
      | changes | gone => exact ⟨rfl, rfl⟩
  | takeSignals session => exact ⟨session_signals reply.1, compiler_signals reply.1⟩
  | takeChanges session => cases reply <;> exact ⟨rfl, rfl⟩
  | shut session => exact ⟨session_signals reply, compiler_signals reply⟩
  | release compiler =>
      change (book.release compiler).session = _ ∧ (book.release compiler).compiler = _
      rw [release]
      split <;> exact ⟨rfl, rfl⟩
  | spawn job => cases job <;> exact ⟨rfl, rfl⟩
  | _ => exact ⟨rfl, rfl⟩

theorem during_same (book : Book S) (outside : Call S) :
    (book.during outside).session = book.session ∧
      (book.during outside).compiler = book.compiler := by
  cases outside with
  | notify callback =>
      change (book.settle callback).session = _ ∧ (book.settle callback).compiler = _
      rw [settle]
      split <;> exact ⟨rfl, rfl⟩
  | observe compiler observer occasion =>
      cases occasion with
      | afterDone finished =>
          rw [during]
          split <;> exact ⟨rfl, rfl⟩
      | _ => exact ⟨rfl, rfl⟩
  | _ => exact ⟨rfl, rfl⟩

end Book

namespace Standing

variable {standing : Standing S}

/-- Where a task stands after an event of its own. -/
def note (standing : Standing S) (event : Event S) : Standing S :=
  (protocol S).note standing event

/-- The session that a task drives, with its compiler. -/
def driven (standing : Standing S) : Option (SessionId × CompilerId) :=
  standing.book.map fun book => (book.session, book.compiler)

/-- A task has opened a session, or drives it. -/
def Keeps (standing : Standing S) (session : SessionId) (compiler : CompilerId) : Prop :=
  standing.opening = some (.opened compiler session) ∨ standing.driven = some (session, compiler)

/-- A compiler that a task has for a run or for a session. -/
def Admits (standing : Standing S) (compiler : CompilerId) : Prop :=
  standing.opening = some (.called compiler) ∨ standing.opening = some (.admitted compiler)

theorem driven_after (standing : Standing S) (operation : Op S) (reply : operation.Reply) :
    (standing.after operation reply).driven = standing.driven := by
  obtain ⟨_, _, _, book⟩ := standing
  cases book with
  | none => rfl
  | some book =>
      obtain ⟨session, compiler⟩ := book.after_same operation reply
      simp [driven, after, session, compiler]

theorem driven_duringCall (standing : Standing S) (outside : Call S) :
    (standing.duringCall outside).driven = standing.driven := by
  obtain ⟨_, _, refused, book⟩ := standing
  cases refused with
  | some callback => rfl
  | none =>
      cases book with
      | none => rfl
      | some book =>
          obtain ⟨session, compiler⟩ := book.during_same outside
          simp [driven, duringCall, session, compiler]

theorem opening_duringCall (standing : Standing S) (outside : Call S) :
    (standing.duringCall outside).opening = standing.opening := by
  rw [duringCall]
  split <;> rfl

theorem holds_duringCall (standing : Standing S) (outside : Call S) :
    (standing.duringCall outside).holds = standing.holds := by
  rw [duringCall]
  split <;> rfl

theorem keeps_duringCall {outside : Call S} {session : SessionId} {compiler : CompilerId} :
    (standing.duringCall outside).Keeps session compiler ↔ standing.Keeps session compiler := by
  rw [Keeps, Keeps, opening_duringCall, driven_duringCall]

/-- A session that a task has opened was opened before, and is not given away now, or is
opened now. -/
theorem opened_after {operation : Op S} {reply : operation.Reply} {compiler : CompilerId}
    {session : SessionId}
    (opened : (standing.after operation reply).opening = some (.opened compiler session)) :
    (standing.opening = some (.opened compiler session) ∧
      ∀ stage driver, operation ≠ .spawn (.drive stage driver)) ∨
    Event.op operation reply = .op (.openSession compiler) session := by
  cases operation with
  | shift id transition =>
      cases transition <;> cases reply <;>
        first | exact .inl ⟨opened, nofun⟩ | exact nomatch opened
  | openSession id =>
      cases opened
      exact .inr rfl
  | spawn job =>
      cases job <;> first | exact .inl ⟨opened, nofun⟩ | exact nomatch opened
  | acquire => exact nomatch opened
  | _ => exact .inl ⟨opened, nofun⟩

/-- A compiler that a task has was its before, or becomes so now. -/
theorem admits_after {operation : Op S} {reply : operation.Reply} {compiler : CompilerId}
    (admits : (standing.after operation reply).Admits compiler) :
    standing.Admits compiler ∨
      ∃ transition, Event.op operation reply = .op (.shift compiler transition) true := by
  have kept : (standing.after operation reply).opening = standing.opening →
      standing.Admits compiler := by
    intro same
    rwa [Admits, same] at admits
  cases operation with
  | shift id transition =>
      cases transition <;> cases reply <;> first
        | exact .inl (kept rfl)
        | rcases admits with same | same <;> cases same <;> exact .inr ⟨_, rfl⟩
  | openSession id => rcases admits with same | same <;> cases same
  | acquire => rcases admits with same | same <;> cases same
  | spawn job =>
      cases job <;> first
        | exact .inl (kept rfl)
        | rcases admits with same | same <;> cases same
  | _ => exact .inl (kept rfl)

end Standing

/-! ## Order -/

/-- Where a task stands in the protocol after some events. -/
def standingOf (events : List (TaskId × Event S)) (task : TaskId) : Standing S :=
  Machine.statusOf (protocol S) events task

namespace Machine

/-- What holds of a machine by the standings of its tasks. -/
structure Orderly (machine : Machine E) (events : List (TaskId × Event S)) : Prop where
  abides : machine.Abides (protocol S) events
  /-- Nothing is known of a task that has not begun. -/
  unborn : ∀ task, machine.world.nextTask ≤ task → standingOf events task = {}
  /-- A task has a run of a compiler under way, at most once, if it is the owner. -/
  holding : ∀ task program, machine.program? task = some program → ∀ compiler,
    (standingOf events task).holds.count compiler =
      if (machine.world.compiler compiler).owner = some task then 1 else 0
  owners : ∀ compiler task, (machine.world.compiler compiler).owner = some task →
    task < machine.world.nextTask
  admitted : ∀ task compiler, (standingOf events task).Admits compiler →
    compiler < machine.world.compilers.length
  kept : ∀ task session compiler, (standingOf events task).Keeps session compiler →
    session < machine.world.sessions.length ∧
      (machine.world.session session).compiler = compiler ∧
      compiler < machine.world.compilers.length
  /-- A session is kept by one task. -/
  sole : ∀ task other session compiler same,
    (standingOf events task).Keeps session compiler →
    (standingOf events other).Keeps session same → task = other
  /-- A task that has opened a session does not drive it. -/
  apart : ∀ task session compiler same,
    (standingOf events task).opening = some (.opened compiler session) →
    (standingOf events task).driven ≠ some (session, same)
  drivers : ∀ task, machine.world.drivers.get? task =
    (standingOf events task).driven.map Prod.fst

section Order

variable {start machine after : Machine E} {events : List (TaskId × Event S)} {id : TaskId}

/-- Where a task stands after a step: it made the step, it was spawned by the step, or it
stands where it stood. -/
theorem standingOf_step {event : Event S} (tidy : start.Tidy)
    (trace : start.Trace events machine) (step : machine.Step id (some event) after)
    (task : TaskId) :
    (task = id ∧
      standingOf (events ++ [(id, event)]) task = (standingOf events id).note event) ∨
    (∃ job, event = .op (.spawn job) task ∧ task = machine.world.nextTask ∧ task ≠ id ∧
      standingOf (events ++ [(id, event)]) task = Standing.entry job) ∨
    (task ≠ id ∧ (∀ job, event ≠ .op (.spawn job) task) ∧
      standingOf (events ++ [(id, event)]) task = standingOf events task) :=
  statusOf_step tidy trace step task

end Order

namespace Orderly

variable {start machine after : Machine E} {events : List (TaskId × Event S)} {id : TaskId}

/-- What is performed is allowed. -/
theorem permits {operation : Op S} {reply : operation.Reply} (orderly : machine.Orderly events)
    (step : machine.Step id (some (.op operation reply)) after) :
    (standingOf events id).Allows operation := orderly.abides.allows step

theorem permitsCall {outside : Call S} (orderly : machine.Orderly events)
    (step : machine.Step id (some (.call outside)) after) :
    (standingOf events id).AllowsCall outside := orderly.abides.allowsCall step

/-- Every answer is one that the standing of the task expects. -/
theorem expects {operation : Op S} {reply : operation.Reply} (orderly : machine.Orderly events)
    (step : machine.Step id (some (.op operation reply)) after) :
    (standingOf events id).Expects operation reply := by
  cases operation with
  | acquire compiler =>
      cases step with
      | op runs performed =>
          have unowned := World.perform_acquire performed
          have held := orderly.holding id _ runs compiler
          rw [unowned, if_neg nofun] at held
          exact List.count_eq_zero.mp held
  | _ => trivial

/-! ### What a step does to the compilers that tasks have -/

/-- A task begins runs only of compilers that are there. -/
theorem lt_of_acquire {compiler : CompilerId} (orderly : machine.Orderly events)
    (step : machine.Step id (some (.op (.acquire compiler) ())) after) :
    compiler < machine.world.compilers.length := by
  rcases (orderly.permits step).2 with called | ⟨-, book, held, rfl⟩
  · exact orderly.admitted id compiler (.inl called)
  · exact (orderly.kept id book.session book.compiler
      (.inr (by rw [Standing.driven, held]; rfl))).2.2

/-- A task that makes an operation has by its standing what it has afterwards. -/
theorem count_self {operation : Op S} {reply : operation.Reply} (orderly : machine.Orderly events)
    (step : machine.Step id (some (.op operation reply)) after) (compiler : CompilerId) :
    ((standingOf events id).holdsAfter operation).count compiler =
      if machine.world.ownerAfter id compiler operation = some id then 1 else 0 := by
  obtain ⟨program, runs⟩ := step.runs
  have held := orderly.holding id program runs
  cases operation with
  | acquire taken =>
      have there := orderly.lt_of_acquire step
      have free := List.count_eq_zero.mpr (orderly.expects step)
      rw [Standing.holdsAfter]
      by_cases same : taken = compiler
      · obtain rfl := same
        have owned : machine.world.ownerAfter id taken (.acquire taken : Op S) = some id :=
          if_pos ⟨rfl, there⟩
        rw [List.count_cons_self, free, if_pos owned]
      · have kept : machine.world.ownerAfter id compiler (.acquire taken : Op S) =
            (machine.world.compiler compiler).owner := if_neg fun here => same here.1
        rw [List.count_cons_of_ne same, kept, held]
  | release given =>
      rw [Standing.holdsAfter]
      by_cases same : given = compiler
      · obtain rfl := same
        have freed : machine.world.ownerAfter id given (.release given : Op S) = none := if_pos rfl
        rw [List.count_erase_self, freed, held]
        split <;> rfl
      · have kept : machine.world.ownerAfter id compiler (.release given : Op S) =
            (machine.world.compiler compiler).owner := if_neg same
        rw [List.count_erase_of_ne (Ne.symm same), kept, held]
  | _ => exact held compiler

/-- An operation does not change what others are the owners of. -/
theorem ownerAfter_iff {operation : Op S} {reply : operation.Reply}
    (orderly : machine.Orderly events)
    (step : machine.Step id (some (.op operation reply)) after) {task : TaskId}
    (different : task ≠ id) (compiler : CompilerId) :
    machine.world.ownerAfter id compiler operation = some task ↔
      (machine.world.compiler compiler).owner = some task := by
  obtain ⟨program, runs⟩ := step.runs
  cases operation with
  | acquire taken =>
      have unowned : (machine.world.compiler taken).owner = none := by
        cases step with
        | op _ performed => exact World.perform_acquire performed
      rw [World.ownerAfter]
      split
      · rename_i here
        rw [← here.1, unowned]
        simpa using Ne.symm different
      · exact Iff.rfl
  | release given =>
      rw [World.ownerAfter]
      split
      · rename_i same
        obtain rfl := same
        have held := orderly.holding id program runs given
        have mine : (machine.world.compiler given).owner = some id := by
          by_contra other
          rw [if_neg other] at held
          exact List.count_eq_zero.mp held (orderly.permits step).2.1
        rw [mine]
        simpa using Ne.symm different
      · exact Iff.rfl
  | _ => exact Iff.rfl

/-- No compiler is made with an owner. -/
theorem unowned {operation : Op S} {reply : operation.Reply} (orderly : machine.Orderly events)
    (step : machine.Step id (some (.op operation reply)) after) :
    ∀ record, operation = .createCompiler record → record.owner = none := by
  rintro record rfl
  exact (orderly.permits step).2

theorem holding_op {operation : Op S} {reply : operation.Reply} (orderly : machine.Orderly events)
    (tidy : start.Tidy) (trace : start.Trace events machine)
    (step : machine.Step id (some (.op operation reply)) after) {task : TaskId}
    {program : Prog S (Compiler.Next S)} (found : after.program? task = some program)
    (compiler : CompilerId) :
    (standingOf (events ++ [(id, .op operation reply)]) task).holds.count compiler =
      if machine.world.ownerAfter id compiler operation = some task then 1 else 0 := by
  rcases standingOf_step tidy trace step task with
    ⟨rfl, now⟩ | ⟨job, same, rfl, -, now⟩ | ⟨other, unspawned, now⟩
  · rw [now]
    exact orderly.count_self step compiler
  · cases same
    have fresh : (machine.world.compiler compiler).owner ≠ some machine.world.nextTask :=
      fun owned => Nat.lt_irrefl _ (orderly.owners compiler _ owned)
    rw [now]
    have nothing : (Standing.entry job).holds = [] := by cases job <;> rfl
    rw [nothing]
    exact (if_neg fresh).symm
  · rw [now]
    rcases (tidy.trace trace).program?_cases step found with rfl | ⟨job, same, -⟩ | ⟨-, held⟩
    · exact absurd rfl other
    · exact absurd (Option.some.inj same) (unspawned job)
    · rw [orderly.holding task program held]
      simp only [orderly.ownerAfter_iff step other]

/-! ### What a step does to the keepers of sessions -/

/-- Whoever keeps a session after an operation kept it before and has not given it away, has
opened it now, or is the driver that it is given to. -/
theorem keeps_op {operation : Op S} {reply : operation.Reply} (orderly : machine.Orderly events)
    (tidy : start.Tidy) (trace : start.Trace events machine)
    (step : machine.Step id (some (.op operation reply)) after) {task : TaskId}
    {session : SessionId} {compiler : CompilerId}
    (keeps : (standingOf (events ++ [(id, .op operation reply)]) task).Keeps session compiler) :
    ((standingOf events task).Keeps session compiler ∧ ∀ stage driver,
      operation = .spawn (.drive stage driver) → task = id → driver.session ≠ session) ∨
    (task = id ∧ Event.op operation reply = .op (.openSession compiler) session ∧
      (standingOf events id).Admits compiler) ∨
    ∃ stage driver, Event.op operation reply = .op (.spawn (.drive stage driver)) task ∧
      driver.session = session ∧
      (standingOf events id).opening = some (.opened compiler session) := by
  rcases standingOf_step tidy trace step task with
    ⟨rfl, now⟩ | ⟨job, same, -, -, now⟩ | ⟨other, -, now⟩
  · rw [now] at keeps
    rcases keeps with opened | driven
    · rcases Standing.opened_after opened with ⟨before, unspawned⟩ | same
      · exact .inl ⟨.inl before, fun stage driver spawns => absurd spawns (unspawned stage driver)⟩
      · cases same
        exact .inr (.inl ⟨rfl, rfl, .inr (orderly.permits step).2⟩)
    · have before : (standingOf events task).driven = some (session, compiler) :=
        (Standing.driven_after _ _ _).symm.trans driven
      refine .inl ⟨.inr before, ?_⟩
      rintro stage driver rfl - rfl
      exact orderly.apart task _ _ _ (orderly.permits step).2.1 before
  · rw [now] at keeps
    cases same
    cases job with
    | drive stage driver =>
        obtain ⟨opened, -⟩ := (orderly.permits step).2
        rcases keeps with opening | driven
        · cases opening
        · cases driven
          exact .inr (.inr ⟨stage, driver, rfl, rfl, opened⟩)
    | run | phases | watchPhases => rcases keeps with same | same <;> cases same
  · rw [now] at keeps
    exact .inl ⟨keeps, fun _ _ _ same => absurd same other⟩

theorem kept_op {operation : Op S} {reply : operation.Reply} (orderly : machine.Orderly events)
    (tidy : start.Tidy) (trace : start.Trace events machine)
    (step : machine.Step id (some (.op operation reply)) after) {task : TaskId}
    {session : SessionId} {compiler : CompilerId}
    (keeps : (standingOf (events ++ [(id, .op operation reply)]) task).Keeps session compiler) :
    session < after.world.sessions.length ∧
      (after.world.session session).compiler = compiler ∧
      compiler < after.world.compilers.length := by
  have carried : ∀ task, (standingOf events task).Keeps session compiler →
      session < after.world.sessions.length ∧
        (after.world.session session).compiler = compiler ∧
        compiler < after.world.compilers.length := by
    intro task before
    obtain ⟨there, same, known⟩ := orderly.kept task session compiler before
    cases step with
    | op runs performed =>
        have grows := World.perform_grows performed
        exact ⟨Nat.lt_of_lt_of_le there grows.sessions, (grows.kept session there).trans same,
          Nat.lt_of_lt_of_le known grows.compilers⟩
  rcases orderly.keeps_op tidy trace step keeps with
    ⟨before, -⟩ | ⟨-, same, admits⟩ | ⟨stage, driver, same, rfl, opened⟩
  · exact carried task before
  · cases same
    have known := orderly.admitted id compiler admits
    cases step with
    | op runs performed =>
        have grows := World.perform_grows performed
        have longer : _ = machine.world.sessions.length + 1 :=
          World.perform_sessions_length performed
        cases performed
        exact ⟨Nat.lt_of_lt_of_eq (Nat.lt_succ_self _) longer.symm, congrArg Session.compiler (World.session_opened compiler),
          Nat.lt_of_lt_of_le known grows.compilers⟩
  · exact carried id (.inl opened)

theorem sole_op {operation : Op S} {reply : operation.Reply} (orderly : machine.Orderly events)
    (tidy : start.Tidy) (trace : start.Trace events machine)
    (step : machine.Step id (some (.op operation reply)) after) {task other : TaskId}
    {session : SessionId} {compiler same : CompilerId}
    (keeps : (standingOf (events ++ [(id, .op operation reply)]) task).Keeps session compiler)
    (also_ : (standingOf (events ++ [(id, .op operation reply)]) other).Keeps session same) :
    task = other := by
  -- A session that is opened now was kept by nobody.
  have fresh : ∀ {task : TaskId} {compiler same : CompilerId},
      (standingOf events task).Keeps session compiler →
      Event.op operation reply ≠ .op (.openSession same) session := by
    rintro task compiler same before opened
    cases opened
    cases step with
    | op runs performed =>
        cases performed
        exact Nat.lt_irrefl _ (orderly.kept task _ compiler before).1
  -- A session that is given to a driver is kept by nobody else any more.
  have given : ∀ {task worker : TaskId} {compiler same : CompilerId} {stage driver},
      (standingOf events task).Keeps session compiler →
      (∀ stage driver, operation = .spawn (.drive stage driver) → task = id →
        driver.session ≠ session) →
      Event.op operation reply = .op (.spawn (.drive stage driver)) worker →
      driver.session = session →
      (standingOf events id).opening ≠ some (.opened same session) := by
    rintro task worker compiler same stage driver before kept spawned rfl opened
    cases spawned
    exact kept stage driver rfl (orderly.sole task id _ _ _ before (.inl opened)) rfl
  rcases orderly.keeps_op tidy trace step keeps with
      ⟨before, kept⟩ | ⟨rfl, opened, -⟩ | ⟨stage, driver, spawned, named, opened⟩ <;>
    rcases orderly.keeps_op tidy trace step also_ with
      ⟨otherBefore, otherKept⟩ | ⟨rfl, otherOpened, -⟩ |
      ⟨otherStage, otherDriver, otherSpawned, otherNamed, otherOpened⟩
  · exact orderly.sole task other session compiler same before otherBefore
  · exact absurd otherOpened (fresh before)
  · exact absurd otherOpened (given before kept otherSpawned otherNamed)
  · exact absurd opened (fresh otherBefore)
  · rfl
  · cases opened.symm.trans otherSpawned
  · exact absurd opened (given otherBefore otherKept spawned named)
  · cases spawned.symm.trans otherOpened
  · cases spawned
    cases otherSpawned
    rfl

theorem apart_op {operation : Op S} {reply : operation.Reply} (orderly : machine.Orderly events)
    (tidy : start.Tidy) (trace : start.Trace events machine)
    (step : machine.Step id (some (.op operation reply)) after) {task : TaskId}
    {session : SessionId} {compiler same : CompilerId}
    (opened : (standingOf (events ++ [(id, .op operation reply)]) task).opening =
      some (.opened compiler session)) :
    (standingOf (events ++ [(id, .op operation reply)]) task).driven ≠ some (session, same) := by
  rcases standingOf_step tidy trace step task with
    ⟨rfl, now⟩ | ⟨job, -, -, -, now⟩ | ⟨other, -, now⟩
  · rw [now] at opened ⊢
    intro driven
    have before : (standingOf events task).driven = some (session, same) :=
      (Standing.driven_after _ _ _).symm.trans driven
    rcases Standing.opened_after opened with ⟨earlier, -⟩ | opens
    · exact orderly.apart task session compiler same earlier before
    · cases opens
      cases step with
      | op runs performed =>
          cases performed
          exact Nat.lt_irrefl _ (orderly.kept task _ same (.inr before)).1
  · rw [now] at opened
    cases job <;> cases opened
  · rw [now] at opened ⊢
    exact orderly.apart task session compiler same opened

theorem admitted_op {operation : Op S} {reply : operation.Reply} (orderly : machine.Orderly events)
    (tidy : start.Tidy) (trace : start.Trace events machine)
    (step : machine.Step id (some (.op operation reply)) after) {task : TaskId}
    {compiler : CompilerId}
    (admits : (standingOf (events ++ [(id, .op operation reply)]) task).Admits compiler) :
    compiler < after.world.compilers.length := by
  have carried : ∀ task, (standingOf events task).Admits compiler →
      compiler < after.world.compilers.length := by
    intro task before
    cases step with
    | op runs performed =>
        exact Nat.lt_of_lt_of_le (orderly.admitted task compiler before)
          (World.perform_grows performed).compilers
  rcases standingOf_step tidy trace step task with
    ⟨rfl, now⟩ | ⟨job, same, -, -, now⟩ | ⟨other, -, now⟩
  · rw [now] at admits
    rcases Standing.admits_after admits with before | ⟨transition, shifted⟩
    · exact carried task before
    · cases shifted
      cases step with
      | op runs performed =>
          rcases World.perform_shift performed with ⟨refused, -⟩ | ⟨_, -, -, inside, rfl⟩
          · cases refused
          · exact Nat.lt_of_lt_of_le inside (World.perform_grows performed).compilers
  · rw [now] at admits
    cases same
    cases job with
    | run called callback =>
        rcases admits with called | admitted
        · cases called
          exact carried id (.inl (orderly.permits step).2)
        · cases admitted
    | phases | watchPhases | drive => rcases admits with same | same <;> cases same
  · rw [now] at admits
    exact carried task admits

theorem drivers_op {operation : Op S} {reply : operation.Reply} (orderly : machine.Orderly events)
    (tidy : start.Tidy) (trace : start.Trace events machine)
    (step : machine.Step id (some (.op operation reply)) after) (task : TaskId) :
    after.world.drivers.get? task =
      (standingOf (events ++ [(id, .op operation reply)]) task).driven.map Prod.fst := by
  have drivers : after.world.drivers = machine.world.driversAfter operation := by
    cases step with
    | op runs performed =>
        have changed := World.perform_drivers performed
        exact changed
  have unspawned : (∀ stage driver, operation ≠ .spawn (.drive stage driver)) →
      after.world.drivers = machine.world.drivers := by
    intro others
    rw [drivers, World.driversAfter]
    exact others
  have inserted : ∀ {stage driver}, operation = .spawn (.drive stage driver) →
      after.world.drivers.get? task =
        if task = machine.world.nextTask then some driver.session
        else machine.world.drivers.get? task := by
    rintro stage driver rfl
    rw [drivers, World.driversAfter, Table.get?_insert]
    simp
  rcases standingOf_step tidy trace step task with
    ⟨rfl, now⟩ | ⟨job, same, new, -, now⟩ | ⟨other, others, now⟩
  · have old : task ≠ machine.world.nextTask := by
      obtain ⟨program, runs⟩ := step.runs
      exact Nat.ne_of_lt ((tidy.trace trace).below task program runs)
    rw [now]
    change _ = ((standingOf events task).after operation reply).driven.map Prod.fst
    rw [Standing.driven_after, ← orderly.drivers task]
    by_cases spawns : ∃ stage driver, operation = .spawn (.drive stage driver)
    · obtain ⟨stage, driver, same⟩ := spawns
      rw [inserted same, if_neg old]
    · rw [unspawned fun stage driver same => spawns ⟨stage, driver, same⟩]
  · cases same
    rw [now]
    cases job with
    | drive stage driver =>
        rw [inserted rfl, if_pos new]
        rfl
    | run | phases | watchPhases =>
        rw [unspawned nofun, orderly.drivers, orderly.unborn task (Nat.le_of_eq new.symm)]
        rfl
  · rw [now]
    by_cases spawns : ∃ stage driver, operation = .spawn (.drive stage driver)
    · obtain ⟨stage, driver, rfl⟩ := spawns
      have old : task ≠ machine.world.nextTask := by
        rintro rfl
        exact others _ (by rw [((tidy.trace trace).program?_spawned step).1])
      rw [inserted rfl, if_neg old, orderly.drivers]
    · rw [unspawned fun stage driver same => spawns ⟨stage, driver, same⟩, orderly.drivers]

/-! ### Steps and traces -/

theorem op {operation : Op S} {reply : operation.Reply} {panics : Prop} (hosts : E.Hosts panics)
    (orderly : machine.Orderly events) (tidy : start.Tidy) (trace : start.Trace events machine)
    (step : machine.Step id (some (.op operation reply)) after) :
    after.Orderly (events ++ [(id, .op operation reply)]) where
  abides := orderly.abides.step (protocol_governs hosts) tidy trace step
    fun _ _ same => by cases same; exact orderly.expects step
  unborn task late := by
    have old : machine.world.nextTask ≤ task := Nat.le_trans step.nextTask_le late
    rcases standingOf_step tidy trace step task with
      ⟨rfl, -⟩ | ⟨job, same, -, -, -⟩ | ⟨-, -, now⟩
    · obtain ⟨program, runs⟩ := step.runs
      exact absurd ((tidy.trace trace).below task program runs) (Nat.not_lt.mpr old)
    · cases same
      obtain ⟨-, -, begun⟩ := (tidy.trace trace).program?_spawned step
      exact absurd (((tidy.trace trace).step step).below task _ begun) (Nat.not_lt.mpr late)
    · exact now.trans (orderly.unborn task old)
  holding task program found compiler := by
    rw [orderly.holding_op tidy trace step found compiler]
    have owners : (after.world.compiler compiler).owner =
        machine.world.ownerAfter id compiler operation := by
      have unowned := orderly.unowned step
      cases step with
      | op runs performed =>
          have changed := World.perform_owner unowned performed compiler
          exact changed
    rw [owners]
  owners compiler task owned := by
    have unowned := orderly.unowned step
    refine Nat.lt_of_lt_of_le ?_ step.nextTask_le
    by_cases self : task = id
    · obtain ⟨program, runs⟩ := step.runs
      exact self ▸ (tidy.trace trace).below id program runs
    · refine orderly.owners compiler task ((orderly.ownerAfter_iff step self compiler).mp ?_)
      cases step with
      | op runs performed =>
          have changed := World.perform_owner unowned performed compiler
          exact changed.symm.trans owned
  admitted _ _ admits := orderly.admitted_op tidy trace step admits
  kept _ _ _ keeps := orderly.kept_op tidy trace step keeps
  sole _ _ _ _ _ keeps also_ := orderly.sole_op tidy trace step keeps also_
  apart _ _ _ _ opened := orderly.apart_op tidy trace step opened
  drivers task := orderly.drivers_op tidy trace step task

/-- Nothing of what tasks have or keep has changed, apart from what a task that is over had. -/
theorem frame {later : List (TaskId × Event S)} (orderly : machine.Orderly events)
    (abides : after.Abides (protocol S) later)
    (standings : ∀ task,
      (standingOf later task).holds = (standingOf events task).holds ∧
      (standingOf later task).opening = (standingOf events task).opening ∧
      (standingOf later task).driven = (standingOf events task).driven)
    (unborn : ∀ task, machine.world.nextTask ≤ task → standingOf later task = {})
    (alive : ∀ task program, after.program? task = some program →
      (∃ program, machine.program? task = some program) ∧ ∀ compiler,
        (after.world.compiler compiler).owner = some task ↔
          (machine.world.compiler compiler).owner = some task)
    (owners : ∀ compiler task, (after.world.compiler compiler).owner = some task →
      (machine.world.compiler compiler).owner = some task)
    (nextTask : after.world.nextTask = machine.world.nextTask)
    (grows : machine.world.Grows after.world)
    (drivers : after.world.drivers = machine.world.drivers) : after.Orderly later := by
  have keeps : ∀ {task session compiler}, (standingOf later task).Keeps session compiler →
      (standingOf events task).Keeps session compiler := by
    intro task session compiler kept
    rwa [Standing.Keeps, (standings task).2.1, (standings task).2.2] at kept
  exact
    { abides
      unborn := fun task late => unborn task (nextTask ▸ late)
      holding := fun task program found compiler => by
        obtain ⟨⟨earlier, held⟩, same⟩ := alive task program found
        rw [(standings task).1, orderly.holding task earlier held]
        simp only [same compiler]
      owners := fun compiler task owned =>
        nextTask.symm ▸ orderly.owners compiler task (owners compiler task owned)
      admitted := fun task compiler admits => by
        rw [Standing.Admits, (standings task).2.1] at admits
        exact Nat.lt_of_lt_of_le (orderly.admitted task compiler admits) grows.compilers
      kept := fun task session compiler kept => by
        obtain ⟨there, same, known⟩ := orderly.kept task session compiler (keeps kept)
        exact ⟨Nat.lt_of_lt_of_le there grows.sessions, (grows.kept session there).trans same,
          Nat.lt_of_lt_of_le known grows.compilers⟩
      sole := fun task other session compiler same kept also_ =>
        orderly.sole task other session compiler same (keeps kept) (keeps also_)
      apart := fun task session compiler same opened => by
        rw [(standings task).2.1] at opened
        rw [(standings task).2.2]
        exact orderly.apart task session compiler same opened
      drivers := fun task => by
        rw [drivers, (standings task).2.2]
        exact orderly.drivers task }

/-- What is shared has not changed, but for the jobs that have begun. -/
theorem frame_of_world {later : List (TaskId × Event S)} {spawned : List (TaskId × Job S)}
    (orderly : machine.Orderly events) (abides : after.Abides (protocol S) later)
    (standings : ∀ task,
      (standingOf later task).holds = (standingOf events task).holds ∧
      (standingOf later task).opening = (standingOf events task).opening ∧
      (standingOf later task).driven = (standingOf events task).driven)
    (unborn : ∀ task, machine.world.nextTask ≤ task → standingOf later task = {})
    (alive : ∀ task program, after.program? task = some program →
      ∃ program, machine.program? task = some program)
    (world : after.world = { machine.world with spawned }) : after.Orderly later := by
  have owners : ∀ compiler, (after.world.compiler compiler).owner =
      (machine.world.compiler compiler).owner := fun compiler => by rw [world]; rfl
  refine orderly.frame abides standings unborn
    (fun task program found => ⟨alive task program found, fun compiler => by rw [owners compiler]⟩)
    (fun compiler task owned => (owners compiler).symm.trans owned) (by rw [world])
    ⟨Nat.le_of_eq (by rw [world]), Nat.le_of_eq (by rw [world]), fun id _ => by rw [world]; rfl⟩
    (by rw [world])

variable {panics : Prop} (hosts : E.Hosts panics)

include hosts in
theorem call {outside : Call S} (orderly : machine.Orderly events) (tidy : start.Tidy)
    (trace : start.Trace events machine) (step : machine.Step id (some (.call outside)) after) :
    after.Orderly (events ++ [(id, .call outside)]) := by
  have ready := tidy.trace trace
  have abides := orderly.abides.step (protocol_governs hosts) tidy trace step
    fun _ _ same => nomatch same
  have stands := standingOf_step tidy trace step
  have world : after.world = { machine.world with spawned := [] } := by
    cases step with
    | call runs => rfl
  cases step with
  | call runs =>
      refine orderly.frame_of_world abides (fun task => ?_) (fun task late => ?_)
        (fun task program found => ?_) world
      · rcases stands task with ⟨rfl, now⟩ | ⟨job, same, -⟩ | ⟨-, -, now⟩
        · rw [now]
          exact ⟨Standing.holds_duringCall _ _, Standing.opening_duringCall _ _,
            Standing.driven_duringCall _ _⟩
        · cases same
        · rw [now]
          exact ⟨rfl, rfl, rfl⟩
      · rcases stands task with ⟨rfl, -⟩ | ⟨job, same, -⟩ | ⟨-, -, now⟩
        · exact absurd (ready.below task _ runs) (Nat.not_lt.mpr late)
        · cases same
        · exact now.trans (orderly.unborn task late)
      · rw [ready.program?_moved runs] at found
        split at found
        · rename_i self
          exact ⟨_, self ▸ runs⟩
        · exact ⟨program, found⟩

include hosts in
theorem request {wish : S.Request} {answer : S.Answer wish} (orderly : machine.Orderly events)
    (tidy : start.Tidy) (trace : start.Trace events machine)
    (step : machine.Step id (some (.request wish answer)) after) :
    after.Orderly (events ++ [(id, .request wish answer)]) := by
  have ready := tidy.trace trace
  have abides := orderly.abides.step (protocol_governs hosts) tidy trace step
    fun _ _ same => nomatch same
  have stands := standingOf_step tidy trace step
  have kept : ∀ task, standingOf (events ++ [(id, .request wish answer)]) task =
      standingOf events task := by
    intro task
    rcases stands task with ⟨rfl, now⟩ | ⟨job, same, -⟩ | ⟨-, -, now⟩
    · exact now
    · cases same
    · exact now
  have world : after.world = { machine.world with spawned := [] } := by
    cases step with
    | request runs => rfl
  cases step with
  | @request _ _ _ state runs _ =>
      refine orderly.frame_of_world abides (fun task => ?_) (fun task late => ?_)
        (fun task program found => ?_) world
      · rw [kept]
        exact ⟨rfl, rfl, rfl⟩
      · exact (kept task).trans (orderly.unborn task late)
      · rw [(ready.with_state state).program?_moved runs] at found
        split at found
        · rename_i self
          exact ⟨_, self ▸ runs⟩
        · exact ⟨program, found⟩

include hosts in
theorem unseen (orderly : machine.Orderly events) (tidy : machine.Tidy)
    (step : machine.Step id none after) : after.Orderly events := by
  have abides := orderly.abides.step_unseen (protocol_governs hosts) tidy step
  have standings : ∀ task,
      (standingOf events task).holds = (standingOf events task).holds ∧
      (standingOf events task).opening = (standingOf events task).opening ∧
      (standingOf events task).driven = (standingOf events task).driven := fun _ => ⟨rfl, rfl, rfl⟩
  cases step with
  | @turn job runs =>
      have world : (machine.replace id (Compiler.program job)).world =
          { machine.world with spawned := machine.world.spawned } := rfl
      refine orderly.frame_of_world abides standings orderly.unborn
        (fun task program found => ?_) world
      rw [program?_replace runs] at found
      split at found
      · rename_i self
        exact ⟨_, self ▸ runs⟩
      · exact ⟨program, found⟩
  | finish runs =>
      have world : (machine.remove id).world =
          { machine.world with spawned := machine.world.spawned } := rfl
      refine orderly.frame_of_world abides standings orderly.unborn
        (fun task program found => ?_) world
      rw [program?_remove] at found
      split at found
      · cases found
      · exact ⟨program, found⟩
  | crash runs =>
      refine orderly.frame abides standings orderly.unborn (fun task program found => ?_)
        (fun compiler task owned => ?_) (crash_frame machine.world id).2
        (World.crash_grows machine.world id) (World.crash_drivers machine.world id)
      · change (machine.remove id).program? task = some program at found
        rw [program?_remove] at found
        split at found
        · cases found
        · rename_i different
          refine ⟨⟨program, found⟩, fun compiler => ?_⟩
          change ((machine.world.crash id).compiler compiler).owner = some task ↔ _
          rw [World.crash_owner]
          split
          · rename_i owned
            rw [owned]
            simpa using Ne.symm different
          · exact Iff.rfl
      · change ((machine.world.crash id).compiler compiler).owner = some task at owned
        rw [World.crash_owner] at owned
        split at owned
        · cases owned
        · exact owned

end Orderly

/-- Visitors begin where the protocol begins. -/
theorem Vacant.orderly {machine : Machine E} {panics : Prop} (vacant : machine.Vacant panics) :
    machine.Orderly [] where
  abides task program found := by
    obtain ⟨code, visitor, rfl⟩ := vacant.visitors task program found
    exact .after_minds (Compiler.visitor_minds visitor Standing.settled_empty) fun _ =>
      .done Standing.ends_empty
  unborn _ _ := rfl
  holding task program _ compiler := by
    have unowned := vacant.unowned compiler
    rw [unowned]
    rfl
  owners compiler task owned := by
    rw [vacant.unowned compiler] at owned
    cases owned
  admitted _ _ admits := by rcases admits with same | same <;> cases same
  kept _ _ _ keeps := by rcases keeps with same | same <;> cases same
  sole _ _ _ _ _ keeps := by rcases keeps with same | same <;> cases same
  apart _ _ _ _ opened := nomatch opened
  drivers task := vacant.noDrivers task

/-- Every execution from a vacant machine is orderly. -/
theorem Trace.orderly {start machine : Machine E} {events : List (TaskId × Event S)}
    {panics : Prop} (trace : start.Trace events machine) (vacant : start.Vacant panics)
    (hosts : E.Hosts panics) : machine.Orderly events := by
  induction trace with
  | start => exact vacant.orderly
  | @seen events machine id event after before step ih =>
      cases event with
      | op operation reply => exact Orderly.op hosts ih vacant.tidy before step
      | call outside => exact Orderly.call hosts ih vacant.tidy before step
      | request wish answer => exact Orderly.request hosts ih vacant.tidy before step
  | unseen before step ih => exact Orderly.unseen hosts ih (vacant.tidy.trace before) step

end Machine

end Bundler
