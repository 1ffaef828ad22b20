import Bundler.Proofs.Compiler.ChangeDelivery
import Bundler.Proofs.Compiler.CloseSequence
import Bundler.Proofs.Compiler.Holders
import Bundler.Proofs.Compiler.SessionClosing

/-!
# The close of a session in executions

What holds of a session in every execution in which nothing panics: its phase only goes
forward, its driver does everything at the right moment, closes it once and leaves no
subscription behind, and the compiler is in watch mode from the start of the session until its
close.
-/

namespace Bundler

variable {S : Setting} {E : Environment S}

/-! ## What a task does itself -/

/-- What a task did itself, as its events show it: all that it did is good, and if it is in the
middle of a call, that call is good as well, whatever it will be answered. -/
def Conducts (E : Environment S) (good : Compiler.History S → Prop) (events : List (Event S)) :
    Prop :=
  (∃ history, Expands E history events ∧ good history) ∨
  ∃ history seen outside inner code, events = seen ++ .call outside :: inner ∧
    Expands E history seen ∧ (E.answer outside).Follows E inner code ∧
    ∀ reply, good (history ++ [.call outside reply])

theorem Environment.Regular.avoids (regular : E.Regular) (outside : Call S) :
    (E.answer outside).Avoids fun operation => ¬ operation.OfClient := (regular outside).avoids

/-- Every account of a task is one of what it did itself. -/
theorem Accounts.conducts {job : Job S} {events : List (Event S)}
    {left : Option (Prog S (Compiler.Next S))} {good : Compiler.History S → Prop}
    (accounts : Accounts E job events left) (regular : E.Regular)
    (goods : ∀ history left, Compiler.Course job history left →
      (∀ operation reply, ¬ operation.OfClient →
        (.op operation reply ∈ events ↔ .op operation reply ∈ history)) → good history) :
    Conducts E good events := by
  cases accounts with
  | between course expands =>
      exact .inl ⟨_, expands, goods _ _ course fun _ _ own => expands.mem_op regular.avoids own⟩
  | finish course expands =>
      exact .inl ⟨_, expands, goods _ _ course fun _ _ own => expands.mem_op regular.avoids own⟩
  | @calling history seen outside next inner code course expands follows =>
      refine .inr ⟨history, seen, outside, inner, code, rfl, expands, follows, fun reply => ?_⟩
      refine goods _ _ (course.extend (.call (.start _))) fun operation reply own => ?_
      have unmade : .op operation reply ∉ inner := fun member =>
        ((regular.avoids outside).follows regular.avoids follows).2 operation reply member own
      simp [unmade, expands.mem_op regular.avoids own]

namespace Compiler.History

/-- Who has closed a part of a session has shut it. -/
theorem Closed.shut {session : SessionId} {compiler : CompilerId} {history more : History S}
    (closed : Closed session compiler (history ++ more)) :
    Open history ∨ ∃ left, .op (.shut session) left ∈ history := by
  obtain ⟨before, held, left, ended, fired, ending, waiting, after, same, -, -, early, -⟩ := closed
  have quiet : Open (before ++ held.toList.map fun subscription =>
      (.call (.unsubscribe subscription) () : Deed S)) := by
    refine early.append fun deed member => ?_
    obtain ⟨subscription, -, rfl⟩ := List.mem_map.mp member
    exact id
  rw [closeSequence, List.append_assoc, List.cons_append, ← List.append_assoc] at same
  rcases List.append_eq_append_iff.mp same with ⟨gap, whole, -⟩ | ⟨gap, rfl, rest⟩
  · rw [whole] at quiet
    exact .inl quiet.of_append
  · cases gap with
    | nil => exact .inl (by rwa [List.append_nil])
    | cons deed gap =>
        obtain ⟨rfl, -⟩ := List.cons.inj rest
        exact .inr ⟨left, List.mem_append_right _ (.head _)⟩

/-- What a driver has done in a session of this phase: everything was right, and it has closed
nothing yet, or is in or after the one close sequence of the session. -/
structure Proper (session : SessionId) (compiler : CompilerId) (phase : SessionPhase)
    (history : History S) : Prop where
  sane : Sane session history
  unclosed : phase ≠ .closed → Open history
  closed : phase = .closed → ∃ more, Closed session compiler (history ++ more)

end Compiler.History

/-! ## Phases -/

namespace SessionView

variable {panics : Prop} {id : SessionId} {compiler : CompilerId} {events : Events S}
  {view : SessionView S}

/-- A session is closed when its driver has shut it. -/
theorem Life.closed_iff (life : Life panics id compiler events view) :
    view.session.phase = .closed ↔ ∃ left, (true, .op (.shut id) left) ∈ events := by
  induction life with
  | opened => simp [SessionView.opened]
  | seen before step ih =>
      cases step with
      | @op operation reply session alive allowed expected moves =>
          rw [moves.closed_iff, ih]
          constructor
          · rintro (⟨left, member⟩ | rfl)
            · exact ⟨left, List.mem_append_left _ member⟩
            · exact ⟨reply, List.mem_append_right _ (.head _)⟩
          · rintro ⟨left, member⟩
            rcases List.mem_append.mp member with member | member
            · exact .inl ⟨left, member⟩
            · cases List.mem_singleton.mp member
              exact .inr rfl
      | @visit operation reply session open_ moves =>
          rw [moves.closed_iff, ih]
          have unshut : operation ≠ .shut id := by
            rintro rfl
            exact open_ rfl
          simp [unshut]
      | call | request | visitCall | visitRequest => simpa using ih
  | unseen before step ih =>
      cases step with
      | finish | crash => exact ih

end SessionView

namespace Machine

variable {start machine after : Machine E} {events life : List (TaskId × Event S)}
  {task : TaskId} {session : SessionId} {compiler : CompilerId} {panics : Prop}

/-- The phase of a session never goes back. -/
theorem Trace.rank_le (trace : start.Trace events machine)
    (there : session < start.world.sessions.length) :
    (start.world.session session).phase.rank ≤ (machine.world.session session).phase.rank := by
  induction trace with
  | start => exact Nat.le_refl _
  | seen before step ih =>
      have inside := Nat.lt_of_lt_of_le there before.sessions_le
      refine Nat.le_trans ih ?_
      cases step with
      | op runs performed => exact (World.perform_moves inside performed).rank_le
      | call runs => exact Nat.le_refl _
      | request runs served => exact Nat.le_refl _
  | @unseen events machine id after before step ih =>
      have inside := Nat.lt_of_lt_of_le there before.sessions_le
      refine Nat.le_trans ih ?_
      cases step with
      | turn runs => exact Nat.le_refl _
      | finish runs => exact Nat.le_refl _
      | crash runs =>
          change _ ≤ ((machine.world.crash id).session session).phase.rank
          rw [World.crash_session machine.world id inside]
          split <;> exact Nat.le_refl _

/-! ## Watch mode -/

end Machine

namespace RunState

variable {state : RunState} {transition : Transition}

/-- Only the start of a session brings a compiler into watch mode. -/
theorem isWatching_after (unwatched : state.isWatching = false)
    (other : transition ≠ .beginWatch) : (state.after transition).isWatching = false := by
  cases state <;> cases transition <;> first | rfl | exact absurd rfl other | cases unwatched

/-- The end of a session leaves watch mode. -/
theorem isWatching_endWatch (state : RunState) :
    (state.after .endWatch).isWatching = false := by
  cases state with
  | watching activeRun => cases activeRun <;> rfl
  | _ => rfl

/-- What is accepted in watch mode begins nothing, and only the end of the session leaves it. -/
theorem accepted_watching (watching : state.isWatching = true)
    (accepted : (state.next? transition).isSome = true) :
    transition ≠ .beginRun ∧ transition ≠ .beginWatch ∧
      (transition ≠ .endWatch → (state.after transition).isWatching = true) := by
  cases state with
  | idle | running => cases watching
  | watching activeRun =>
      revert accepted
      cases transition <;> cases activeRun <;> decide

end RunState

namespace Machine

variable {start machine after : Machine E} {events life : List (TaskId × Event S)}
  {task : TaskId} {session : SessionId} {compiler : CompilerId} {panics : Prop}

/-- A compiler comes into watch mode only by the start of a session. -/
theorem Trace.watching_begun {past : List (TaskId × Event S)} {first : Machine E}
    (earlier : first.Trace past start) (trace : start.Trace events machine)
    (vacant : first.Vacant panics) (hosts : E.Hosts panics)
    (unwatched : (start.world.compiler compiler).state.isWatching = false) :
    (machine.world.compiler compiler).state.isWatching = false ∨
      ∃ starter, (starter, .op (.shift compiler .beginWatch) true) ∈ events := by
  induction trace with
  | start => exact .inl unwatched
  | @seen events machine id event after before step ih =>
      rcases ih with out | ⟨starter, begun⟩
      swap
      · exact .inr ⟨starter, List.mem_append_left _ begun⟩
      cases event with
      | op operation reply =>
          rw [((earlier.append before).tenured vacant hosts).stateAfter_op step]
          by_cases moved : ∃ transition, operation = .shift compiler transition
          · obtain ⟨transition, rfl⟩ := moved
            cases reply with
            | false => exact .inl out
            | true =>
                by_cases begins : transition = .beginWatch
                · subst begins
                  exact .inr ⟨id, List.mem_append_right _ (.head _)⟩
                · left
                  rw [show machine.world.stateAfter compiler (.shift compiler transition) true = _
                    from if_pos rfl]
                  exact RunState.isWatching_after out begins
          · rw [World.stateAfter_elsewhere reply fun transition same => moved ⟨transition, same⟩]
            exact .inl out
      | call outside =>
          cases step with
          | call runs => exact .inl out
      | request wish answer =>
          cases step with
          | request runs served => exact .inl out
  | @unseen events machine id after before step ih =>
      refine ih.imp_left fun out => ?_
      cases step with
      | turn runs => exact out
      | finish runs => exact out
      | crash runs =>
          change ((machine.world.crash id).compiler compiler).state.isWatching = false
          rwa [World.crash_state]

end Machine

/-- The compiler of what a task starts. -/
def Opening.compiler : Opening → CompilerId
  | called compiler => compiler
  | admitted compiler => compiler
  | opened compiler _ => compiler

namespace Machine

/-- A task has a compiler in watch mode, and starts nothing else with it. -/
structure Attends (events : List (TaskId × Event S)) (task : TaskId) (compiler : CompilerId) :
    Prop where
  watching : (tenureOf events task compiler).isWatching = true
  apart : ∀ opening, (standingOf events task).opening = some opening → opening.compiler ≠ compiler

section Attends

variable {start machine after : Machine E} {events life : List (TaskId × Event S)}
  {task id : TaskId} {session : SessionId} {compiler : CompilerId} {panics : Prop}

/-- An event after which a task has the same of a compiler and starts the same. -/
theorem Attends.kept {later : List (TaskId × Event S)} (attends : Attends events task compiler)
    (tenure : tenureOf later task compiler = tenureOf events task compiler)
    (opening : (standingOf later task).opening = (standingOf events task).opening ∨
      (standingOf later task).opening = none) : Attends later task compiler where
  watching := tenure ▸ attends.watching
  apart started known := by
    rcases opening with same | nothing
    · exact attends.apart started (same ▸ known)
    · exact nomatch nothing.symm.trans known

/-- What a driver does until it closes its session leaves the compiler in watch mode. -/
theorem Attends.own {event : Event S} (attends : Attends events task compiler)
    (orderly : machine.Orderly events) (tenured : machine.Tenured events) (tidy : start.Tidy)
    (trace : start.Trace events machine) (step : machine.Step task (some event) after)
    (unended : ∀ accepted, event ≠ .op (.shift compiler .endWatch) accepted) :
    Attends (events ++ [(task, event)]) task compiler := by
  have tenure : tenureOf (events ++ [(task, event)]) task =
      (tenancy S).note (tenureOf events task) event := statusOf_self tidy trace step
  have stands : standingOf (events ++ [(task, event)]) task =
      (standingOf events task).note event := statusOf_self tidy trace step
  cases event with
  | call outside =>
      refine attends.kept (congrFun tenure compiler) (.inl ?_)
      rw [stands]
      exact Standing.opening_duringCall _ _
  | request wish answer =>
      exact attends.kept (congrFun tenure compiler) (.inl (congrArg Standing.opening stands))
  | op operation reply =>
      have permits := (orderly.permits step).2
      have expects := tenured.expects step
      have opening : (standingOf (events ++ [(task, .op operation reply)]) task).opening =
          (standingOf events task).openingAfter operation reply := congrArg Standing.opening stands
      have has : tenureOf (events ++ [(task, .op operation reply)]) task compiler =
          (tenureOf events task).after operation reply compiler := congrFun tenure compiler
      cases operation with
      | shift other transition =>
          cases reply with
          | false => exact attends.kept has (.inl (by rw [opening]; cases transition <;> rfl))
          | true =>
              by_cases same : other = compiler
              · subst same
                have busy : tenureOf events task other ≠ .idle := fun idle => by
                  have watched := attends.watching
                  rw [idle] at watched
                  cases watched
                obtain ⟨noRun, noWatch, stays⟩ :=
                  RunState.accepted_watching attends.watching (expects busy).symm
                refine ⟨?_, fun started known => ?_⟩
                · rw [has, show (tenureOf events task).after (.shift other transition) true other = _
                    from Function.update_self ..]
                  refine stays ?_
                  rintro rfl
                  exact unended true rfl
                · refine attends.apart started ?_
                  rw [opening] at known
                  cases transition <;> first
                    | exact known
                    | exact absurd rfl noRun
                    | exact absurd rfl noWatch
              · have kept := has.trans (Function.update_of_ne (Ne.symm same) _ _)
                refine ⟨kept ▸ attends.watching, fun started known => ?_⟩
                rw [opening] at known
                cases transition <;> first
                  | exact attends.apart started known
                  | (obtain rfl := Option.some.inj known; exact same)
      | spawn job =>
          cases job with
          | run other callback =>
              have different : other ≠ compiler := attends.apart _ permits
              exact attends.kept (has.trans (Function.update_of_ne different.symm _ _)) (.inr opening)
          | drive stage driver =>
              have different : driver.compiler ≠ compiler := attends.apart _ permits.1
              exact attends.kept (has.trans (Function.update_of_ne different.symm _ _)) (.inr opening)
          | phases | watchPhases => exact attends.kept has (.inl opening)
      | openSession other =>
          have different : other ≠ compiler := attends.apart _ permits
          refine ⟨has ▸ attends.watching, fun started known => ?_⟩
          rw [opening] at known
          obtain rfl := Option.some.inj known
          exact different
      | acquire other => exact attends.kept has (.inr opening)
      | _ => exact attends.kept has (.inl opening)

/-- The compiler of a session is in watch mode as long as its driver has not ended that. -/
theorem Trace.attends {spawner : TaskId} {stage : DriverStage} {driver : Driver S}
    {past : List (TaskId × Event S)}
    (trace : start.Trace (past ++ (spawner, .op (.spawn (.drive stage driver)) task) :: life) machine)
    (vacant : start.Vacant panics) (hosts : E.Hosts panics)
    (unended : ∀ accepted, (task, .op (.shift driver.compiler .endWatch) accepted) ∉ life) :
    Attends (past ++ (spawner, .op (.spawn (.drive stage driver)) task) :: life) task
      driver.compiler := by
  obtain ⟨before, spawned, reached, made, onward⟩ := trace.split_at
  have whole := reached.seen made
  rw [← List.singleton_append, ← List.append_assoc]
  clear trace
  induction onward with
  | start =>
      have tenure : tenureOf _ task = Tenure.entry (.drive stage driver) :=
        statusOf_spawned vacant.tidy reached made
      have stands : standingOf _ task = Standing.entry (.drive stage driver) :=
        statusOf_spawned vacant.tidy reached made
      refine ⟨?_, fun opening known => ?_⟩
      · have watching : Tenure.entry (.drive stage driver) driver.compiler = .watching false :=
          Function.update_self ..
        rw [List.append_nil, tenure, watching]
        rfl
      · rw [List.append_nil, stands] at known
        cases known
  | @seen life machine id event after earlier step ih =>
      have trace := whole.append earlier
      have attends := ih fun accepted member => unended accepted (List.mem_append_left _ member)
      rw [← List.append_assoc]
      by_cases self : task = id
      · obtain rfl := self
        refine attends.own (trace.orderly vacant hosts) (trace.tenured vacant hosts) vacant.tidy trace
          step fun accepted same => unended accepted ?_
        exact List.mem_append_right _ (same ▸ .head _)
      · have old : task < machine.world.nextTask := vacant.tidy.spawned_lt trace
          (List.mem_append_left _ (List.mem_append_right _ (.head _)))
        have kept : ∀ D : Discipline S,
            statusOf D (past ++ [(spawner, .op (.spawn (.drive stage driver)) task)] ++ life ++
              [(id, event)]) task =
            statusOf D (past ++ [(spawner, .op (.spawn (.drive stage driver)) task)] ++ life) task := by
          intro D
          rcases statusOf_step (D := D) vacant.tidy trace step task with
            ⟨same, -⟩ | ⟨job, -, new, -, -⟩ | ⟨-, -, now⟩
          · exact absurd same self
          · exact absurd new (Nat.ne_of_lt old)
          · exact now
        exact attends.kept (congrFun (kept (tenancy S)) _)
          (.inl (congrArg Standing.opening (kept (protocol S))))
  | unseen earlier step ih => exact ih unended

end Attends

/-! ## The protocol -/

section Protocol

variable {start machine after : Machine E} {events life : List (TaskId × Event S)}
  {task spawner : TaskId} {session : SessionId} {compiler : CompilerId} {panics : Prop}
  {stage : DriverStage} {driver : Driver S}

open Compiler Compiler.History

/-- A task does nothing before it is spawned. -/
theorem Trace.eventsOf_unborn {past : List (TaskId × Event S)} {job : Job S}
    (trace : start.Trace (past ++ events) machine) (tidy : start.Tidy)
    (spawned : (spawner, .op (.spawn job) task) ∈ events) :
    eventsOf task (past ++ events) = eventsOf task events := by
  obtain ⟨first, rest, rfl⟩ := List.append_of_mem spawned
  rw [← List.append_assoc] at trace
  obtain ⟨before, after, reached, made, -⟩ := trace.split_at
  have new := ((tidy.trace reached).program?_spawned made).1
  have nothing : eventsOf task past = [] := by
    rw [List.eq_nil_iff_forall_not_mem]
    intro event member
    have begun := tidy.lt_nextTask reached (List.mem_append_left first (mem_eventsOf.mp member))
    exact absurd new (Nat.ne_of_lt begun)
  rw [eventsOf_append, nothing, List.nil_append]

/-- A driver begins with nothing to do for its session but a first run. -/
theorem Trace.initial_of_spawned (trace : start.Trace events machine) (vacant : start.Vacant panics)
    (hosts : E.Hosts panics) (spawned : (spawner, .op (.spawn (.drive stage driver)) task) ∈ events) :
    stage = .waiting ∧
      driver = { session := driver.session, compiler := driver.compiler,
                 options := driver.options, handler := driver.handler } := by
  obtain ⟨before, rest, rfl⟩ := List.append_of_mem spawned
  obtain ⟨first, second, begun, made⟩ := trace.split
  exact ((begun.orderly vacant hosts).permits made).2.2

/-- What becomes of a session in which nothing panics, as far as its life goes. -/
structure ClosesOnce (machine : Machine E) (session : SessionId) (compiler : CompilerId)
    (driver : TaskId) (life : List (TaskId × Event S)) : Prop where
  /-- All that the driver did itself was right at its moment, and it has not begun to close the
  session, or does so for the only time. -/
  conduct : Conducts E (Proper session compiler (machine.world.session session).phase)
    (eventsOf driver life)
  /-- A driver that is over has closed its session. -/
  closed : machine.program? driver = none →
    ∃ history, Expands E history (eventsOf driver life) ∧ Closed session compiler history
  /-- The phase never goes back. -/
  forward : ∀ more later, machine.Trace more later →
    (machine.world.session session).phase.rank ≤ (later.world.session session).phase.rank
  /-- The compiler is in watch mode until the close sequence. -/
  watched : (∀ accepted, (driver, .op (.shift compiler .endWatch) accepted) ∉ life) →
    (machine.world.compiler compiler).state.isWatching = true
  /-- From then on it is not, unless a new session was started. -/
  released : ∀ first accepted rest,
    life = first ++ (driver, .op (.shift compiler .endWatch) accepted) :: rest →
    (machine.world.compiler compiler).state.isWatching = false ∨
      ∃ starter, (starter, .op (.shift compiler .beginWatch) true) ∈ rest

end Protocol

end Machine

/-! ## A session that is closed after its first run -/

/-- Code outside that does nothing but to grant subscriptions. -/
def Environment.granting : Environment Setting.plain where
  State := Unit
  answer
    | .subscribe .. => return some 0
    | outside => Environment.inert.answer outside
  serve wish := wish.elim

theorem Environment.granting_hosts (panics : Prop) : Environment.granting.Hosts panics := by
  intro outside
  cases outside <;> exact .done _

namespace Compiler

/-- A task watches a compiler, and asks for the end. -/
def stopping : Prog Setting.plain Unit := do
  match ← watch 0 {} () with
  | none => pure ()
  | some session => close session ()

def stopper : Machine Environment.granting := .hosting () [observedCompiler] stopping

theorem stopper_vacant : stopper.Vacant False := by
  have visitor : stopping.Visitor False := by
    refine .watch fun session => ?_
    cases session with
    | none => exact .done ()
    | some session =>
        have asks : (close session () >>= pure : Prog Setting.plain Unit).Visitor False :=
          .close fun _ => .done ()
        rw [bind_pure] at asks
        exact asks
  refine Machine.vacant_hosting visitor fun record member => ?_
  obtain rfl : record = observedCompiler := by simpa using member
  exact ⟨rfl, rfl⟩

/-- The session and its driver are there. -/
def manned : List (TaskId × Event Setting.plain) × Machine Environment.granting :=
  Machine.playback [] stopper [0, 0, 0]

/-- The first run subscribes, and the close that follows is carried out. -/
def stopped : List (TaskId × Event Setting.plain) × Machine Environment.granting :=
  Machine.playback [] manned.2
    (List.replicate 12 1 ++ List.replicate 20 2 ++ List.replicate 20 1 ++ List.replicate 10 0 ++
      List.replicate 20 1)

/-- What is seen from the opening of the session on. -/
def stoppedLife : List (TaskId × Event Setting.plain) := manned.1.drop 2 ++ stopped.1

theorem stopped_trace : stopper.Trace
    ([(0, .op (.shift 0 .beginWatch) true)] ++ (0, .op (.openSession 0) 0) :: stoppedLife)
    stopped.2 := by
  have first : stopper.Trace manned.1 manned.2 := Machine.trace_playback .start _
  have rest : manned.2.Trace stopped.1 stopped.2 := Machine.trace_playback .start _
  exact first.append rest

end Compiler

end Bundler
