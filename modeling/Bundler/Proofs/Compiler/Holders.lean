import Bundler.Proofs.Compiler.SessionLife
import Bundler.Proofs.Compiler.Tenure

/-!
# The holder of a compiler

In every execution the state of a compiler is there on account of one task at most:
`Trace.tenured` says that one task has all of it as its tenure and every other task has
nothing. A task that ended has given back all that it had, so what is left of a state is the
tenure of a task that goes on, or of one that panicked.
-/

namespace Bundler

variable {S : Setting} {E : Environment S}

namespace World

variable {world after : World S} {task : TaskId} {preferChanges : Bool}

/-- The state of a compiler after an operation with this answer. -/
def stateAfter (world : World S) (compiler : CompilerId) :
    (operation : Op S) → operation.Reply → RunState
  | .shift other transition, true =>
    if other = compiler then (world.compiler compiler).state.after transition
    else (world.compiler compiler).state
  | _, _ => (world.compiler compiler).state

theorem state_changeCompiler {change : CompilerRecord S → CompilerRecord S}
    (kept : ∀ record, (change record).state = record.state) (other compiler : CompilerId) :
    ((world.changeCompiler other change).compiler compiler).state =
      (world.compiler compiler).state := by
  rw [compiler_change]
  split
  · exact kept _
  · rfl

/-- A transition is accepted by a compiler that exists and that it fits. -/
theorem perform_shift_eq {compiler : CompilerId} {transition : Transition} {accepted : Bool}
    (performed : world.perform task preferChanges (.shift compiler transition) =
      some (accepted, after)) :
    (accepted = true ↔ compiler < world.compilers.length ∧
      ((world.compiler compiler).state.next? transition).isSome = true) ∧
    ∀ other, (after.compiler other).state =
      world.stateAfter other (.shift compiler transition) accepted := by
  cases performed
  have found : ∀ other, (world.compilers[other]?).bind (fun record => record.state.next? transition) =
      if other < world.compilers.length then (world.compiler other).state.next? transition
      else none := by
    intro other
    rw [World.compiler]
    by_cases inside : other < world.compilers.length
    · rw [if_pos inside, List.getElem?_eq_getElem inside]
      rfl
    · rw [if_neg inside, List.getElem?_eq_none (Nat.le_of_not_lt inside)]
      rfl
  constructor
  · rw [found]
    by_cases inside : compiler < world.compilers.length <;> simp [inside]
  · intro other
    rw [compiler_change, found]
    by_cases same : compiler = other
    · obtain rfl := same
      by_cases inside : compiler < world.compilers.length
      · rw [if_pos ⟨rfl, inside⟩, if_pos inside]
        cases fits : (world.compiler compiler).state.next? transition with
        | none => exact RunState.after_of_refused _ _ fits
        | some state => exact (if_pos rfl).symm
      · rw [if_neg fun here => inside here.2, if_neg inside]
        rfl
    · rw [if_neg fun here => same here.1]
      cases ((if compiler < world.compilers.length then
          (world.compiler compiler).state.next? transition else none).isSome) with
      | false => rfl
      | true => exact (if_neg same).symm

theorem stateAfter_elsewhere {compiler : CompilerId} {operation : Op S} (reply : operation.Reply)
    (unmoved : ∀ transition, operation ≠ .shift compiler transition) :
    world.stateAfter compiler operation reply = (world.compiler compiler).state := by
  cases operation with
  | shift other transition =>
    cases reply with
    | false => rfl
    | true =>
      refine if_neg ?_
      rintro rfl
      exact unmoved transition rfl
  | _ => rfl

/-- Only an accepted transition changes the state of a compiler. -/
theorem perform_state {operation : Op S} {reply : operation.Reply}
    (idle : ∀ record, operation = .createCompiler record → record.state = .idle)
    (performed : world.perform task preferChanges operation = some (reply, after))
    (compiler : CompilerId) :
    (after.compiler compiler).state = world.stateAfter compiler operation reply := by
  by_cases sessional : OnSessions operation
  · obtain ⟨sessions, rfl⟩ := perform_onSessions sessional performed
    cases operation <;> first | exact sessional.elim | rfl
  · cases operation with
    | shift other transition => exact (perform_shift_eq performed).2 compiler
    | setChanges | setParent | setInput | setOutput | setWatcher | register | release =>
        cases performed
        refine state_changeCompiler ?_ _ _
        exact fun _ => rfl
    | look | newCompilation | lookCache | setCache | retain | spawn | report =>
        cases performed
        rfl
    | acquire other =>
        simp only [perform, acquire?] at performed
        split at performed
        · cases performed
          refine state_changeCompiler ?_ _ _
          exact fun _ => rfl
        · cases performed
    | join other =>
        obtain ⟨result, -, same⟩ := Option.map_eq_some_iff.mp performed
        cases same
        rfl
    | createCompiler record =>
        cases performed
        simp only [World.compiler, stateAfter, List.getElem?_append]
        by_cases inside : compiler < world.compilers.length
        · rw [if_pos inside]
        · rw [if_neg inside, List.getElem?_eq_none (Nat.le_of_not_lt inside)]
          cases compiler - world.compilers.length with
          | zero => exact idle record rfl
          | succ => rfl
    | _ => exact (sessional trivial).elim

theorem crash_state (world : World S) (task : TaskId) (compiler : CompilerId) :
    ((world.crash task).compiler compiler).state = (world.compiler compiler).state := by
  rw [World.compiler, crash_compilers, World.compiler, List.getElem?_map]
  cases world.compilers[compiler]? with
  | none => rfl
  | some record =>
      simp only [Option.map_some, Option.getD_some]
      split <;> rfl

theorem crash_results (world : World S) (task : TaskId) :
    (world.crash task).results = world.results.insert task (.error .panicked) := by
  rw [crash]
  simp only
  cases world.drivers.get? task <;> rfl

end World

/-! ## Tenures of tasks -/

/-- What a task has of the compilers after some events. -/
def tenureOf (events : List (TaskId × Event S)) (task : TaskId) : Tenure :=
  Machine.statusOf (tenancy S) events task

namespace Tenure

variable {tenure : Tenure} {compiler other : CompilerId}

/-- A compiler that an operation neither moves nor hands on stays with the task. -/
theorem after_elsewhere {operation : Op S} (reply : operation.Reply)
    (unmoved : ∀ transition, operation ≠ .shift compiler transition)
    (unspawned : ∀ job, operation ≠ .spawn job) :
    tenure.after operation reply compiler = tenure compiler := by
  cases operation with
  | shift moved transition =>
    cases reply with
    | false => rfl
    | true =>
      have different : compiler ≠ moved := by
        rintro rfl
        exact unmoved transition rfl
      exact Function.update_of_ne different _ _
  | spawn job => exact absurd rfl (unspawned job)
  | _ => rfl

/-- What a job has was had by the task that spawned it, which has it no more. -/
theorem handed {job : Job S} (task : TaskId) (allowed : tenure.Allows (.spawn job))
    (compiler : CompilerId) :
    (entry job compiler = .idle ∧ tenure.after (.spawn job) task compiler = tenure compiler) ∨
    (entry job compiler = tenure compiler ∧ tenure compiler ≠ .idle ∧
      tenure.after (.spawn job) task compiler = .idle) := by
  have moves : ∀ {other : CompilerId} {state : RunState}, tenure other = state → state ≠ .idle →
      (only other state compiler = .idle ∧
        Function.update tenure other .idle compiler = tenure compiler) ∨
      (only other state compiler = tenure compiler ∧ tenure compiler ≠ .idle ∧
        Function.update tenure other .idle compiler = .idle) := by
    rintro other _ rfl busy
    by_cases same : compiler = other
    · obtain rfl := same
      refine .inr ⟨?_, busy, Function.update_self ..⟩
      exact Function.update_self ..
    · refine .inl ⟨?_, Function.update_of_ne same ..⟩
      exact Function.update_of_ne same ..
  cases job with
  | run other callback => exact moves allowed nofun
  | drive stage driver => exact moves allowed nofun
  | phases | watchPhases => exact .inl ⟨rfl, rfl⟩

end Tenure

namespace Machine

/-- A task has all of the state of a compiler, and the other tasks have nothing of it. -/
def Holds (events : List (TaskId × Event S)) (compiler : CompilerId) (state : RunState)
    (task : TaskId) : Prop :=
  tenureOf events task compiler = state ∧ ∀ other ≠ task, tenureOf events other compiler = .idle

theorem Holds.of_same {events later : List (TaskId × Event S)} {compiler : CompilerId}
    {state : RunState} {holder : TaskId} (held : Holds events compiler state holder)
    (same : ∀ task, tenureOf later task compiler = tenureOf events task compiler) :
    Holds later compiler state holder := by
  constructor
  · rw [same]
    exact held.1
  · intro other different
    rw [same]
    exact held.2 other different

/-- What holds of a machine by the tenures of its tasks. -/
structure Tenured (machine : Machine E) (events : List (TaskId × Event S)) : Prop where
  abides : machine.Abides (tenancy S) events
  /-- A task that has not begun has nothing. -/
  unborn : ∀ task, machine.world.nextTask ≤ task → tenureOf events task = Tenure.free
  held : ∀ compiler, ∃ task, Holds events compiler (machine.world.compiler compiler).state task

namespace Tenured

variable {start machine after : Machine E} {events : List (TaskId × Event S)} {id : TaskId}
  {compiler : CompilerId}

/-- A task that has something of a compiler has all of its state. -/
theorem holds_of_busy {task : TaskId} (tenured : machine.Tenured events)
    (busy : tenureOf events task compiler ≠ .idle) :
    Holds events compiler (machine.world.compiler compiler).state task := by
  obtain ⟨holder, same, others⟩ := tenured.held compiler
  by_cases mine : task = holder
  · exact mine ▸ ⟨same, others⟩
  · exact absurd (others task mine) busy

theorem permits {operation : Op S} {reply : operation.Reply} (tenured : machine.Tenured events)
    (step : machine.Step id (some (.op operation reply)) after) :
    (tenureOf events id).Allows operation := tenured.abides.allows step

/-- What a step does to a compiler. -/
theorem shifted {transition : Transition} {accepted : Bool}
    (step : machine.Step id (some (.op (.shift compiler transition) accepted)) after) :
    (accepted = true ↔ compiler < machine.world.compilers.length ∧
      ((machine.world.compiler compiler).state.next? transition).isSome = true) := by
  cases step with
  | op runs performed => exact (World.perform_shift_eq performed).1

/-- Every answer is one that the tenure of the task expects. -/
theorem expects {operation : Op S} {reply : operation.Reply} (tenured : machine.Tenured events)
    (step : machine.Step id (some (.op operation reply)) after) :
    (tenureOf events id).Expects operation reply := by
  cases operation with
  | shift compiler transition =>
      intro busy
      have state := (tenured.holds_of_busy busy).1
      have there := World.exists_of_busy (.inl (state ▸ busy))
      have answer := shifted step
      rw [Bool.eq_iff_iff, answer, state]
      exact and_iff_right there
  | _ => trivial

/-- A transition that is accepted is one of a compiler that the task has, or begins to have. -/
theorem holds_of_accepted {transition : Transition} (tenured : machine.Tenured events)
    (step : machine.Step id (some (.op (.shift compiler transition) true)) after) :
    Holds events compiler (machine.world.compiler compiler).state id := by
  by_cases busy : tenureOf events id compiler = .idle
  · have begins : transition = .beginRun ∨ transition = .beginWatch := by
      rcases tenured.permits step with begins | begins | fits
      · exact .inl begins
      · exact .inr begins
      · rw [busy] at fits
        cases transition <;> first | exact .inl rfl | exact .inr rfl | cases fits
    have idle := (RunState.begin_iff_idle _ transition begins).1 ((shifted step).1 rfl).2
    obtain ⟨holder, same, others⟩ := tenured.held compiler
    refine ⟨busy.trans idle.symm, fun other _ => ?_⟩
    by_cases taken : other = holder
    · rw [taken, same, idle]
    · exact others other taken
  · exact tenured.holds_of_busy busy

/-- Who ends a run or a session has it. -/
theorem accepted_of_ends {transition : Transition} {accepted : Bool}
    (tenured : machine.Tenured events)
    (step : machine.Step id (some (.op (.shift compiler transition) accepted)) after)
    (ends : transition ≠ .beginRun ∧ transition ≠ .beginWatch) : accepted = true := by
  have fits : ((tenureOf events id compiler).next? transition).isSome = true := by
    rcases tenured.permits step with begins | begins | fits
    · exact absurd begins ends.1
    · exact absurd begins ends.2
    · exact fits
  have busy : tenureOf events id compiler ≠ .idle := by
    intro idle
    rw [idle] at fits
    cases transition <;> first | exact ends.1 rfl | exact ends.2 rfl | cases fits
  exact (tenured.expects step busy).trans fits

/-- The state of a compiler after an operation. -/
theorem stateAfter_op {operation : Op S} {reply : operation.Reply}
    (tenured : machine.Tenured events)
    (step : machine.Step id (some (.op operation reply)) after) (compiler : CompilerId) :
    (after.world.compiler compiler).state =
      machine.world.stateAfter compiler operation reply := by
  have idle : ∀ record, operation = .createCompiler record → record.state = .idle := by
    rintro record rfl
    exact tenured.permits step
  cases step with
  | op runs performed =>
      have moved := World.perform_state idle performed compiler
      exact moved

theorem held_op {operation : Op S} {reply : operation.Reply} (tenured : machine.Tenured events)
    (tidy : start.Tidy) (trace : start.Trace events machine)
    (step : machine.Step id (some (.op operation reply)) after) (compiler : CompilerId) :
    ∃ task, Holds (events ++ [(id, .op operation reply)]) compiler
      (after.world.compiler compiler).state task := by
  have self : tenureOf (events ++ [(id, .op operation reply)]) id =
      (tenureOf events id).after operation reply := statusOf_self tidy trace step
  have stands := statusOf_step (D := tenancy S) tidy trace step
  have others : (∀ job, operation ≠ .spawn job) → ∀ task ≠ id,
      tenureOf (events ++ [(id, .op operation reply)]) task = tenureOf events task := by
    intro unspawned task different
    rcases stands task with ⟨same, -⟩ | ⟨job, same, -⟩ | ⟨-, -, now⟩
    · exact absurd same different
    · cases same
      exact absurd rfl (unspawned job)
    · exact now
  rw [tenured.stateAfter_op step]
  obtain ⟨holder, held⟩ := tenured.held compiler
  by_cases spawns : ∃ job, operation = .spawn job
  · -- What the new task has is what its spawner gives away.
    obtain ⟨job, rfl⟩ := spawns
    obtain ⟨named, different, -⟩ := (tidy.trace trace).program?_spawned step
    have worker := statusOf_spawned (D := tenancy S) tidy trace step
    have unborn : tenureOf events reply compiler = .idle := by
      rw [tenured.unborn reply (Nat.le_of_eq named.symm)]
      rfl
    have kept : ∀ task ≠ id, task ≠ reply →
        tenureOf (events ++ [(id, .op (.spawn job) reply)]) task = tenureOf events task := by
      intro task other old
      rcases stands task with ⟨same, -⟩ | ⟨_, same, -⟩ | ⟨-, -, now⟩
      · exact absurd same other
      · cases same
        exact absurd rfl old
      · exact now
    rcases Tenure.handed reply (tenured.permits step) compiler with
      ⟨nothing, left⟩ | ⟨all, busy, left⟩
    · refine ⟨holder, held.of_same fun task => ?_⟩
      by_cases own : task = id
      · rw [own, self, left]
      · by_cases new : task = reply
        · rw [new, unborn]
          exact (congrFun worker compiler).trans nothing
        · rw [kept task own new]
    · obtain ⟨same, idle⟩ := tenured.holds_of_busy busy
      refine ⟨reply, (congrFun worker compiler).trans (all.trans same), fun other old => ?_⟩
      by_cases own : other = id
      · rw [own, self, left]
      · rw [kept other own old]
        exact idle other own
  · have unspawned : ∀ job, operation ≠ .spawn job := fun job same => spawns ⟨job, same⟩
    by_cases moves : ∃ transition, operation = .shift compiler transition
    · obtain ⟨transition, rfl⟩ := moves
      cases reply with
      | false =>
        refine ⟨holder, held.of_same fun task => ?_⟩
        by_cases own : task = id
        · rw [own, self]
          rfl
        · rw [others unspawned task own]
      | true =>
        obtain ⟨same, idle⟩ := tenured.holds_of_accepted step
        refine ⟨id, ?_, fun other different => ?_⟩
        · rw [self]
          refine (Function.update_self ..).trans ?_
          rw [same]
          exact (if_pos rfl).symm
        · rw [others unspawned other different]
          exact idle other different
    · have unmoved : ∀ transition, operation ≠ .shift compiler transition :=
        fun transition same => moves ⟨transition, same⟩
      rw [World.stateAfter_elsewhere reply unmoved]
      refine ⟨holder, held.of_same fun task => ?_⟩
      by_cases own : task = id
      · rw [own, self, Tenure.after_elsewhere reply unmoved unspawned]
      · rw [others unspawned task own]

/-- A step of any task. -/
theorem seen {event : Event S} {panics : Prop} (hosts : E.Hosts panics)
    (tenured : machine.Tenured events) (tidy : start.Tidy) (trace : start.Trace events machine)
    (step : machine.Step id (some event) after) :
    after.Tenured (events ++ [(id, event)]) where
  abides := tenured.abides.step (tenancy_governs hosts) tidy trace step
    fun _ _ same => by cases same; exact tenured.expects step
  unborn task late := by
    have old : machine.world.nextTask ≤ task := Nat.le_trans step.nextTask_le late
    rcases statusOf_step (D := tenancy S) tidy trace step task with
      ⟨rfl, -⟩ | ⟨job, same, -, -, -⟩ | ⟨-, -, now⟩
    · obtain ⟨program, runs⟩ := step.runs
      exact absurd ((tidy.trace trace).below task program runs) (Nat.not_lt.mpr old)
    · cases same
      obtain ⟨-, -, begun⟩ := (tidy.trace trace).program?_spawned step
      exact absurd (((tidy.trace trace).step step).below task _ begun) (Nat.not_lt.mpr late)
    · exact now.trans (tenured.unborn task old)
  held compiler := by
    -- Calls and requests change neither states nor tenures.
    have aside : (∀ operation reply, event ≠ .op operation reply) →
        (∀ task, tenureOf (events ++ [(id, event)]) task = tenureOf events task) := by
      intro other task
      rcases statusOf_step (D := tenancy S) tidy trace step task with
        ⟨rfl, now⟩ | ⟨job, same, -⟩ | ⟨-, -, now⟩
      · cases event with
        | op operation reply => exact absurd rfl (other operation reply)
        | call | request => exact now
      · exact absurd same (other _ _)
      · exact now
    obtain ⟨holder, held⟩ := tenured.held compiler
    cases event with
    | op operation reply => exact tenured.held_op tidy trace step compiler
    | call outside =>
      have state : (after.world.compiler compiler).state =
          (machine.world.compiler compiler).state := by
        cases step with
        | call runs => rfl
      have kept := aside fun _ _ same => nomatch same
      rw [state]
      exact ⟨holder, held.of_same fun task => congrFun (kept task) compiler⟩
    | request wish answer =>
      have state : (after.world.compiler compiler).state =
          (machine.world.compiler compiler).state := by
        cases step with
        | request runs served => rfl
      have kept := aside fun _ _ same => nomatch same
      rw [state]
      exact ⟨holder, held.of_same fun task => congrFun (kept task) compiler⟩

/-- A panic leaves the states of all compilers as they are. -/
theorem unseen {panics : Prop} (hosts : E.Hosts panics) (tenured : machine.Tenured events)
    (tidy : machine.Tidy) (step : machine.Step id none after) : after.Tenured events where
  abides := tenured.abides.step_unseen (tenancy_governs hosts) tidy step
  unborn task late := tenured.unborn task (Nat.le_trans step.nextTask_le late)
  held compiler := by
    have held := tenured.held compiler
    cases step with
    | turn runs => exact held
    | finish runs => exact held
    | crash runs =>
      change ∃ task, Holds events compiler ((machine.world.crash id).compiler compiler).state task
      rw [World.crash_state]
      exact held

end Tenured

section Trace

variable {start machine : Machine E} {events : List (TaskId × Event S)} {panics : Prop}

theorem Vacant.tenured (vacant : start.Vacant panics) : start.Tenured [] where
  abides task program found := by
    obtain ⟨code, visitor, rfl⟩ := vacant.visitors task program found
    exact .after_minds (Compiler.visitor_tenure visitor Tenure.still_free) fun _ => .done rfl
  unborn _ _ := rfl
  held compiler := by
    refine ⟨0, ?_, fun _ _ => rfl⟩
    rw [World.compiler]
    cases found : start.world.compilers[compiler]? with
    | none => rfl
    | some record => exact (vacant.idle record (List.mem_of_getElem? found)).1.symm

/-- In every execution from a vacant machine, each compiler is had by one task at most. -/
theorem Trace.tenured (trace : start.Trace events machine) (vacant : start.Vacant panics)
    (hosts : E.Hosts panics) : machine.Tenured events := by
  induction trace with
  | start => exact vacant.tenured
  | seen before step ih => exact ih.seen hosts vacant.tidy before step
  | unseen before step ih => exact ih.unseen hosts (vacant.tidy.trace before) step

/-- Who ends a run or a session has it, so that nothing is ended in vain. -/
theorem Trace.accepted {task : TaskId} {compiler : CompilerId} {transition : Transition}
    {accepted : Bool} (trace : start.Trace events machine) (vacant : start.Vacant panics)
    (hosts : E.Hosts panics)
    (made : (task, .op (.shift compiler transition) accepted) ∈ events)
    (ends : transition ≠ .beginRun ∧ transition ≠ .beginWatch) : accepted = true := by
  obtain ⟨before, rest, rfl⟩ := List.append_of_mem made
  obtain ⟨first, second, begun, step⟩ := trace.split
  exact (begun.tenured vacant hosts).accepted_of_ends step ends

/-- A task that is over after a step of another was over before. -/
theorem Tidy.over_before {after : Machine E} {id task : TaskId} {seen : Option (Event S)}
    (tidy : machine.Tidy) (step : machine.Step id seen after) (different : task ≠ id)
    (over_ : after.program? task = none) : machine.program? task = none := by
  by_contra there
  obtain ⟨program, found⟩ := Option.ne_none_iff_exists'.mp there
  rw [tidy.program?_other step different (tidy.below task program found)] at over_
  exact there over_

/-- The result of a task is not changed by others. -/
theorem Step.results_other {after : Machine E} {id task : TaskId} {seen : Option (Event S)}
    (step : machine.Step id seen after) (different : task ≠ id) :
    after.world.results.get? task = machine.world.results.get? task := by
  cases step with
  | @op operation next reply world _ runs performed =>
      change world.results.get? task = _
      rw [(World.perform_changes performed).results]
      cases operation with
      | report result => simp [World.resultsAfter, Table.get?_insert, different]
      | _ => rfl
  | crash runs =>
      change (machine.world.crash id).results.get? task = _
      simp [World.crash_results, Table.get?_insert, different]
  | call | request | turn | finish => rfl

/-- A task that heeds a discipline and is over has a status in which it may end, unless it
panicked. -/
theorem Trace.ending {D : Discipline S} {task : TaskId} (trace : start.Trace events machine)
    (vacant : start.Vacant panics) (idle : D.ends D.idle)
    (abides : ∀ {events : List (TaskId × Event S)} {machine : Machine E},
      start.Trace events machine → machine.Abides D events)
    (over_ : machine.program? task = none) :
    D.ends (statusOf D events task) ∨
      machine.world.results.get? task = some (.error .panicked) ∧
        D.mayPanic (statusOf D events task) := by
  induction trace with
  | start => exact .inl idle
  | @seen events machine id event after before step ih =>
      have tidy := vacant.tidy.trace before
      have alive := (tidy.alive step).2
      rcases statusOf_step (D := D) vacant.tidy before step task with
        ⟨rfl, -⟩ | ⟨job, rfl, -⟩ | ⟨different, -, same⟩
      · rw [over_] at alive
        cases alive
      · rw [(tidy.program?_spawned step).2.2] at over_
        cases over_
      · rw [same, step.results_other different]
        exact ih (tidy.over_before step different over_)
  | @unseen events machine id after before step ih =>
      by_cases self : task = id
      · obtain rfl := self
        cases step with
        | turn runs =>
            rw [program?_replace runs, if_pos rfl] at over_
            cases over_
        | finish runs =>
            cases abides before _ _ runs with
            | done ends => exact .inl ends
        | crash runs =>
            refine .inr ⟨?_, (abides before).mayPanic runs⟩
            change (machine.world.crash task).results.get? task = _
            rw [World.crash_results, Table.get?_insert]
            simp
      · rw [step.results_other self]
        exact ih ((vacant.tidy.trace before).over_before step self over_)

/-- A task that is over has nothing, unless it panicked, and then it has no watch run. -/
theorem Trace.given_back {task : TaskId} (trace : start.Trace events machine)
    (vacant : start.Vacant panics) (hosts : E.Hosts panics)
    (over_ : machine.program? task = none) :
    tenureOf events task = Tenure.free ∨
      machine.world.results.get? task = some (.error .panicked) ∧
        (tenureOf events task).Still :=
  trace.ending vacant rfl (fun before => (before.tenured vacant hosts).abides) over_

end Trace

end Machine

end Bundler
