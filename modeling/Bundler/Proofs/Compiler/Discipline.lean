import Bundler.Proofs.Compiler.TaskHistory

/-!
# Disciplines

A discipline gives every task a status, says what a task of a status may do, and how what it
does changes its status. `Prog.Heeds` types a program by the status that it starts with; code
that is called from it leaves the status as it finds it, and panics only in a status that
permits it. The status of a task can be read off the events seen so far, so `Machine.Abides`
says of a machine that every task heeds the discipline from the status that it has by now.
`Abides.step` carries that along every step of any task, and `Abides.allows` and
`Abides.allowsCall` turn it into a statement about each event of an execution.
-/

namespace Bundler

variable {S : Setting} {E : Environment S} {α β : Type}

/-- What tasks may do, by a status that each of them carries along. -/
structure Discipline (S : Setting) where
  Status : Type
  /-- The status of the tasks that are there at the beginning. -/
  idle : Status
  /-- The status in which a spawned job begins. -/
  entry : Job S → Status
  /-- A status in which a task may go on as a job. -/
  fits : Job S → Status → Prop
  /-- A status in which a task may end. -/
  ends : Status → Prop
  allows : Status → Op S → Prop
  /-- An answer that a task of a status can get. -/
  expects : Status → (operation : Op S) → operation.Reply → Prop
  after : Status → (operation : Op S) → operation.Reply → Status
  allowsCall : Status → Call S → Prop
  /-- The status in which the code of a call begins and ends. -/
  during : Status → Call S → Status
  /-- A status in which a task may panic. -/
  mayPanic : Status → Prop

namespace Discipline

variable (D : Discipline S)

/-- A status in which a turn may end. -/
def goesOn : Compiler.Next S → D.Status → Prop
  | none, status => D.ends status
  | some job, status => D.fits job status

/-- The status after an event of the task. -/
def note (status : D.Status) : Event S → D.Status
  | .op operation reply => D.after status operation reply
  | .call outside => D.during status outside
  | .request _ _ => status

end Discipline

/-- The job that a task was spawned for. -/
def origin (task : TaskId) (events : List (TaskId × Event S)) : Option (Job S) :=
  events.findSome? fun
    | (_, .op (.spawn job) worker) => if worker = task then some job else none
    | _ => none

section Origin

variable {task id : TaskId} {events : List (TaskId × Event S)} {event : Event S}

theorem origin_append_of_ne (unspawned : ∀ job, event ≠ .op (.spawn job) task) :
    origin task (events ++ [(id, event)]) = origin task events := by
  rw [origin, List.findSome?_append, Option.or_eq_left_of_none]
  rfl
  rw [List.findSome?_eq_none_iff]
  rintro ⟨id, seen⟩ member
  obtain ⟨rfl, rfl⟩ := Prod.mk.inj (List.mem_singleton.mp member)
  cases seen with
  | op operation reply =>
      cases operation with
      | spawn job =>
          have different : reply ≠ task := fun same => unspawned job (same ▸ rfl)
          exact if_neg different
      | _ => rfl
  | call | request => rfl

theorem origin_eq_none (unspawned : ∀ id job, (id, .op (.spawn job) task) ∉ events) :
    origin task events = none := by
  rw [origin, List.findSome?_eq_none_iff]
  rintro ⟨id, seen⟩ member
  cases seen with
  | op operation reply =>
      cases operation with
      | spawn job =>
          have different : reply ≠ task := fun same => unspawned id job (same ▸ member)
          exact if_neg different
      | _ => rfl
  | call | request => rfl

theorem origin_of_spawned {job : Job S}
    (unspawned : ∀ id job, (id, .op (.spawn job) task) ∉ events) :
    origin task (events ++ [(id, .op (.spawn job) task)]) = some job := by
  have earlier := origin_eq_none unspawned
  rw [origin] at earlier ⊢
  rw [List.findSome?_append, earlier]
  simp

end Origin

/-! ## Programs -/

namespace Prog

/-- A program that does only what its status allows, whatever it can get as answers. When it
ends with a value, its status is as `ending` says. -/
inductive Heeds (D : Discipline S) (ending : α → D.Status → Prop) :
    D.Status → Prog S α → Prop where
  | done {status value} (ends : ending value status) : Heeds D ending status (.done value)
  | op {status operation next} (allowed : D.allows status operation)
      (rest : ∀ reply, D.expects status operation reply →
        Heeds D ending (D.after status operation reply) (next reply)) :
      Heeds D ending status (.op operation next)
  | call {status outside next} (allowed : D.allowsCall status outside)
      (rest : ∀ reply, Heeds D ending (D.during status outside) (next reply)) :
      Heeds D ending status (.call outside next)
  | request {status wish next} (rest : ∀ answer, Heeds D ending status (next answer)) :
      Heeds D ending status (.request wish next)
  | panic {status} (permitted : D.mayPanic status) : Heeds D ending status .panic

/-- A program that ends with the status that it starts with. -/
abbrev Minds (D : Discipline S) (status : D.Status) (program : Prog S α) : Prop :=
  program.Heeds D (fun _ left => left = status) status

namespace Heeds

variable {D : Discipline S} {status : D.Status} {middle : α → D.Status → Prop}
  {ending : β → D.Status → Prop}

theorem bind {program : Prog S α} {next : α → Prog S β} (first : program.Heeds D middle status)
    (rest : ∀ value left, middle value left → (next value).Heeds D ending left) :
    (program >>= next).Heeds D ending status := by
  change (program.bind next).Heeds D ending status
  induction first with
  | done ends => exact rest _ _ ends
  | op allowed _ ih => exact .op allowed ih
  | call allowed _ ih => exact .call allowed ih
  | request _ ih => exact .request ih
  | panic permitted => exact .panic permitted

theorem mono {program : Prog S β} {weaker : β → D.Status → Prop}
    (heeds : program.Heeds D ending status)
    (weakened : ∀ value left, ending value left → weaker value left) :
    program.Heeds D weaker status := by
  induction heeds with
  | done ends => exact .done (weakened _ _ ends)
  | op allowed _ ih => exact .op allowed ih
  | call allowed _ ih => exact .call allowed ih
  | request _ ih => exact .request ih
  | panic permitted => exact .panic permitted

/-- A part that leaves the status as it is. -/
theorem after_minds {program : Prog S α} {next : α → Prog S β} (first : program.Minds D status)
    (rest : ∀ value, (next value).Heeds D ending status) :
    (program >>= next).Heeds D ending status :=
  first.bind fun value _ same => same ▸ rest value

theorem perform {operation : Op S} {next : operation.Reply → Prog S β}
    (allowed : D.allows status operation)
    (rest : ∀ reply, D.expects status operation reply →
      (next reply).Heeds D ending (D.after status operation reply)) :
    (Prog.perform operation >>= next).Heeds D ending status := .op allowed rest

theorem invoke {outside : Call S} {next : outside.Reply → Prog S β}
    (allowed : D.allowsCall status outside)
    (rest : ∀ reply, (next reply).Heeds D ending (D.during status outside)) :
    (Prog.invoke outside >>= next).Heeds D ending status := .call allowed rest

/-- A program that makes only operations and calls which keep the status among some. -/
theorem within_statuses {program : Prog S α} {ops : Op S → Prop} {calls : Call S → Prop}
    {among : D.Status → Prop} (within : program.Within ops calls)
    (open_ : ∀ operation status, ops operation → among status → D.allows status operation ∧
      ∀ reply, among (D.after status operation reply))
    (callable : ∀ outside status, calls outside → among status → D.allowsCall status outside ∧
      among (D.during status outside)) (here : among status) :
    program.Heeds D (fun _ => among) status := by
  induction within generalizing status with
  | done value => exact .done here
  | op allowed _ ih =>
      obtain ⟨permitted, kept⟩ := open_ _ status allowed here
      exact .op permitted fun reply _ => ih reply (kept reply)
  | call allowed _ ih =>
      obtain ⟨permitted, kept⟩ := callable _ status allowed here
      exact .call permitted fun reply => ih reply kept

/-- A program that makes only operations and calls which are open in a status and keep it. -/
theorem of_within {program : Prog S α} {ops : Op S → Prop} {calls : Call S → Prop}
    (within : program.Within ops calls)
    (open_ : ∀ operation, ops operation → D.allows status operation ∧
      ∀ reply, D.after status operation reply = status)
    (callable : ∀ outside, calls outside → D.allowsCall status outside ∧
      D.during status outside = status) : program.Minds D status :=
  within_statuses within (fun operation _ allowed same => same ▸ open_ operation allowed)
    (fun outside _ allowed same => same ▸ callable outside allowed) rfl

end Heeds

end Prog

/-- All code that is called and all jobs heed a discipline. -/
structure Discipline.Governs (D : Discipline S) (E : Environment S) : Prop where
  code : ∀ outside status, D.allowsCall status outside →
    (E.answer outside).Minds D (D.during status outside)
  jobs : ∀ job status, D.fits job status → (Compiler.program job).Heeds D D.goesOn status
  spawns : ∀ status job, D.allows status (.spawn job) → D.fits job (D.entry job)

/-! ## Machines -/

namespace Machine

variable (D : Discipline S)

/-- The status of a task after some events. -/
def statusOf (events : List (TaskId × Event S)) (task : TaskId) : D.Status :=
  (eventsOf task events).foldl D.note
    (match origin task events with
      | some job => D.entry job
      | none => D.idle)

/-- Every task heeds the discipline from the status that it has after some events. -/
def Abides (machine : Machine E) (events : List (TaskId × Event S)) : Prop :=
  ∀ task program, machine.program? task = some program →
    program.Heeds D D.goesOn (statusOf D events task)

section Status

variable {D} {start machine after : Machine E} {events : List (TaskId × Event S)}
  {id task : TaskId} {event : Event S}

theorem statusOf_other (different : task ≠ id)
    (unspawned : ∀ job, event ≠ .op (.spawn job) task) :
    statusOf D (events ++ [(id, event)]) task = statusOf D events task := by
  rw [statusOf, eventsOf_append, eventsOf_of_ne different.symm, List.append_nil,
    origin_append_of_ne unspawned, statusOf]

theorem statusOf_own (unspawned : ∀ job, event ≠ .op (.spawn job) id) :
    statusOf D (events ++ [(id, event)]) id = D.note (statusOf D events id) event := by
  rw [statusOf, eventsOf_append, eventsOf_self, List.foldl_append,
    origin_append_of_ne unspawned]
  rfl

variable (tidy : start.Tidy) (trace : start.Trace events machine)
include tidy trace

/-- No task spawns itself. -/
theorem ne_spawn_self (step : machine.Step id (some event) after) (job : Job S) :
    event ≠ .op (.spawn job) id := by
  rintro rfl
  exact ((tidy.trace trace).program?_spawned step).2.1 rfl

/-- A task that is there is not spawned. -/
theorem ne_spawn_of_lt (step : machine.Step id (some event) after)
    (old : task < machine.world.nextTask) (job : Job S) : event ≠ .op (.spawn job) task := by
  rintro rfl
  exact Nat.lt_irrefl _ (((tidy.trace trace).program?_spawned step).1 ▸ old)

/-- The task that makes a step has the status that the step leads to. -/
theorem statusOf_self (step : machine.Step id (some event) after) :
    statusOf D (events ++ [(id, event)]) id = D.note (statusOf D events id) event :=
  statusOf_own (ne_spawn_self tidy trace step)

/-- Other tasks keep their status. -/
theorem statusOf_of_ne (step : machine.Step id (some event) after) (different : task ≠ id)
    (old : task < machine.world.nextTask) :
    statusOf D (events ++ [(id, event)]) task = statusOf D events task :=
  statusOf_other different (ne_spawn_of_lt tidy trace step old)

/-- A spawned task has the status that its job begins with. -/
theorem statusOf_spawned {job : Job S}
    (step : machine.Step id (some (.op (.spawn job) task)) after) :
    statusOf D (events ++ [(id, .op (.spawn job) task)]) task = D.entry job := by
  obtain ⟨named, different, -⟩ := (tidy.trace trace).program?_spawned step
  have unseen : eventsOf task events = [] := by
    rw [List.eq_nil_iff_forall_not_mem]
    intro event member
    exact Nat.lt_irrefl _ (named ▸ tidy.lt_nextTask trace (mem_eventsOf.mp member))
  have unspawned : ∀ id job, (id, .op (.spawn job) task) ∉ events := fun id job member =>
    Nat.lt_irrefl _ (named ▸ tidy.spawned_lt trace member)
  rw [statusOf, eventsOf_append, eventsOf_of_ne different.symm, unseen,
    origin_of_spawned unspawned]
  rfl

/-- The status of a task after a step: it made the step, it was spawned by the step, or it has
the status that it had. -/
theorem statusOf_step (step : machine.Step id (some event) after) (task : TaskId) :
    (task = id ∧ statusOf D (events ++ [(id, event)]) task = D.note (statusOf D events id) event) ∨
    (∃ job, event = .op (.spawn job) task ∧ task = machine.world.nextTask ∧ task ≠ id ∧
      statusOf D (events ++ [(id, event)]) task = D.entry job) ∨
    (task ≠ id ∧ (∀ job, event ≠ .op (.spawn job) task) ∧
      statusOf D (events ++ [(id, event)]) task = statusOf D events task) := by
  by_cases self : task = id
  · obtain rfl := self
    exact .inl ⟨rfl, statusOf_self tidy trace step⟩
  · by_cases spawned : ∃ job, event = .op (.spawn job) task
    · obtain ⟨job, rfl⟩ := spawned
      obtain ⟨named, different, -⟩ := (tidy.trace trace).program?_spawned step
      exact .inr (.inl ⟨job, rfl, named, different, statusOf_spawned tidy trace step⟩)
    · have unspawned : ∀ job, event ≠ .op (.spawn job) task := fun job same => spawned ⟨job, same⟩
      exact .inr (.inr ⟨self, unspawned, statusOf_other self unspawned⟩)

end Status

namespace Abides

variable {D} {start machine after : Machine E} {events : List (TaskId × Event S)} {id : TaskId}

/-- What a task does next is allowed by its status. -/
theorem allows {operation : Op S} {reply : operation.Reply} (abides : machine.Abides D events)
    (step : machine.Step id (some (.op operation reply)) after) :
    D.allows (statusOf D events id) operation := by
  cases step with
  | op runs performed =>
      cases abides _ _ runs with
      | op allowed _ => exact allowed

theorem allowsCall {outside : Call S} (abides : machine.Abides D events)
    (step : machine.Step id (some (.call outside)) after) :
    D.allowsCall (statusOf D events id) outside := by
  cases step with
  | call runs =>
      cases abides _ _ runs with
      | call allowed _ => exact allowed

theorem mayPanic (abides : machine.Abides D events) (runs : machine.program? id = some .panic) :
    D.mayPanic (statusOf D events id) := by
  cases abides _ _ runs with
  | panic permitted => exact permitted

variable (governs : D.Governs E)

include governs in
/-- A step that is seen keeps all tasks to the discipline, if its answer can be expected. -/
theorem step {event : Event S} (abides : machine.Abides D events) (tidy : start.Tidy)
    (trace : start.Trace events machine) (step : machine.Step id (some event) after)
    (expected : ∀ operation reply, event = .op operation reply →
      D.expects (statusOf D events id) operation reply) :
    after.Abides D (events ++ [(id, event)]) := by
  have ready := tidy.trace trace
  intro task program found
  rcases ready.program?_cases step found with rfl | ⟨job, same, rfl⟩ | ⟨different, held⟩
  · rw [statusOf_self tidy trace step]
    cases step with
    | op runs performed =>
        rw [ready.program?_performed runs (World.perform_changes performed), if_pos rfl] at found
        obtain rfl := Option.some.inj found
        cases abides _ _ runs with
        | op _ rest => exact rest _ (expected _ _ rfl)
    | call runs =>
        rw [ready.program?_moved runs, if_pos rfl] at found
        obtain rfl := Option.some.inj found
        cases abides _ _ runs with
        | call allowed rest => exact .after_minds (governs.code _ _ allowed) rest
    | @request _ _ _ state runs _ =>
        rw [(ready.with_state state).program?_moved runs, if_pos rfl] at found
        obtain rfl := Option.some.inj found
        cases abides _ _ runs with
        | request rest => exact rest _
  · cases same
    rw [statusOf_spawned tidy trace step]
    exact governs.jobs job _ (governs.spawns _ _ (abides.allows step))
  · rw [statusOf_of_ne tidy trace step different (ready.below _ _ held)]
    exact abides task program held

include governs in
/-- A step that is not seen keeps all tasks to the discipline. -/
theorem step_unseen (abides : machine.Abides D events) (tidy : machine.Tidy)
    (step : machine.Step id none after) : after.Abides D events := by
  intro task program found
  rcases tidy.program?_cases step found with rfl | ⟨job, same, -⟩ | ⟨-, held⟩
  · cases step with
    | turn runs =>
        rw [program?_replace runs, if_pos rfl] at found
        obtain rfl := Option.some.inj found
        cases abides _ _ runs with
        | done ends => exact governs.jobs _ _ ends
    | finish runs =>
        rw [program?_remove, if_pos rfl] at found
        cases found
    | crash runs =>
        change (machine.remove task).program? task = some program at found
        rw [program?_remove, if_pos rfl] at found
        cases found
  · cases same
  · exact abides task program held

end Abides

end Machine

end Bundler
