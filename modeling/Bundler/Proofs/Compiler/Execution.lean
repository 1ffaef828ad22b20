import Bundler.Proofs.Compiler.Clients
import Bundler.Proofs.Table

/-!
# Executions of machines

`Machine.Step` says once what a step of a machine can do, and `Machine.Trace` is a
sequence of steps with what is seen of each: an operation with its answer, a request
with its answer, or the beginning of a call. Any task may make the next step, so all
interleavings are traces. A machine is seen through the program that each task has left.
-/

namespace Bundler

variable {S : Setting} {E : Environment S} {α β : Type}

/-- What is seen of a step of a task. -/
inductive Event (S : Setting) where
  | op (operation : Op S) (reply : operation.Reply)
  | call (outside : Call S)
  | request (wish : S.Request) (answer : S.Answer wish)

/-! ## Programs with the code outside -/

namespace Prog

/-- What a program did, with the code outside that it called as a part of it. -/
inductive Follows (E : Environment S) : Prog S α → List (Event S) → Prog S α → Prop where
  | start (program : Prog S α) : Follows E program [] program
  | op {operation next reply events left} (rest : Follows E (next reply) events left) :
      Follows E (.op operation next) (.op operation reply :: events) left
  | call {outside next events left} (rest : Follows E ((E.answer outside).bind next) events left) :
      Follows E (.call outside next) (.call outside :: events) left
  | request {wish next answer events left} (rest : Follows E (next answer) events left) :
      Follows E (.request wish next) (.request wish answer :: events) left

theorem Follows.trans {program middle left : Prog S α} {first rest : List (Event S)}
    (before : Follows E program first middle) (after : Follows E middle rest left) :
    Follows E program (first ++ rest) left := by
  induction before with
  | start program => exact after
  | op _ ih => exact .op (ih after)
  | call _ ih => exact .call (ih after)
  | request _ ih => exact .request (ih after)

variable {bad : Op S → Prop}

/-- A program that avoids some operations goes on to avoid them, if the code outside does. -/
theorem Avoids.follows {program left : Prog S α} {events : List (Event S)}
    (answers : ∀ outside, (E.answer outside).Avoids bad) (avoids : program.Avoids bad)
    (follows : Follows E program events left) :
    left.Avoids bad ∧ ∀ operation reply, .op operation reply ∈ events → ¬ bad operation := by
  induction follows with
  | start program => exact ⟨avoids, by simp⟩
  | op _ ih =>
      cases avoids with
      | op allowed rest =>
          obtain ⟨left, events⟩ := ih (rest _)
          refine ⟨left, fun operation reply member => ?_⟩
          rcases List.mem_cons.mp member with same | member
          · cases same
            exact allowed
          · exact events operation reply member
  | call _ ih =>
      cases avoids with
      | call rest =>
          obtain ⟨left, events⟩ := ih ((answers _).bind rest)
          refine ⟨left, fun operation reply member => ?_⟩
          rcases List.mem_cons.mp member with same | member
          · cases same
          · exact events operation reply member
  | request _ ih =>
      cases avoids with
      | request rest =>
          obtain ⟨left, events⟩ := ih (rest _)
          refine ⟨left, fun operation reply member => ?_⟩
          rcases List.mem_cons.mp member with same | member
          · cases same
          · exact events operation reply member

end Prog

/-! ## What an operation changes -/

namespace World

variable {world after : World S} {task : TaskId} {preferChanges : Bool}

/-- An operation on sessions. -/
def OnSessions : Op S → Prop
  | .openSession _ => True
  | .lookSession _ => True
  | .send _ _ => True
  | .dropHandle _ => True
  | .deliver _ _ => True
  | .await _ => True
  | .takeSignals _ => True
  | .takeChanges _ => True
  | .setLastChange _ _ => True
  | .shut _ => True
  | .leave _ => True
  | _ => False

theorem wake?_frame {id : SessionId} {wake : Wake S}
    (woken : world.wake? preferChanges id = some (wake, after)) :
    ∃ sessions, after = { world with sessions } := by
  simp only [wake?] at woken
  repeat' split at woken
  all_goals first
    | cases woken; exact ⟨_, rfl⟩
    | cases woken

/-- An operation on sessions changes nothing else. -/
theorem perform_onSessions {operation : Op S} {reply : operation.Reply}
    (sessional : OnSessions operation)
    (performed : world.perform task preferChanges operation = some (reply, after)) :
    ∃ sessions, after = { world with sessions } := by
  cases operation with
  | await id => exact wake?_frame performed
  | send id signal =>
      simp only [perform, send, Option.some.injEq] at performed
      repeat' split at performed
      all_goals cases performed; exact ⟨_, rfl⟩
  | deliver id changes =>
      simp only [perform, deliver, Option.some.injEq] at performed
      split at performed <;> cases performed <;> exact ⟨_, rfl⟩
  | takeChanges id =>
      simp only [perform, takeChanges, Option.some.injEq] at performed
      split at performed <;> cases performed <;> exact ⟨_, rfl⟩
  | openSession | lookSession | dropHandle | takeSignals | setLastChange | shut | leave =>
      cases performed
      exact ⟨_, rfl⟩
  | _ => exact sessional.elim

/-- The tasks that an operation sets going. -/
def spawnedBy (world : World S) : Op S → List (TaskId × Job S)
  | .spawn job => [(world.nextTask, job)]
  | _ => []

/-- The results after an operation. -/
def resultsAfter (world : World S) (task : TaskId) : Op S → Table TaskId RunResult
  | .report result => world.results.insert task result
  | _ => world.results

/-- The compilers after an operation that did not have to wait. -/
def compilersAfter (world : World S) (task : TaskId) : Op S → List (CompilerRecord S)
  | .shift id transition =>
    world.compilers.modify id fun record =>
      { record with state := record.state.after transition }
  | .acquire id => world.compilers.modify id fun record => { record with owner := some task }
  | .release id => world.compilers.modify id fun record => { record with owner := none }
  | .setChanges id changes => world.compilers.modify id fun record => { record with changes }
  | .setParent id parent => world.compilers.modify id fun record => { record with parent }
  | .setInput id input => world.compilers.modify id fun record => { record with input }
  | .setOutput id output => world.compilers.modify id fun record => { record with output }
  | .setWatcher id watcher => world.compilers.modify id fun record => { record with watcher }
  | .register id hook name observer =>
    world.compilers.modify id fun record =>
      { record with registry := record.registry.add hook name observer }
  | .createCompiler record => world.compilers ++ [record]
  | _ => world.compilers

/-- What an operation changes of tasks, results and compilers. Only a spawn sets a task
going, and only a report leaves a result. -/
structure Changes (world : World S) (task : TaskId) (operation : Op S) (after : World S) :
    Prop where
  spawned : after.spawned = world.spawned ++ world.spawnedBy operation
  nextTask : after.nextTask = world.nextTask + (world.spawnedBy operation).length
  results : after.results = world.resultsAfter task operation
  compilers : after.compilers = world.compilersAfter task operation

theorem perform_changes {operation : Op S} {reply : operation.Reply}
    (performed : world.perform task preferChanges operation = some (reply, after)) :
    world.Changes task operation after := by
  by_cases sessional : OnSessions operation
  · obtain ⟨sessions, rfl⟩ := perform_onSessions sessional performed
    cases operation <;> first | exact sessional.elim | exact ⟨by simp [spawnedBy], rfl, rfl, rfl⟩
  · cases operation with
    | acquire id =>
        simp only [perform, acquire?] at performed
        split at performed
        · cases performed
          exact ⟨by simp [spawnedBy, changeCompiler], rfl, rfl, rfl⟩
        · cases performed
    | join other =>
        obtain ⟨result, -, same⟩ := Option.map_eq_some_iff.mp performed
        cases same
        exact ⟨by simp [spawnedBy], rfl, rfl, rfl⟩
    | spawn job =>
        cases performed
        exact ⟨rfl, rfl, rfl, rfl⟩
    | openSession | lookSession | send | dropHandle | deliver | await | takeSignals
    | takeChanges | setLastChange | shut | leave => exact (sessional trivial).elim
    | _ =>
        cases performed
        exact ⟨by simp [spawnedBy, changeCompiler], rfl, rfl, rfl⟩

/-- A task that waits for another gets the result that the other has left. -/
theorem perform_join {other : TaskId} {result : RunResult}
    (performed : world.perform task preferChanges (.join other) = some (result, after)) :
    world.results.get? other = some result := by
  obtain ⟨held, found, same⟩ := Option.map_eq_some_iff.mp performed
  cases same
  exact found

/-- A task that panics gives up the compilers that it has. -/
theorem crash_compilers (world : World S) (task : TaskId) :
    (world.crash task).compilers = world.compilers.map fun record =>
      if record.owner = some task then { record with owner := none } else record := by
  rw [crash]
  simp only
  cases world.drivers.get? task <;> rfl

/-! ### The records of compilers -/

/-- A compiler is there, and its record has a property. -/
def Has (world : World S) (compiler : CompilerId) (property : CompilerRecord S → Prop) : Prop :=
  ∃ record, world.compilers[compiler]? = some record ∧ property record

section Has

variable {compiler : CompilerId} {property : CompilerRecord S → Prop}

theorem Has.modify {id : CompilerId} {change : CompilerRecord S → CompilerRecord S}
    (has : world.Has compiler property)
    (changed : after.compilers = world.compilers.modify id change)
    (kept : id = compiler → ∀ record, property record → property (change record)) :
    after.Has compiler property := by
  obtain ⟨record, found, holds⟩ := has
  rw [Has, changed, List.getElem?_modify, found]
  by_cases own : id = compiler
  · exact ⟨change record, by simp [own], kept own record holds⟩
  · exact ⟨record, by simp [own], holds⟩

theorem Has.extend {record : CompilerRecord S} (has : world.Has compiler property)
    (changed : after.compilers = world.compilers ++ [record]) : after.Has compiler property := by
  obtain ⟨own, found, holds⟩ := has
  have inside : compiler < world.compilers.length := (List.getElem?_eq_some_iff.mp found).1
  exact ⟨own, by rw [changed, List.getElem?_append_left inside, found], holds⟩

theorem Has.kept (has : world.Has compiler property)
    (same : after.compilers = world.compilers) : after.Has compiler property := by
  rwa [Has, same]

theorem Has.crash (has : world.Has compiler property)
    (freed : ∀ record, property record → property { record with owner := none })
    (task : TaskId) : (world.crash task).Has compiler property := by
  obtain ⟨record, found, holds⟩ := has
  rw [Has, crash_compilers, List.getElem?_map, found]
  refine ⟨_, rfl, ?_⟩
  simp only
  split
  · exact freed record holds
  · exact holds

theorem Has.looked (has : world.Has compiler property) : property (world.compiler compiler) := by
  obtain ⟨record, found, holds⟩ := has
  rw [World.compiler, found]
  exact holds

end Has

end World

/-! ## Steps -/

namespace Machine

/-- The program that a task has left. -/
def program? (machine : Machine E) (id : TaskId) : Option (Prog S (Compiler.Next S)) :=
  (machine.tasks.find? fun task => task.id == id).map Task.program

/-- What a step of a task can do, and what is seen of it. -/
inductive Step (machine : Machine E) (id : TaskId) : Option (Event S) → Machine E → Prop where
  | op {operation next reply world preferChanges}
      (runs : machine.program? id = some (.op operation next))
      (performed : machine.world.perform id preferChanges operation = some (reply, world)) :
      Step machine id (some (.op operation reply))
        ({ machine with world }.replace id (next reply)).begin
  | call {outside next} (runs : machine.program? id = some (.call outside next)) :
      Step machine id (some (.call outside))
        (machine.replace id ((E.answer outside).bind next)).begin
  | request {wish next answer state}
      (runs : machine.program? id = some (.request wish next))
      (served : E.serve wish machine.state = some (answer, state)) :
      Step machine id (some (.request wish answer))
        ({ machine with state }.replace id (next answer)).begin
  /-- The task goes on as another job. -/
  | turn {job} (runs : machine.program? id = some (.done (some job))) :
      Step machine id none (machine.replace id (Compiler.program job))
  | finish (runs : machine.program? id = some (.done none)) :
      Step machine id none (machine.remove id)
  | crash (runs : machine.program? id = some .panic) :
      Step machine id none { machine.remove id with world := machine.world.crash id }

/-- The steps of a machine are those that `Machine.step` makes. -/
theorem step_iff {machine after : Machine E} {id : TaskId} :
    (∃ preferChanges, machine.step id preferChanges = some after) ↔
      ∃ seen, Step machine id seen after := by
  constructor
  · rintro ⟨preferChanges, stepped⟩
    rw [Machine.step] at stepped
    cases found : machine.tasks.find? fun task => task.id == id with
    | none =>
        rw [found] at stepped
        cases stepped
    | some task =>
        have runs : machine.program? id = some task.program := by rw [program?, found]; rfl
        rw [found] at stepped
        cases program : task.program with
        | done next =>
            rw [program] at runs
            simp only [program, Prog.step] at stepped
            cases next with
            | none =>
                cases stepped
                exact ⟨none, .finish runs⟩
            | some job =>
                cases stepped
                exact ⟨none, .turn runs⟩
        | op operation next =>
            rw [program] at runs
            simp only [program, Prog.step] at stepped
            cases performed : machine.world.perform id preferChanges operation with
            | none =>
                rw [performed] at stepped
                cases stepped
            | some result =>
                rw [performed] at stepped
                cases stepped
                exact ⟨_, .op runs performed⟩
        | call outside next =>
            rw [program] at runs
            simp only [program, Prog.step] at stepped
            cases stepped
            exact ⟨_, .call runs⟩
        | request wish next =>
            rw [program] at runs
            simp only [program, Prog.step] at stepped
            cases served : E.serve wish machine.state with
            | none =>
                rw [served] at stepped
                cases stepped
            | some result =>
                rw [served] at stepped
                cases stepped
                exact ⟨_, .request runs served⟩
        | panic =>
            rw [program] at runs
            simp only [program, Prog.step] at stepped
            cases stepped
            exact ⟨none, .crash runs⟩
  · rintro ⟨seen, stepped⟩
    have steps : ∀ {program}, machine.program? id = some program →
        ∃ task, machine.tasks.find? (fun task => task.id == id) = some task ∧
          task.program = program := by
      intro program runs
      exact Option.map_eq_some_iff.mp runs
    cases stepped with
    | @op _ _ _ _ preferChanges runs performed =>
        obtain ⟨task, found, program⟩ := steps runs
        exact ⟨preferChanges, by simp [Machine.step, found, program, Prog.step, performed]⟩
    | call runs =>
        obtain ⟨task, found, program⟩ := steps runs
        exact ⟨false, by simp [Machine.step, found, program, Prog.step]⟩
    | request runs served =>
        obtain ⟨task, found, program⟩ := steps runs
        exact ⟨false, by simp [Machine.step, found, program, Prog.step, served]⟩
    | turn runs =>
        obtain ⟨task, found, program⟩ := steps runs
        exact ⟨false, by simp [Machine.step, found, program, Prog.step]⟩
    | finish runs =>
        obtain ⟨task, found, program⟩ := steps runs
        exact ⟨false, by simp [Machine.step, found, program, Prog.step]⟩
    | crash runs =>
        obtain ⟨task, found, program⟩ := steps runs
        exact ⟨false, by simp [Machine.step, found, program, Prog.step]⟩

/-! ## What a step changes of the tasks -/

section Tasks

variable {machine after : Machine E} {id other : TaskId} {program : Prog S (Compiler.Next S)}

theorem program?_replace (runs : machine.program? id = some program)
    (left : Prog S (Compiler.Next S)) :
    (machine.replace id left).program? other =
      if other = id then some left else machine.program? other := by
  have kept : (fun task : Task S => task.id == other) ∘
      (fun task => if task.id = id then { task with program := left } else task) =
      fun task => task.id == other := by
    funext task
    by_cases same : task.id = id <;> simp [same]
  rw [program?, replace, List.find?_map, kept, Option.map_map]
  by_cases same : other = id
  · obtain rfl := same
    obtain ⟨task, found, -⟩ := Option.map_eq_some_iff.mp runs
    have named : task.id = other := by simpa using List.find?_some found
    rw [if_pos rfl, found]
    simp [named]
  · rw [if_neg same, program?]
    cases found : machine.tasks.find? fun task => task.id == other with
    | none => rfl
    | some task =>
        have named : task.id = other := by simpa using List.find?_some found
        simp [named, same]

theorem program?_remove :
    (machine.remove id).program? other = if other = id then none else machine.program? other := by
  rw [program?, remove, List.find?_filter, program?]
  by_cases same : other = id
  · obtain rfl := same
    rw [if_pos rfl, Option.map_eq_none_iff, List.find?_eq_none]
    intro task member found
    simp only [decide_eq_true_eq, bne_iff_ne, ne_eq, beq_iff_eq] at found
    exact found.1 found.2
  · rw [if_neg same]
    congr 2
    funext task
    by_cases named : task.id = other
    · simp [named, same]
    · simp [named]

theorem program?_begin : machine.begin.program? other =
    (machine.program? other).or
      ((machine.world.spawned.find? fun entry => entry.1 == other).map fun entry =>
        Compiler.program entry.2) := by
  rw [program?, begin, List.find?_append, Option.map_or, program?, List.find?_map, Option.map_map]
  rfl

end Tasks

/-- Nothing is waiting to begin, and identities of tasks are never used again. -/
structure Tidy (machine : Machine E) : Prop where
  pending : machine.world.spawned = []
  below : ∀ id program, machine.program? id = some program → id < machine.world.nextTask

section Tidy

variable {machine after : Machine E} {id other : TaskId} {program : Prog S (Compiler.Next S)}

/-- The tasks after a step that does not change the world. -/
theorem Tidy.program?_moved (tidy : machine.Tidy) (runs : machine.program? id = some program)
    (left : Prog S (Compiler.Next S)) :
    (machine.replace id left).begin.program? other =
      if other = id then some left else machine.program? other := by
  rw [program?_begin, program?_replace runs]
  change Option.or _ (Option.map _ (machine.world.spawned.find? _)) = _
  rw [tidy.pending]
  simp

/-- The tasks after an operation: the task itself goes on, and a task that was spawned
begins. -/
theorem Tidy.program?_performed (tidy : machine.Tidy)
    (runs : machine.program? id = some program) {operation : Op S} {world : World S}
    (changes : machine.world.Changes id operation world) (left : Prog S (Compiler.Next S)) :
    ({ machine with world }.replace id left).begin.program? other =
      if other = id then some left
      else (machine.program? other).or
        (((machine.world.spawnedBy operation).find? fun entry => entry.1 == other).map
          fun entry => Compiler.program entry.2) := by
  have moved : ({ machine with world : Machine E }.replace id left).program? other =
      if other = id then some left else machine.program? other := by
    have same : ({ machine with world : Machine E }).program? id = some program := runs
    rw [program?_replace same]
    rfl
  rw [program?_begin, moved]
  change Option.or _ (Option.map _ (world.spawned.find? _)) = _
  rw [changes.spawned, tidy.pending, List.nil_append]
  by_cases self : other = id
  · simp [self]
  · simp [self]

/-- The state of the code outside does not matter. -/
theorem Tidy.with_state (tidy : machine.Tidy) (state : E.State) :
    ({ machine with state : Machine E }).Tidy :=
  ⟨tidy.pending, tidy.below⟩

theorem Tidy.moved (tidy : machine.Tidy) (runs : machine.program? id = some program)
    (left : Prog S (Compiler.Next S)) : (machine.replace id left).begin.Tidy := by
  refine ⟨rfl, fun other found holds => ?_⟩
  rw [tidy.program?_moved runs] at holds
  split at holds
  · rename_i self
    exact self ▸ tidy.below id _ runs
  · exact tidy.below other _ holds

theorem Tidy.performed (tidy : machine.Tidy) (runs : machine.program? id = some program)
    {operation : Op S} {world : World S} (changes : machine.world.Changes id operation world)
    (left : Prog S (Compiler.Next S)) :
    ({ machine with world }.replace id left).begin.Tidy := by
  refine ⟨rfl, fun other found holds => ?_⟩
  change other < world.nextTask
  rw [changes.nextTask]
  rw [tidy.program?_performed runs changes] at holds
  split at holds
  · rename_i self
    exact Nat.lt_of_lt_of_le (self ▸ tidy.below id _ runs) (Nat.le_add_right _ _)
  · rcases Option.or_eq_some_iff.mp holds with holds | ⟨-, begun⟩
    · exact Nat.lt_of_lt_of_le (tidy.below other _ holds) (Nat.le_add_right _ _)
    · obtain ⟨entry, found, -⟩ := Option.map_eq_some_iff.mp begun
      have named : entry.1 = other := by simpa using List.find?_some found
      have spawned := List.mem_of_find?_eq_some found
      cases operation with
      | spawn job =>
          obtain rfl := List.mem_singleton.mp spawned
          obtain rfl : machine.world.nextTask = other := named
          exact Nat.lt_succ_self _
      | _ => cases spawned

theorem crash_frame (world : World S) (task : TaskId) :
    (world.crash task).spawned = world.spawned ∧
      (world.crash task).nextTask = world.nextTask := by
  rw [World.crash]
  simp only
  cases world.drivers.get? task <;> exact ⟨rfl, rfl⟩

theorem Tidy.step {seen : Option (Event S)} (tidy : machine.Tidy)
    (step : machine.Step id seen after) : after.Tidy := by
  cases step with
  | op runs performed => exact tidy.performed runs (World.perform_changes performed) _
  | call runs => exact tidy.moved runs _
  | @request _ _ _ state runs _ => exact (tidy.with_state state).moved runs _
  | turn runs =>
      refine ⟨tidy.pending, fun other found holds => ?_⟩
      rw [program?_replace runs] at holds
      split at holds
      · rename_i self
        exact self ▸ tidy.below id _ runs
      · exact tidy.below other _ holds
  | finish runs =>
      refine ⟨tidy.pending, fun other found holds => ?_⟩
      rw [program?_remove] at holds
      split at holds
      · cases holds
      · exact tidy.below other _ holds
  | crash runs =>
      obtain ⟨spawned, nextTask⟩ := crash_frame machine.world id
      refine ⟨spawned.trans tidy.pending, fun other found holds => ?_⟩
      change other < (machine.world.crash id).nextTask
      rw [nextTask]
      change (machine.remove id).program? other = some found at holds
      rw [program?_remove] at holds
      split at holds
      · cases holds
      · exact tidy.below other _ holds

/-- A step leaves the other tasks alone. -/
theorem Tidy.program?_other {seen : Option (Event S)} (tidy : machine.Tidy)
    (step : machine.Step id seen after) (different : other ≠ id)
    (old : other < machine.world.nextTask) : after.program? other = machine.program? other := by
  cases step with
  | op runs performed =>
      rw [tidy.program?_performed runs (World.perform_changes performed), if_neg different]
      have absent : ∀ operation, (machine.world.spawnedBy operation).find?
          (fun entry => entry.1 == other) = none := by
        intro operation
        cases operation with
        | spawn job =>
            have later : machine.world.nextTask ≠ other := (Nat.ne_of_lt old).symm
            simp [World.spawnedBy, later]
        | _ => rfl
      rw [absent]
      simp
  | call runs => rw [tidy.program?_moved runs, if_neg different]
  | @request _ _ _ state runs _ =>
      rw [(tidy.with_state state).program?_moved runs, if_neg different]
      rfl
  | turn runs => rw [program?_replace runs, if_neg different]
  | finish runs => rw [program?_remove, if_neg different]
  | crash runs =>
      change (machine.remove id).program? other = _
      rw [program?_remove, if_neg different]

/-- What a step leaves of the task that makes it. -/
theorem Tidy.program?_self {seen : Option (Event S)} (tidy : machine.Tidy)
    (step : machine.Step id seen after) (calm : machine.program? id ≠ some .panic) :
    (∃ operation next reply, machine.program? id = some (.op operation next) ∧
      seen = some (.op operation reply) ∧ after.program? id = some (next reply)) ∨
    (∃ outside next, machine.program? id = some (.call outside next) ∧
      seen = some (.call outside) ∧
      after.program? id = some ((E.answer outside).bind next)) ∨
    (∃ wish next answer, machine.program? id = some (.request wish next) ∧
      seen = some (.request wish answer) ∧ after.program? id = some (next answer)) ∨
    (∃ job, machine.program? id = some (.done (some job)) ∧ seen = none ∧
      after.program? id = some (Compiler.program job)) ∨
    (machine.program? id = some (.done none) ∧ seen = none ∧ after.program? id = none) := by
  cases step with
  | op runs performed =>
      refine .inl ⟨_, _, _, runs, rfl, ?_⟩
      rw [tidy.program?_performed runs (World.perform_changes performed), if_pos rfl]
  | call runs =>
      refine .inr (.inl ⟨_, _, runs, rfl, ?_⟩)
      rw [tidy.program?_moved runs, if_pos rfl]
  | @request _ _ _ state runs _ =>
      refine .inr (.inr (.inl ⟨_, _, _, runs, rfl, ?_⟩))
      rw [(tidy.with_state state).program?_moved runs, if_pos rfl]
  | turn runs =>
      refine .inr (.inr (.inr (.inl ⟨_, runs, rfl, ?_⟩)))
      rw [program?_replace runs, if_pos rfl]
  | finish runs =>
      refine .inr (.inr (.inr (.inr ⟨runs, rfl, ?_⟩)))
      rw [program?_remove, if_pos rfl]
  | crash runs => exact absurd runs calm

section Shapes

variable {seen : Option (Event S)} (tidy : machine.Tidy) (step : machine.Step id seen after)
include tidy step

/-- The step of a task that has come to an operation. -/
theorem Tidy.step_op {operation : Op S} {next : operation.Reply → Prog S (Compiler.Next S)}
    (runs : machine.program? id = some (.op operation next)) :
    ∃ reply preferChanges world,
      machine.world.perform id preferChanges operation = some (reply, world) ∧
      seen = some (.op operation reply) ∧ after.program? id = some (next reply) := by
  cases step with
  | op found performed =>
      cases runs.symm.trans found
      refine ⟨_, _, _, performed, rfl, ?_⟩
      rw [tidy.program?_performed runs (World.perform_changes performed), if_pos rfl]
  | call found | request found | turn found | finish found | crash found =>
      cases runs.symm.trans found

theorem Tidy.step_call {outside : Call S} {next : outside.Reply → Prog S (Compiler.Next S)}
    (runs : machine.program? id = some (.call outside next)) :
    seen = some (.call outside) ∧ after.program? id = some ((E.answer outside).bind next) := by
  cases step with
  | call found =>
      cases runs.symm.trans found
      refine ⟨rfl, ?_⟩
      rw [tidy.program?_moved runs, if_pos rfl]
  | op found | request found | turn found | finish found | crash found =>
      cases runs.symm.trans found

theorem Tidy.step_request {wish : S.Request} {next : S.Answer wish → Prog S (Compiler.Next S)}
    (runs : machine.program? id = some (.request wish next)) :
    ∃ answer state, E.serve wish machine.state = some (answer, state) ∧
      seen = some (.request wish answer) ∧ after.program? id = some (next answer) := by
  cases step with
  | @request _ _ _ state found served =>
      cases runs.symm.trans found
      refine ⟨_, state, served, rfl, ?_⟩
      rw [(tidy.with_state state).program?_moved runs, if_pos rfl]
  | op found | call found | turn found | finish found | crash found =>
      cases runs.symm.trans found

end Shapes

/-- A spawned task begins with the program of its job, under an identity that no task had. -/
theorem Tidy.program?_spawned {job : Job S} {task : TaskId} (tidy : machine.Tidy)
    (step : machine.Step id (some (.op (.spawn job) task)) after) :
    task = machine.world.nextTask ∧ task ≠ id ∧
      after.program? task = some (Compiler.program job) := by
  cases step with
  | op runs performed =>
      have changes := World.perform_changes performed
      cases performed
      have below : id < machine.world.nextTask := tidy.below id _ runs
      have different : machine.world.nextTask ≠ id := (Nat.ne_of_lt below).symm
      refine ⟨rfl, different, ?_⟩
      have fresh : machine.program? machine.world.nextTask = none := by
        cases found : machine.program? machine.world.nextTask with
        | none => rfl
        | some program => exact absurd (tidy.below _ _ found) (Nat.lt_irrefl _)
      rw [tidy.program?_performed runs changes, if_neg different, fresh]
      simp [World.spawnedBy]

/-- Where the task of a program comes from: it made the step, it was spawned by the step, or
it was there before. -/
theorem Tidy.program?_cases {seen : Option (Event S)} (tidy : machine.Tidy)
    (step : machine.Step id seen after) (found : after.program? other = some program) :
    other = id ∨
    (∃ job, seen = some (.op (.spawn job) other) ∧ program = Compiler.program job) ∨
    other ≠ id ∧ machine.program? other = some program := by
  by_cases self : other = id
  · exact .inl self
  · refine .inr ?_
    by_cases old : other < machine.world.nextTask
    · rw [tidy.program?_other step self old] at found
      exact .inr ⟨self, found⟩
    · have absent : machine.program? other = none := by
        cases held : machine.program? other with
        | none => rfl
        | some program => exact absurd (tidy.below _ _ held) old
      cases step with
      | @op operation next reply world _ runs performed =>
          rw [tidy.program?_performed runs (World.perform_changes performed), if_neg self,
            absent, Option.none_or] at found
          obtain ⟨entry, spawned, rfl⟩ := Option.map_eq_some_iff.mp found
          have named : entry.1 = other := by simpa using List.find?_some spawned
          have member := List.mem_of_find?_eq_some spawned
          cases operation with
          | spawn job =>
              obtain rfl := List.mem_singleton.mp member
              cases performed
              obtain rfl : machine.world.nextTask = other := named
              exact .inl ⟨job, rfl, rfl⟩
          | _ => cases member
      | call runs =>
          rw [tidy.program?_moved runs, if_neg self, absent] at found
          cases found
      | @request _ _ _ state runs _ =>
          rw [(tidy.with_state state).program?_moved runs, if_neg self] at found
          exact .inr ⟨self, found⟩
      | turn runs =>
          rw [program?_replace runs, if_neg self, absent] at found
          cases found
      | finish runs =>
          rw [program?_remove, if_neg self, absent] at found
          cases found
      | crash runs =>
          change (machine.remove id).program? other = _ at found
          rw [program?_remove, if_neg self, absent] at found
          cases found

/-- Identities are only ever added. -/
theorem Step.nextTask_le {seen : Option (Event S)} (step : machine.Step id seen after) :
    machine.world.nextTask ≤ after.world.nextTask := by
  cases step with
  | @op _ _ _ world _ runs performed =>
      change _ ≤ world.nextTask
      rw [(World.perform_changes performed).nextTask]
      exact Nat.le_add_right _ _
  | call => exact Nat.le_refl _
  | request => exact Nat.le_refl _
  | turn => exact Nat.le_refl _
  | finish => exact Nat.le_refl _
  | crash => exact Nat.le_of_eq (crash_frame machine.world id).2.symm

theorem Step.runs {seen : Option (Event S)} (step : machine.Step id seen after) :
    ∃ program, machine.program? id = some program := by
  cases step with
  | op runs => exact ⟨_, runs⟩
  | call runs => exact ⟨_, runs⟩
  | request runs => exact ⟨_, runs⟩
  | turn runs => exact ⟨_, runs⟩
  | finish runs => exact ⟨_, runs⟩
  | crash runs => exact ⟨_, runs⟩

end Tidy

/-! ## Traces -/

/-- A machine at the beginning: compilers that nobody has, and tasks of code outside. -/
structure Fresh (machine : Machine E) : Prop where
  pending : machine.world.spawned = []
  below : ∀ id program, machine.program? id = some program → id < machine.world.nextTask
  noResults : ∀ id, machine.world.results.get? id = none
  idle : ∀ record ∈ machine.world.compilers, record.state = .idle ∧ record.owner = none
  clients : ∀ id program, machine.program? id = some program → program.Outside

/-- A machine with some compilers and one task of code outside. -/
def hosting (state : E.State) (compilers : List (CompilerRecord S)) (code : Prog S Unit) :
    Machine E where
  world := { compilers, nextTask := 1 }
  state
  tasks := [⟨0, code >>= fun _ => pure none⟩]

theorem program?_hosting {state : E.State} {compilers : List (CompilerRecord S)}
    {code : Prog S Unit} {id : TaskId} {program : Prog S (Compiler.Next S)}
    (found : (hosting state compilers code : Machine E).program? id = some program) :
    id = 0 ∧ program = code >>= fun _ => pure none := by
  by_cases same : id = 0
  · obtain rfl := same
    exact ⟨rfl, (Option.some.inj found).symm⟩
  · have absent : (0 == id) = false := by simpa using Ne.symm same
    simp [program?, hosting, absent] at found

theorem tidy_hosting (state : E.State) (compilers : List (CompilerRecord S))
    (code : Prog S Unit) : (hosting state compilers code : Machine E).Tidy := by
  refine ⟨rfl, fun id program found => ?_⟩
  obtain ⟨rfl, -⟩ := program?_hosting found
  exact Nat.zero_lt_one

theorem fresh_hosting {state : E.State} {compilers : List (CompilerRecord S)}
    {code : Prog S Unit} (client : code.Client)
    (idle : ∀ record ∈ compilers, record.state = .idle ∧ record.owner = none) :
    (hosting state compilers code : Machine E).Fresh where
  pending := rfl
  below := (tidy_hosting state compilers code).below
  noResults _ := rfl
  idle := idle
  clients _ _ found := ⟨code, client, (program?_hosting found).2⟩

/-- What is seen of a sequence of steps, and the machine after them. -/
inductive Trace (start : Machine E) : List (TaskId × Event S) → Machine E → Prop where
  | start : Trace start [] start
  | seen {events machine id event after} (before : Trace start events machine)
      (step : machine.Step id (some event) after) : Trace start (events ++ [(id, event)]) after
  | unseen {events machine id after} (before : Trace start events machine)
      (step : machine.Step id none after) : Trace start events after

section Trace

variable {start machine : Machine E} {events : List (TaskId × Event S)}

theorem Tidy.trace (tidy : start.Tidy) (trace : start.Trace events machine) : machine.Tidy := by
  induction trace with
  | start => exact tidy
  | seen _ step ih => exact ih.step step
  | unseen _ step ih => exact ih.step step

theorem Trace.tidy (trace : start.Trace events machine) (fresh : start.Fresh) :
    machine.Tidy :=
  Tidy.trace ⟨fresh.pending, fresh.below⟩ trace

theorem Trace.nextTask_le (trace : start.Trace events machine) :
    start.world.nextTask ≤ machine.world.nextTask := by
  induction trace with
  | start => exact Nat.le_refl _
  | seen _ step ih | unseen _ step ih => exact Nat.le_trans ih step.nextTask_le

/-- Every event is of a task that has begun. -/
theorem Tidy.lt_nextTask {id : TaskId} {event : Event S} (tidy : start.Tidy)
    (trace : start.Trace events machine) (member : (id, event) ∈ events) :
    id < machine.world.nextTask := by
  induction trace with
  | start => cases member
  | seen before step ih =>
      rcases List.mem_append.mp member with member | member
      · exact Nat.lt_of_lt_of_le (ih member) step.nextTask_le
      · cases List.mem_singleton.mp member
        obtain ⟨program, runs⟩ := step.runs
        exact Nat.lt_of_lt_of_le ((tidy.trace before).below _ _ runs) step.nextTask_le
  | unseen _ step ih => exact Nat.lt_of_lt_of_le (ih member) step.nextTask_le

theorem Trace.lt_nextTask {id : TaskId} {event : Event S} (trace : start.Trace events machine)
    (fresh : start.Fresh) (member : (id, event) ∈ events) : id < machine.world.nextTask :=
  Tidy.lt_nextTask ⟨fresh.pending, fresh.below⟩ trace member

/-- A trace up to one of its events, with the step of the event. -/
theorem Trace.split {before after : List (TaskId × Event S)} {id : TaskId} {event : Event S}
    (trace : start.Trace (before ++ (id, event) :: after) machine) :
    ∃ first second, start.Trace before first ∧ first.Step id (some event) second := by
  generalize all : before ++ (id, event) :: after = events at trace
  induction trace generalizing after with
  | start => simp at all
  | @seen events middle task seen last trace step ih =>
      rcases List.eq_nil_or_concat after with rfl | ⟨rest, final, rfl⟩
      · obtain ⟨rfl, same⟩ := List.append_inj' all rfl
        cases same
        exact ⟨middle, last, trace, step⟩
      · rw [List.concat_eq_append, ← List.cons_append, ← List.append_assoc] at all
        exact ih (List.append_inj' all rfl).1
  | unseen _ _ ih => exact ih all

end Trace

/-! ## Schedules -/

/-- One step of a task, with what is seen of it; nothing if it has to wait or is over. -/
def stepSeen (machine : Machine E) (id : TaskId) : Option (Option (Event S) × Machine E) :=
  match machine.program? id with
  | none => none
  | some (.op operation next) =>
    match machine.world.perform id false operation with
    | some (reply, world) =>
      some (some (.op operation reply), ({ machine with world }.replace id (next reply)).begin)
    | none => none
  | some (.call outside next) =>
    some (some (.call outside), (machine.replace id ((E.answer outside).bind next)).begin)
  | some (.request wish next) =>
    match E.serve wish machine.state with
    | some (answer, state) =>
      some (some (.request wish answer), ({ machine with state }.replace id (next answer)).begin)
    | none => none
  | some (.done (some job)) => some (none, machine.replace id (Compiler.program job))
  | some (.done none) => some (none, machine.remove id)
  | some .panic => some (none, { machine.remove id with world := machine.world.crash id })

theorem step_of_stepSeen {machine after : Machine E} {id : TaskId} {seen : Option (Event S)}
    (made : machine.stepSeen id = some (seen, after)) : machine.Step id seen after := by
  rw [stepSeen] at made
  split at made
  · cases made
  · rename_i runs
    split at made
    · rename_i performed
      cases made
      exact .op runs performed
    · cases made
  · rename_i runs
    cases made
    exact .call runs
  · rename_i runs
    split at made
    · rename_i served
      cases made
      exact .request runs served
    · cases made
  · rename_i runs
    cases made
    exact .turn runs
  · rename_i runs
    cases made
    exact .finish runs
  · rename_i runs
    cases made
    exact .crash runs

/-- The tasks of a schedule make their steps; one that has to wait is passed over. -/
def playback (events : List (TaskId × Event S)) (machine : Machine E) :
    List TaskId → List (TaskId × Event S) × Machine E
  | [] => (events, machine)
  | id :: rest =>
    match machine.stepSeen id with
    | none => playback events machine rest
    | some (none, after) => playback events after rest
    | some (some event, after) => playback (events ++ [(id, event)]) after rest

/-- A schedule makes a trace. -/
theorem trace_playback {start machine : Machine E} {events : List (TaskId × Event S)}
    (trace : start.Trace events machine) (schedule : List TaskId) :
    start.Trace (playback events machine schedule).1 (playback events machine schedule).2 := by
  induction schedule generalizing events machine with
  | nil => exact trace
  | cons id rest ih =>
      rw [playback]
      split
      · exact ih trace
      · rename_i made
        exact ih (trace.unseen (step_of_stepSeen made))
      · rename_i made
        exact ih (trace.seen (step_of_stepSeen made))

end Machine

end Bundler
