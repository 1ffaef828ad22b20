import Bundler.Proofs.Compiler.Holders
import Bundler.Proofs.Compiler.Passages
import Bundler.Proofs.Compiler.StageCalls

/-!
# Runs of children

A compiler is run as a child in the middle of whatever its caller does, in a build of its parent
for one, and shares storages, the artifact cache and the numbers of compilations with the parent.
`Isolated` says what such a run does by itself: it calls the observers of its own hooks and the
builder, and every operation that it makes leaves all other compilers as they are. What observers
and builders do in turn is up to them; the run of a grandchild that a builder makes is a run of a
child again. `Machine.child_runs_isolated` says so wherever in an execution a task comes to run a
child, whether the run has ended or not.
-/

namespace Bundler

variable {S : Setting} {E : Environment S} {α β : Type}

/-! ## The footprint of a run -/

/-- The hooks that the run of a child may fire. -/
def childHooks : List HookName := [.thisCompilation, .compilation, .afterCompile, .failed]

/-- A call that the run of a child may make: of an observer of its own hooks, or of the builder. -/
def Call.OfChild (child : CompilerId) (outside : Call S) : Prop :=
  (∃ hook ∈ childHooks, outside.fired? = some (child, hook)) ∨
    ∃ input before, outside = .build child input before

theorem Call.OfChild.not_outputs {child : CompilerId} {outside : Call S}
    (ofChild : outside.OfChild child) : ¬ outside.Outputs := by
  rcases ofChild with ⟨hook, -, fired⟩ | ⟨input, before, rfl⟩
  · cases outside <;> first | exact id | cases fired
  · exact id

/-- An operation that the run of a child may make. -/
def Op.OfChild (child : CompilerId) : Op S → Prop
  | .look compiler => compiler = child
  | .shift compiler transition =>
    compiler = child ∧ (transition = .beginRun ∨ transition = .endRun)
  | .acquire compiler => compiler = child
  | .release compiler => compiler = child
  | .newCompilation compiler => compiler = child
  | .retain _ => True
  | _ => False

/-- An operation changed nothing of other compilers and of sessions, of its own compiler only the
state and the owner, and the artifact cache only if it is there for that. -/
structure World.Spares (world : World S) (child : CompilerId) (operation : Op S) (after : World S) :
    Prop where
  others : ∀ other, other ≠ child → after.compiler other = world.compiler other
  own : ∃ state owner, after.compiler child = { world.compiler child with state, owner }
  sessions : after.sessions = world.sessions
  cache : after.cache = world.cache ∨ ∃ modules, operation = .retain modules

namespace World

variable {world after : World S} {child : CompilerId} {operation : Op S} {task : TaskId}
  {preferChanges : Bool} {reply : operation.Reply}

theorem spares_changeCompiler {change : CompilerRecord S → CompilerRecord S}
    (kept : ∀ record, ∃ state owner, change record = { record with state, owner }) :
    world.Spares child operation (world.changeCompiler child change) where
  others other different := by
    rw [compiler_change, if_neg fun here => different here.1.symm]
  own := by
    rw [compiler_change]
    split
    · exact kept _
    · exact ⟨_, _, rfl⟩
  sessions := rfl
  cache := .inl rfl

/-- In whatever state it is made, an operation of a child spares all that belongs to others. -/
theorem spares_of_perform (ofChild : operation.OfChild child)
    (performed : world.perform task preferChanges operation = some (reply, after)) :
    world.Spares child operation after := by
  cases operation with
  | look | newCompilation =>
      cases performed
      exact ⟨fun _ _ => rfl, ⟨_, _, rfl⟩, rfl, .inl rfl⟩
  | retain modules =>
      cases performed
      exact ⟨fun _ _ => rfl, ⟨_, _, rfl⟩, rfl, .inr ⟨modules, rfl⟩⟩
  | shift =>
      obtain ⟨rfl, -⟩ := ofChild
      cases performed
      exact spares_changeCompiler fun _ => ⟨_, _, rfl⟩
  | release =>
      obtain rfl := ofChild
      cases performed
      exact spares_changeCompiler fun _ => ⟨_, _, rfl⟩
  | acquire =>
      obtain rfl := ofChild
      simp only [perform, acquire?] at performed
      split at performed
      · cases performed
        exact spares_changeCompiler fun _ => ⟨_, _, rfl⟩
      · cases performed
  | _ => exact ofChild.elim

/-- Compilations are numbered in the order in which they are made. -/
theorem lastCompilation_le (performed : world.perform task preferChanges operation = some (reply, after)) :
    world.lastCompilation ≤ after.lastCompilation := by
  by_cases sessional : OnSessions operation
  · obtain ⟨sessions, rfl⟩ := perform_onSessions sessional performed
    exact Nat.le_refl _
  · cases operation with
    | newCompilation =>
        cases performed
        exact Nat.le_succ _
    | acquire =>
        simp only [perform, acquire?] at performed
        split at performed <;> cases performed
        exact Nat.le_refl _
    | join =>
        obtain ⟨result, -, same⟩ := Option.map_eq_some_iff.mp performed
        cases same
        exact Nat.le_refl _
    | openSession | lookSession | send | dropHandle | deliver | await | takeSignals
    | takeChanges | setLastChange | shut | leave => exact (sessional trivial).elim
    | _ =>
        cases performed
        exact Nat.le_refl _

theorem newCompilation_id {compiler : CompilerId} {fresh : Compilation}
    (performed : world.perform task preferChanges (.newCompilation compiler) = some (fresh, after)) :
    world.lastCompilation < fresh.id ∧ fresh.id = after.lastCompilation := by
  cases performed
  exact ⟨Nat.lt_succ_self _, rfl⟩

theorem crash_lastCompilation (world : World S) (task : TaskId) :
    (world.crash task).lastCompilation = world.lastCompilation := by
  rw [crash]
  simp only
  cases world.drivers.get? task <;> rfl

end World

namespace Compiler

variable {child : CompilerId} {deeds : List (Deed S)}

theorem ofChild_observe {observer : S.Observer} {occasion : Occasion}
    (listed : occasion.hook ∈ childHooks) :
    (Call.observe child observer occasion).OfChild child := .inl ⟨_, listed, rfl⟩

theorem ofChild_adjust {observer : S.Observer} {adjustment : Adjustment} {compilation : Compilation}
    (listed : adjustment.hook ∈ childHooks) :
    (Call.adjust child observer adjustment compilation).OfChild child := .inl ⟨_, listed, rfl⟩

theorem within_buildPhase {compilation : Compilation} :
    (buildPhase child compilation : Phase S _).run.Within (Op.OfChild child) (Call.OfChild child) := by
  refine .phase (.lift (.look rfl)) fun record => ?_
  refine .phase (within_proceed (.invoke (.inr ⟨_, _, rfl⟩))) fun built => ?_
  refine .phase (.lift (.look rfl)) fun later => ?_
  split
  · exact .phase (.lift (.perform trivial)) fun _ => .pure _
  · exact .pure _

/-- Filling a compilation fires three hooks of its compiler and has it built. -/
theorem within_compile_child :
    (compile child : Phase S _).run.Within (Op.OfChild child) (Call.OfChild child) := by
  rw [compile_eq]
  refine .phase (.lift (.perform rfl)) fun fresh => ?_
  refine .phase (within_proceed (within_adjust rfl fun _ _ => ofChild_adjust (by decide))) fun _ => ?_
  refine .phase (within_proceed (within_adjust rfl fun _ _ => ofChild_adjust (by decide))) fun _ => ?_
  refine .phase within_buildPhase fun built => ?_
  exact .phase (within_observe rfl fun _ => ofChild_observe (by simp [Occasion.hook, childHooks]))
    fun _ => .pure _

theorem within_tellFailure_child {result : RunResult} :
    (tellFailure child result : Prog S Unit).Within (Op.OfChild child) (Call.OfChild child) := by
  cases result with
  | ok compilation => exact .pure _
  | error error =>
      exact within_tell rfl fun _ => ofChild_observe (by simp [Occasion.hook, childHooks])

/-- All that the run of a child does by itself. -/
theorem within_runAsChild_child :
    (runAsChild child : Prog S RunResult).Within (Op.OfChild child) (Call.OfChild child) := by
  refine .bind (.perform ⟨rfl, .inl rfl⟩) fun accepted => ?_
  cases accepted with
  | false => exact .pure _
  | true =>
      rw [if_pos rfl]
      refine .bind (.perform rfl) fun _ => .bind within_compile_child fun result => ?_
      refine .bind within_tellFailure_child fun _ => .bind (.perform ⟨rfl, .inr rfl⟩) fun _ => ?_
      exact .bind (.perform rfl) fun _ => .pure _

/-- What the run of a child does from its beginning to its end: it is refused, or goes through the
stages that fill a compilation up to the first failure, tells of the failure if there was one, and
gives the compiler back. -/
def ChildRun (child : CompilerId) (deeds : List (Deed S)) (result : RunResult) : Prop :=
  (deeds = [.op (.shift child .beginRun) false] ∧ result = .error .concurrent) ∨
  ∃ stages failure ended,
    deeds = .op (.shift child .beginRun) true :: .op (.acquire child) () :: (stages ++ (failure ++
      [.op (.shift child .endRun) ended, .op (.release child) ()])) ∧
    Sequence child filling default stages result ∧ TellsFailure child result failure

theorem childRun_of_play {result : RunResult} (play : (runAsChild child).Play deeds result) :
    ChildRun child deeds result := by
  obtain ⟨accepted, rest, begun, rfl⟩ := Prog.play_perform_bind.mp play
  cases accepted with
  | false =>
      obtain ⟨rfl, rfl⟩ := Prog.play_pure.mp begun
      exact .inl ⟨rfl, rfl⟩
  | true =>
      obtain ⟨_, rest, acquired, rfl⟩ := Prog.play_perform_bind.mp begun
      obtain ⟨stages, filled, rest, compiled, told, rfl⟩ := Prog.play_bind.mp acquired
      obtain ⟨failure, _, rest, tells, shifting, rfl⟩ := Prog.play_bind.mp told
      obtain ⟨ended, rest, releasing, rfl⟩ := Prog.play_perform_bind.mp shifting
      obtain ⟨_, rest, returned, rfl⟩ := Prog.play_perform_bind.mp releasing
      obtain ⟨rfl, rfl⟩ := Prog.play_pure.mp returned
      exact .inr ⟨stages, failure, ended, rfl, sequence_of_compile compiled, tellsFailure_of_play tells⟩

/-- However far it came, the run of a child can be brought to its end. -/
theorem play_of_within_child {left : Prog S α}
    (within : left.Within (Op.OfChild child) (Call.OfChild child)) :
    ∃ more value, left.Play more value := by
  induction within with
  | done value => exact ⟨[], value, .done value⟩
  | @op operation next allowed _ ih =>
      have reply : operation.Reply := by
        cases operation <;> first | exact default | exact allowed.elim
      obtain ⟨more, value, play⟩ := ih reply
      exact ⟨_, value, .op play⟩
  | @call outside next _ _ ih =>
      have reply : outside.Reply := by
        cases outside <;> exact default
      obtain ⟨more, value, play⟩ := ih reply
      exact ⟨_, value, .call play⟩

end Compiler

/-! ## The artifacts of others -/

namespace Prog

/-- A program that drops the artifacts of other modules only directly after it saw that the compiler
has no parent; `root` says whether it saw so just now. -/
inductive DropsAsRoot (compiler : CompilerId) : Bool → Prog S α → Prop where
  | done {root} (value : α) : DropsAsRoot compiler root (.done value)
  | look {root next} (rest : ∀ record, DropsAsRoot compiler (!record.parent.isTruthy) (next record)) :
      DropsAsRoot compiler root (.op (.look compiler) next)
  | drop {modules next} (rest : ∀ value, DropsAsRoot compiler false (next value)) :
      DropsAsRoot compiler true (.op (.retain modules) next)
  | op {root operation next} (keeps : ∀ modules, operation ≠ .retain modules)
      (rest : ∀ reply, DropsAsRoot compiler false (next reply)) :
      DropsAsRoot compiler root (.op operation next)
  | call {root outside next} (rest : ∀ reply, DropsAsRoot compiler false (next reply)) :
      DropsAsRoot compiler root (.call outside next)

variable {compiler : CompilerId} {root : Bool} {program left : Prog S α} {deeds : List (Deed S)}

theorem DropsAsRoot.of_false (drops : DropsAsRoot compiler false program) :
    DropsAsRoot compiler root program := by
  cases drops with
  | done value => exact .done value
  | look rest => exact .look rest
  | op keeps rest => exact .op keeps rest
  | call rest => exact .call rest

theorem DropsAsRoot.bind {next : α → Prog S β} (first : DropsAsRoot compiler root program)
    (rest : ∀ value, DropsAsRoot compiler false (next value)) :
    DropsAsRoot compiler root (program >>= next) := by
  change DropsAsRoot compiler root (program.bind next)
  induction first with
  | done value => exact (rest value).of_false
  | look _ ih => exact .look ih
  | drop _ ih => exact .drop ih
  | op keeps _ ih => exact .op keeps ih
  | call _ ih => exact .call ih

theorem DropsAsRoot.phase {first : Phase S α} {next : α → Phase S β}
    (before : DropsAsRoot compiler root first.run)
    (rest : ∀ value, DropsAsRoot compiler false (next value).run) :
    DropsAsRoot compiler root (first >>= next).run := by
  rw [ExceptT.run_bind]
  refine before.bind fun reply => ?_
  cases reply with
  | ok value => exact rest value
  | error error => exact .done _

theorem Within.dropsAsRoot
    (within : program.Within (fun operation => ∀ modules, operation ≠ .retain modules)
      fun _ => True) :
    DropsAsRoot compiler root program := by
  induction within generalizing root with
  | done value => exact .done value
  | op keeps _ ih => exact .op keeps fun reply => ih reply
  | call _ _ ih => exact .call fun reply => ih reply

/-- What was dropped was dropped directly after the compiler was seen to have no parent. -/
theorem DropsAsRoot.looked {modules : List String} {first rest : List (Deed S)}
    (drops : DropsAsRoot compiler root program) (path : program.Path deeds left)
    (made : deeds = first ++ .op (.retain modules) () :: rest) :
    (first = [] ∧ root = true) ∨ ∃ before record,
      first = before ++ [.op (.look compiler) record] ∧ record.parent.isTruthy = false := by
  induction path generalizing root first with
  | start => simp at made
  | @op operation next reply deeds left path ih =>
      -- The dropping comes later, and was led to by this operation or by another.
      have later : ∀ {state : Bool} {first : List (Deed S)}, DropsAsRoot compiler state (next reply) →
          .op operation reply :: deeds = .op operation reply :: (first ++ .op (.retain modules) () :: rest) →
          (first = [] ∧ state = true) ∨ ∃ before record,
            first = before ++ [.op (.look compiler) record] ∧ record.parent.isTruthy = false :=
        fun drops same => ih drops (List.cons.inj same).2
      cases first with
      | nil =>
          obtain ⟨same, -⟩ := List.cons.inj made
          cases same
          cases drops with
          | drop => exact .inl ⟨rfl, rfl⟩
          | op keeps => exact absurd rfl (keeps modules)
      | cons deed first =>
          obtain ⟨rfl, -⟩ := List.cons.inj made
          cases drops with
          | look next =>
              rcases later (next reply) made with ⟨rfl, rootless⟩ | ⟨before, record, rfl, rootless⟩
              · exact .inr ⟨[], reply, rfl, by simpa using rootless⟩
              · exact .inr ⟨_ :: before, record, rfl, rootless⟩
          | drop next | op _ next =>
              rcases later (next reply) made with ⟨-, none⟩ | ⟨before, record, rfl, rootless⟩
              · cases none
              · exact .inr ⟨_ :: before, record, rfl, rootless⟩
  | @call outside next reply deeds left path ih =>
      cases first with
      | nil => cases (List.cons.inj made).1
      | cons deed first =>
          cases drops with
          | call next =>
              rcases ih (next reply) (List.cons.inj made).2 with ⟨-, none⟩ | ⟨before, record, rfl, rootless⟩
              · cases none
              · exact .inr ⟨deed :: before, record, rfl, rootless⟩
  | request => cases drops

end Prog

namespace Compiler

variable {child : CompilerId}

theorem buildPhase_dropsAsRoot {compilation : Compilation} :
    Prog.DropsAsRoot child false (buildPhase child compilation : Phase S _).run := by
  refine .phase (Prog.Within.lift (.look nofun)).dropsAsRoot fun record => ?_
  refine .phase (within_proceed (.invoke trivial)).dropsAsRoot fun built => ?_
  have drops : ∀ record : CompilerRecord S, Prog.DropsAsRoot child (!record.parent.isTruthy) (do
      if !record.parent.isTruthy then
        (Prog.perform (.retain built.moduleIds) : Prog S Unit)
      return built : Phase S Compilation).run := by
    intro record
    cases record.parent.isTruthy with
    | true => exact .done _
    | false => exact .drop fun _ => .done _
  exact .look drops

theorem runAsChild_dropsAsRoot : Prog.DropsAsRoot child false (runAsChild child : Prog S RunResult) := by
  have adjusts : ∀ (adjustment : Adjustment) (compilation : Compilation), Prog.DropsAsRoot child false
      (proceed (adjust child adjustment compilation) : Phase S _).run := fun _ _ =>
    (within_proceed (within_adjust nofun fun _ _ => trivial)).dropsAsRoot
  have compiles : Prog.DropsAsRoot child false (compile child : Phase S _).run := by
    rw [compile_eq]
    refine .phase (Prog.Within.lift (.perform nofun)).dropsAsRoot fun fresh => ?_
    refine .phase (adjusts _ _) fun _ => .phase (adjusts _ _) fun _ => ?_
    refine .phase buildPhase_dropsAsRoot fun built => .phase ?_ fun _ => .done _
    exact (within_observe nofun fun _ => trivial).dropsAsRoot
  have tells : ∀ result, Prog.DropsAsRoot child false (tellFailure child result : Prog S Unit) := by
    intro result
    cases result with
    | ok compilation => exact .done _
    | error error => exact (within_tell nofun fun _ => trivial).dropsAsRoot
  refine .op nofun fun accepted => ?_
  cases accepted with
  | false => exact .done _
  | true =>
      refine .op nofun fun _ => compiles.bind fun result => (tells result).bind fun _ => ?_
      exact .op nofun fun _ => .op nofun fun _ => .done _

end Compiler

/-! ## Runs in executions -/

namespace Machine

variable {start machine after : Machine E} {events : List (TaskId × Event S)} {id task : TaskId}
  {child : CompilerId} {panics : Prop}

/-- A machine that the execution comes through while a task does no more than `inner`. -/
def During (start : Machine E) (events : List (TaskId × Event S)) (task : TaskId)
    (inner : List (Event S)) (reached : Machine E) : Prop :=
  ∃ before rest, events = before ++ rest ∧ start.Trace before reached ∧
    eventsOf task before <+: inner

open Compiler in
/-- What the run of a child does by itself, from where a task comes to it. It has come as far as
`left`, and the events of its deeds so far are `inner`. -/
structure Isolated (start : Machine E) (events : List (TaskId × Event S)) (task : TaskId)
    (child : CompilerId) (inner : List (Event S)) (deeds : List (Deed S))
    (left : Prog S RunResult) : Prop where
  /-- It fires no hook of another compiler, and only some of its own. -/
  calls : ∀ outside, Meets deeds left outside → outside.OfChild child
  /-- It makes no directories and writes no files. -/
  silent : ∀ outside, Meets deeds left outside → ¬ outside.Outputs
  /-- Its operations leave the state, the changes and all else of other compilers alone. -/
  spares : ∀ operation reply, .op operation reply ∈ deeds →
    ∀ id preferChanges (world after : World S),
      world.perform id preferChanges operation = some (reply, after) →
        world.Spares child operation after
  /-- It drops no artifacts while its mark makes it a child. -/
  keeps : (∀ reached, start.During events task inner reached →
      (reached.world.compiler child).parent.isTruthy = true) →
    ∀ modules, .op (.retain modules) () ∉ deeds
  /-- It has done what the run of a child does, in that order, as far as it has come. -/
  order : ∃ more result, left.Play more result ∧ ChildRun child (deeds ++ more) result
  /-- When it has ended it was refused, or it has left the child idle. -/
  ends : ∀ result, left = .done result → deeds = [.op (.shift child .beginRun) false] ∨
    ∃ before rest reached,
      events = before ++ (task, .op (.shift child .endRun) true) :: rest ∧
      eventsOf task before ++ [.op (.shift child .endRun) true, .op (.release child) ()] = inner ∧
      start.Trace (before ++ [(task, .op (.shift child .endRun) true)]) reached ∧
      (reached.world.compiler child).state = .idle

/-- The end of a run leaves the compiler idle. -/
theorem Tenured.idle_of_endRun {accepted : Bool} (tenured : machine.Tenured events)
    (step : machine.Step id (some (.op (.shift child .endRun) accepted)) after) :
    accepted = true ∧ (after.world.compiler child).state = .idle := by
  obtain rfl := tenured.accepted_of_ends step ⟨nofun, nofun⟩
  have fits := ((shifted step).1 rfl).2
  have moved : (after.world.compiler child).state =
      (machine.world.compiler child).state.after .endRun :=
    (tenured.stateAfter_op step child).trans (if_pos rfl)
  refine ⟨rfl, moved.trans ?_⟩
  cases state : (machine.world.compiler child).state with
  | running => rfl
  | idle | watching => simp [state, RunState.next?] at fits

/-- An operation of a program, where it stands in the execution. -/
theorem Trace.at_deed {inner later : List (Event S)} {first rest : List (Deed S)}
    {operation : Op S} {reply : operation.Reply} (trace : start.Trace events machine)
    (own : eventsOf task events = inner ++ later)
    (expands : Expands E (first ++ .op operation reply :: rest) inner) :
    ∃ before others more reached next, events = before ++ (task, .op operation reply) :: others ∧
      inner = eventsOf task before ++ .op operation reply :: more ∧ Expands E rest more ∧
      start.Trace before reached ∧ reached.Step task (some (.op operation reply)) next := by
  obtain ⟨seen, following, rfl, -, made⟩ := expands.of_append
  cases made with
  | @op _ _ _ more remaining =>
      rw [List.append_assoc, List.cons_append] at own
      obtain ⟨before, others, rfl, rfl, -⟩ := eventsOf_eq_append own
      obtain ⟨reached, next, begun, step, -⟩ := trace.split_at
      exact ⟨before, others, more, reached, next, rfl, rfl, remaining, begun, step⟩

theorem Step.lastCompilation_le {seen : Option (Event S)} (step : machine.Step id seen after) :
    machine.world.lastCompilation ≤ after.world.lastCompilation := by
  cases step with
  | op runs performed =>
      have grown := World.lastCompilation_le performed
      exact grown
  | crash runs => exact Nat.le_of_eq (World.crash_lastCompilation _ _).symm
  | call | request | turn | finish => exact Nat.le_refl _

theorem Trace.lastCompilation_le (trace : start.Trace events machine) :
    start.world.lastCompilation ≤ machine.world.lastCompilation := by
  induction trace with
  | start => exact Nat.le_refl _
  | seen _ step ih | unseen _ step ih => exact Nat.le_trans ih step.lastCompilation_le

/-- A compilation that is made later has a higher number, whichever compiler it is of. -/
theorem Trace.numbered {before during rest : List (TaskId × Event S)} {other : TaskId}
    {compiler another : CompilerId} {first second : Compilation}
    (trace : start.Trace (before ++ (id, .op (.newCompilation compiler) first) ::
      (during ++ (other, .op (.newCompilation another) second) :: rest)) machine) :
    first.id < second.id := by
  obtain ⟨_, made, -, making, onward⟩ := trace.split_at
  obtain ⟨reached, _, between, makingNext, -⟩ := onward.split_at
  cases making with
  | op runs performed =>
      cases makingNext with
      | op runsNext performedNext =>
          rw [(World.newCompilation_id performed).2]
          exact Nat.lt_of_le_of_lt between.lastCompilation_le
            (World.newCompilation_id performedNext).1

open Compiler in
/-- A run of a child keeps to itself, from where a task comes to it. -/
theorem Trace.isolated {middle : Machine E} {before rest : List (TaskId × Event S)}
    {inner later : List (Event S)} {deeds : List (Deed S)} {left : Prog S RunResult}
    (begun : start.Trace before middle) (vacant : start.Vacant panics) (hosts : E.Hosts panics)
    (onward : middle.Trace rest machine) (own : eventsOf task rest = inner ++ later)
    (passage : Passage E (runAsChild child) inner later deeds left) :
    middle.Isolated rest task child inner deeds left := by
  have path := passage.path
  have expands := passage.expands
  obtain ⟨remaining, made⟩ := within_runAsChild_child.path path
  have calls : ∀ outside, Meets deeds left outside → outside.OfChild child := by
    rintro outside (⟨reply, member⟩ | ⟨next, rfl⟩)
    · exact made _ member
    · cases remaining with
      | call allowed _ => exact allowed
  refine ⟨calls, fun outside meets => (calls outside meets).not_outputs,
    fun operation reply member _ _ _ _ performed => World.spares_of_perform (made _ member) performed,
    fun marked modules member => ?_, ?_, fun result ended => ?_⟩
  · obtain ⟨first, following, rfl⟩ := List.append_of_mem member
    rcases runAsChild_dropsAsRoot.looked path rfl with ⟨-, none⟩ | ⟨past, record, rfl, rootless⟩
    · cases none
    · rw [List.append_assoc] at expands
      obtain ⟨past, others, more, reached, next, rfl, rfl, -, here, step⟩ :=
        onward.at_deed own expands
      have truthy := marked reached ⟨past, _, rfl, here, List.prefix_append _ _⟩
      cases step with
      | op runs performed =>
          cases performed
          rw [rootless] at truthy
          cases truthy
  · obtain ⟨more, result, play⟩ := play_of_within_child remaining
    exact ⟨more, result, play, childRun_of_play (path.play play)⟩
  · obtain rfl := ended
    refine (childRun_of_play path.play_of_done).imp And.left ?_
    rintro ⟨stages, failure, accepted, rfl, -, -⟩
    have whole : .op (.shift child .beginRun) true :: .op (.acquire child) () :: (stages ++ (failure ++
        [.op (.shift child .endRun) accepted, .op (.release child) ()])) =
        (.op (.shift child .beginRun) true :: .op (.acquire child) () :: (stages ++ failure)) ++
          .op (.shift child .endRun) accepted :: [.op (.release child) ()] := by simp
    rw [whole] at expands
    obtain ⟨past, others, more, reached, next, rfl, rfl, last, here, step⟩ :=
      onward.at_deed own expands
    obtain ⟨rfl, idle⟩ := ((begun.append here).tenured vacant hosts).idle_of_endRun step
    cases last with
    | op ended =>
        cases ended
        exact ⟨past, others, next, rfl, rfl, .seen here step, idle⟩

end Machine

/-! ### A child within a build -/

/-- Code outside that does nothing, but for the builder. -/
def Environment.building
    (build : CompilerId → Compilation → Prog Setting.plain (Except RunError Unit × Compilation)) :
    Environment Setting.plain where
  State := Unit
  answer
    | .build compiler _ compilation => build compiler compilation
    | outside => Environment.inert.answer outside
  serve wish := wish.elim

namespace Compiler

/-- To build for the first compiler is to run a child of it, and to attach what came of that. -/
def nestedBuild : CompilerId → Compilation →
    Prog Setting.plain (Except RunError Unit × Compilation)
  | 0, compilation => do
    let child ← createChild 0 compilation "inner" none fun child =>
      Prog.perform (.register child .compilation "log" (.outside ()))
    let result ← runAsChild child
    return (.ok (), (result.toOption.map compilation.addChild).getD compilation)
  | _, compilation => return (.ok (), compilation)

theorem nestedBuild_hosts : (Environment.building nestedBuild).Hosts False := by
  have visitor : ∀ compiler compilation, (nestedBuild compiler compilation).Visitor False := by
    intro compiler compilation
    cases compiler with
    | zero =>
        exact .op trivial fun _ => .op ⟨rfl, rfl⟩ fun _ => .op trivial fun _ =>
          .runAsChild fun _ => .done _
    | succ => exact .done _
  intro outside
  cases outside with
  | build compiler input compilation => exact visitor compiler compilation
  | _ => exact .done _

/-- A task starts a run of a compiler whose builder runs a child. -/
def nester : Machine (Environment.building nestedBuild) := .hosting () [observedCompiler] (run 0 ())

theorem nester_vacant : nester.Vacant False := by
  have visitor : (run 0 () >>= pure : Prog Setting.plain Unit).Visitor False :=
    .run fun _ => .done ()
  rw [bind_pure] at visitor
  refine Machine.vacant_hosting visitor fun record member => ?_
  obtain rfl : record = observedCompiler := by simpa using member
  exact ⟨rfl, rfl⟩

/-- The run up to where its builder comes to run the child. -/
def entered : List (TaskId × Event Setting.plain) × Machine (Environment.building nestedBuild) :=
  Machine.playback [] nester (List.replicate 3 0 ++ List.replicate 3 1 ++ List.replicate 10 2)

/-- The rest of the run. -/
def nested : List (TaskId × Event Setting.plain) × Machine (Environment.building nestedBuild) :=
  Machine.playback [] entered.2 (List.replicate 60 2 ++ List.replicate 12 1)

end Compiler

end Bundler
