import Bundler.Proofs.Compiler.TaskHistory

/-!
# Runs in executions

The task of a run leaves the phases to a worker and waits for it. In every execution the
worker does exactly the stages of the run and leaves their result before the run goes on,
so the two tasks together go through one life cycle: `LifeCycle`. Every single run that
has ended is one, and so is every run of a session.
-/

namespace Bundler.Compiler

variable {S : Setting} {E : Environment S}

/-- A task left a job to a worker and did nothing until it got the result. The worker did
nothing but these deeds, all of them in the meantime, and the last thing it did was to
leave the result. -/
def Delegates (E : Environment S) (events : List (TaskId × Event S)) (task worker : TaskId)
    (job : Job S) (deeds : List (Deed S)) (result : RunResult) : Prop :=
  ∃ before during after seen,
    events = before ++ (task, .op (.spawn job) worker) ::
      (during ++ (task, .op (.join worker) result) :: after) ∧
    eventsOf task during = [] ∧
    eventsOf worker before = [] ∧
    eventsOf worker during = seen ++ [.op (.report result) ()] ∧
    eventsOf worker after = [] ∧
    Expands E deeds seen

/-- A callback or a handler is called with a result. -/
def handsOn : Deed S → Bool
  | .call (.answer ..) _ => true
  | .call (.handle ..) _ => true
  | _ => false

/-- The life cycle of a run: its task leaves the phases to a worker, which performs the
stages of the agenda up to the first failure; a failure is told of; the result is handed on,
once; and the observers of `after_done` come last. -/
def LifeCycle (E : Environment S) (events : List (TaskId × Event S)) (task : TaskId)
    (kind : RunKind) (compiler : CompilerId) (finish : RunResult → Deed S)
    (deeds : List (Deed S)) : Prop :=
  ∃ worker result stages wanted,
    RunShape kind compiler finish worker result deeds ∧
    Delegates E events task worker (phasesJob kind compiler) stages result ∧
    Sequence compiler (agenda kind wanted) default stages result ∧
    (stages ++ deeds).filter handsOn = [finish result]

/-! ## The result is handed on once -/

section HandsOn

variable {kind : RunKind} {compiler : CompilerId} {deeds : List (Deed S)}

theorem handsOn_of_quiet (quiet : AllQuiet deeds) : deeds.filter handsOn = [] := by
  rw [List.filter_eq_nil_iff]
  intro deed member hands
  have calm := quiet deed member
  cases deed with
  | call outside reply => cases outside <;> first | exact (calm trivial).elim | cases hands
  | op | request => cases hands

theorem handsOn_of_observes (observes : ∀ deed ∈ deeds, Observes deed) :
    deeds.filter handsOn = [] := by
  rw [List.filter_eq_nil_iff]
  intro deed member hands
  have observed := observes deed member
  cases deed with
  | call outside reply => cases outside <;> first | exact observed.elim | cases hands
  | op | request => cases hands

theorem handsOn_of_shape {finish : RunResult → Deed S} {worker : TaskId} {result : RunResult}
    (finishes : handsOn (finish result) = true)
    (shape : RunShape kind compiler finish worker result deeds) :
    deeds.filter handsOn = [finish result] := by
  obtain ⟨head, last, ending, rfl, shape, fires⟩ := shape
  obtain ⟨before, between, failure, middle, rest, rfl, early, joined, told, late, final⟩ := shape
  rw [List.filter_append, handsOn_of_observes (observes_of_fires fires), List.append_nil,
    List.filter_append, handsOn_of_quiet early, List.nil_append,
    List.filter_cons_of_neg Bool.false_ne_true, List.filter_cons_of_neg Bool.false_ne_true,
    List.filter_append, handsOn_of_quiet joined, List.nil_append,
    List.filter_append, handsOn_of_observes (observes_of_tellsFailure told), List.nil_append,
    List.filter_append, handsOn_of_quiet late, List.nil_append,
    List.filter_cons_of_pos finishes, handsOn_of_quiet final]

/-- The stages of a run hand nothing on. -/
theorem handsOn_of_phasesOf {result : RunResult}
    (play : (phasesOf kind compiler : Phase S _).run.Play deeds result) :
    deeds.filter handsOn = [] := by
  have allows : AllowsPhases compiler (fun _ : Op S => True)
      fun outside => ∀ reply, handsOn (.call outside reply) = false :=
    { look := trivial, creating := trivial, retaining := fun _ => trivial
      observing := fun _ _ _ _ => rfl, adjusting := fun _ _ _ _ => rfl
      deciding := fun _ _ _ => rfl, building := fun _ _ _ => rfl
      making := fun _ _ _ => rfl, writing := fun _ _ _ _ => rfl }
  have within : (phasesOf kind compiler : Phase S _).run.Within (fun _ => True)
      fun outside => ∀ reply, handsOn (.call outside reply) = false := by
    cases kind with
    | single => exact allows.within_phases
    | watch => exact allows.within_watchPhases
  rw [List.filter_eq_nil_iff]
  intro deed member hands
  have allowed := within.play play deed member
  cases deed with
  | call outside reply => exact Bool.false_ne_true ((allowed reply).symm.trans hands)
  | op | request => cases hands

end HandsOn

/-! ## The worker of a run -/

section Worker

variable {kind : RunKind} {compiler : CompilerId} {deeds : List (Deed S)}
  {left : Prog S (Next S)}

theorem program_phasesJob : program (phasesJob kind compiler : Job S) =
    reporting (phasesOf kind compiler) := by
  cases kind <;> rfl

/-- Phases do not report. -/
theorem within_phasesOf : (phasesOf kind compiler : Phase S _).run.Within
    (fun operation => ¬ operation.Reports) fun _ => True := by
  have allows : AllowsPhases compiler (fun operation : Op S => ¬ operation.Reports)
      fun _ => True :=
    { look := id, creating := id, retaining := fun _ => id, observing := fun _ _ _ => trivial
      adjusting := fun _ _ _ => trivial, deciding := fun _ _ => trivial
      building := fun _ _ => trivial, making := fun _ _ => trivial
      writing := fun _ _ _ => trivial }
  cases kind with
  | single => exact allows.within_phases
  | watch => exact allows.within_watchPhases

/-- A worker has one turn. -/
theorem path_of_course (course : Course (phasesJob kind compiler) deeds left) :
    (reporting (phasesOf kind compiler)).Path deeds left := by
  rw [← program_phasesJob]
  cases course with
  | within path => exact path
  | turn play later =>
      have drives := drives_of_play play nofun
      cases kind <;> exact drives.elim

/-- A worker that has reported has done all stages, and nothing else. -/
theorem course_of_report {result : RunResult}
    (course : Course (phasesJob kind compiler) deeds left)
    (reported : .op (.report result) () ∈ deeds) :
    ∃ stages, deeds = stages ++ [.op (.report result) ()] ∧ left = .done none ∧
      (phasesOf kind compiler).run.Play stages result ∧
      ∀ other, .op (.report other) () ∉ stages := by
  have path := path_of_course course
  rcases path.of_bind with ⟨remaining, within, -⟩ | ⟨stages, value, more, play, beyond, rfl⟩
  · exact absurd trivial ((within_phasesOf.path within).2 _ reported)
  · have silent : ∀ other, .op (.report other) () ∉ stages := fun other member =>
      within_phasesOf.play play _ member trivial
    cases beyond with
    | start =>
        rw [List.append_nil] at reported
        exact absurd reported (silent result)
    | op ended =>
        cases ended with
        | start =>
            rcases List.mem_append.mp reported with member | member
            · exact absurd member (silent result)
            · cases List.mem_singleton.mp member
              exact ⟨stages, rfl, rfl, play, silent⟩

/-- The events of a worker that has reported. -/
theorem accounts_of_report {own : List (Event S)} {state : Option (Prog S (Next S))}
    {result : RunResult} (regular : E.Regular)
    (accounts : Accounts E (phasesJob kind compiler) own state)
    (reported : .op (.report result) () ∈ own) :
    ∃ stages seen, own = seen ++ [.op (.report result) ()] ∧ Expands E stages seen ∧
      (phasesOf kind compiler).run.Play stages result ∧ .op (.report result) () ∉ seen := by
  have answers : ∀ outside, (E.answer outside).Avoids Op.Reports := fun outside =>
    (regular outside).avoids_reports
  have reports : Op.Reports (.report result : Op S) := trivial
  have settles : ∀ {deeds left}, Course (phasesJob kind compiler) deeds left →
      Expands E deeds own →
      ∃ stages seen, own = seen ++ [.op (.report result) ()] ∧ Expands E stages seen ∧
        (phasesOf kind compiler).run.Play stages result ∧ .op (.report result) () ∉ seen := by
    intro deeds left course expands
    have made := (expands.mem_op answers reports).mp reported
    obtain ⟨stages, rfl, -, play, silent⟩ := course_of_report course made
    obtain ⟨seen, last, rfl, before, after⟩ := expands.of_append
    cases after with
    | op rest =>
        cases rest
        exact ⟨stages, seen, rfl, before, play, fun member =>
          silent result ((before.mem_op answers reports).mp member)⟩
  cases accounts with
  | between course expands => exact settles course expands
  | finish course expands => exact settles course expands
  | @calling deeds events outside next inner code course expands follows =>
      have avoids := ((answers outside).follows answers follows).2
      rcases List.mem_append.mp reported with member | member
      · have made := (expands.mem_op answers reports).mp member
        obtain ⟨_, -, same, -, -⟩ := course_of_report course made
        cases same
      · rcases List.mem_cons.mp member with same | member
        · cases same
        · exact absurd trivial (avoids _ _ member)

end Worker

/-! ## The two tasks of a run -/

variable {start machine : Machine E} {events : List (TaskId × Event S)}

/-- What follows an element that stands only at the end. -/
theorem eq_nil_of_append_mem {α : Type} {first rest whole : List α} {last : α}
    (same : whole ++ [last] = first ++ rest) (member : last ∈ first) (absent : last ∉ whole) :
    rest = [] := by
  rcases List.eq_nil_or_concat rest with rfl | ⟨shorter, final, rfl⟩
  · rfl
  · rw [List.concat_eq_append, ← List.append_assoc] at same
    obtain ⟨rfl, -⟩ := List.append_inj' same rfl
    exact absurd (List.mem_append_left shorter member) absent

/-- A run that went on after its phases left them to a worker, which performed them. -/
theorem delegates_of_trace {task worker : TaskId} {kind : RunKind} {compiler : CompilerId}
    {result : RunResult} {earlier later : List (Event S)} (trace : start.Trace events machine)
    (fresh : start.Fresh) (regular : E.Regular)
    (own : eventsOf task events = earlier ++
      .op (.spawn (phasesJob kind compiler)) worker :: .op (.join worker) result :: later) :
    ∃ stages, Delegates E events task worker (phasesJob kind compiler) stages result ∧
      (phasesOf kind compiler).run.Play stages result := by
  obtain ⟨before, rest, rfl, -, remaining⟩ := eventsOf_eq_append own
  rw [← List.nil_append (_ :: later)] at remaining
  obtain ⟨during, after, rfl, waiting, -⟩ := eventsOf_eq_append remaining
  -- The worker is new when it is spawned.
  obtain ⟨first, second, begun, spawn⟩ := trace.split
  obtain ⟨named, different, -⟩ := (begun.tidy fresh).program?_spawned spawn
  have nothing : eventsOf worker before = [] := by
    rw [List.eq_nil_iff_forall_not_mem]
    intro event member
    have lower := begun.lt_nextTask fresh (mem_eventsOf.mp member)
    exact Nat.lt_irrefl _ (named ▸ lower)
  -- The result that the task gets was left by the worker.
  rw [← List.cons_append, ← List.append_assoc] at trace
  obtain ⟨third, fourth, waited, join⟩ := trace.split
  have reported : .op (.report result) () ∈ eventsOf worker during := by
    cases join with
    | op runs performed =>
        have left := World.perform_join performed
        have member := mem_eventsOf.mpr (waited.reported fresh regular left)
        rw [eventsOf_append, nothing, List.nil_append,
          eventsOf_cons_of_ne different.symm] at member
        exact member
  -- All events of the worker come from its job.
  have spawned : (task, .op (.spawn (phasesJob kind compiler)) worker) ∈ before ++
      (task, .op (.spawn (phasesJob kind compiler)) worker) :: during ++
        (task, .op (.join worker) result) :: after := by simp
  have accounts := trace.accounts fresh regular spawned
  rw [eventsOf_append, eventsOf_append, nothing, List.nil_append,
    eventsOf_cons_of_ne different.symm, eventsOf_cons_of_ne different.symm] at accounts
  obtain ⟨stages, seen, same, expands, play, silent⟩ :=
    accounts_of_report regular accounts (List.mem_append_left _ reported)
  have nothingMore := eq_nil_of_append_mem same.symm reported silent
  rw [nothingMore, List.append_nil] at same
  exact ⟨stages, ⟨before, during, after, seen, rfl, waiting, nothing, same, nothingMore, expands⟩, play⟩

/-- A run of a task has a life cycle, wherever it stands in the history of the task. -/
theorem lifeCycle_of_shape {task worker : TaskId} {kind : RunKind} {compiler : CompilerId}
    {finish : RunResult → Deed S} {result : RunResult} {before middle after : List (Deed S)}
    {seen current : List (Event S)} (trace : start.Trace events machine) (fresh : start.Fresh)
    (regular : E.Regular) (own : eventsOf task events = seen ++ current)
    (expands : Expands E (before ++ (middle ++ after)) seen)
    (finishes : handsOn (finish result) = true)
    (shape : RunShape kind compiler finish worker result middle) :
    LifeCycle E events task kind compiler finish middle := by
  obtain ⟨head, last, ending, rfl, head', fires⟩ := id shape
  obtain ⟨early, between, failure, late, rest, rfl, -⟩ := head'
  simp only [List.append_assoc, List.cons_append] at expands
  rw [← List.append_assoc] at expands
  obtain ⟨earlier, others, rfl, -, delegated⟩ := expands.of_append
  cases delegated with
  | op joined =>
      cases joined with
      | op remaining =>
          rw [List.append_assoc] at own
          obtain ⟨stages, delegates, play⟩ := delegates_of_trace trace fresh regular own
          obtain ⟨wanted, sequence⟩ := sequence_of_phasesOf play
          refine ⟨worker, result, stages, wanted, shape, delegates, sequence, ?_⟩
          rw [List.filter_append, handsOn_of_phasesOf play, handsOn_of_shape finishes shape]
          rfl

/-- The history of a single run that has ended. -/
theorem course_of_run {compiler : CompilerId} {callback : S.Callback} {deeds : List (Deed S)}
    (course : Course (.run compiler callback) deeds (.done none)) :
    (runToEnd compiler callback).Play deeds () := by
  have plays : ∀ {first : List (Deed S)} {next : Next S},
      (program (.run compiler callback)).Play first next →
      (runToEnd compiler callback).Play first () ∧ next = none := by
    intro first next play
    obtain ⟨before, value, _, begun, ended, rfl⟩ := Prog.play_bind.mp play
    obtain ⟨rfl, rfl⟩ := Prog.play_pure.mp ended
    exact ⟨by simpa using begun, rfl⟩
  cases course with
  | within path => exact (plays path.play_of_done).1
  | turn play later => cases (plays play).2

/-- In every execution, each single run that has ended went through one life cycle between
its beginning and the release of its compiler, and did nothing else; and the history of
each session consists of runs with their life cycles, with quiet deeds between them, and at
most one run under way at the end. -/
theorem lifeCycle (regular : E.Regular) (fresh : start.Fresh)
    (trace : start.Trace events machine) :
    (∀ spawner task compiler callback,
      (spawner, .op (.spawn (.run compiler callback)) task) ∈ events →
      machine.program? task = none →
      ∃ deeds,
        Expands E (.op (.acquire compiler) () :: (deeds ++ [.op (.release compiler) ()]))
          (eventsOf task events) ∧
        LifeCycle E events task .single compiler (answering callback) deeds) ∧
    ∀ spawner task driver,
      (spawner, .op (.spawn (.drive .waiting driver)) task) ∈ events →
      ∃ deeds seen current,
        eventsOf task events = seen ++ current ∧ Expands E deeds seen ∧
        (current = [] ∨ ∃ outside inner, current = .call outside :: inner) ∧
        Session driver.compiler
          (LifeCycle E events task .watch driver.compiler (handling driver.handler)) deeds := by
  constructor
  · intro spawner task compiler callback spawned ended
    have accounts := trace.accounts fresh regular spawned
    rw [ended] at accounts
    generalize own : eventsOf task events = seen at accounts
    cases accounts with
    | finish course expands =>
        obtain ⟨worker, result, middle, rfl, shape⟩ := shape_of_runToEnd (course_of_run course)
        refine ⟨middle, expands, ?_⟩
        rw [← List.append_nil seen] at own
        rw [← List.singleton_append] at expands
        exact lifeCycle_of_shape trace fresh regular own expands rfl shape
  · intro spawner task driver spawned
    have accounts := trace.accounts fresh regular spawned
    have upgrades : ∀ {deeds left seen current},
        Course (.drive .waiting driver) deeds left → Expands E deeds seen →
        eventsOf task events = seen ++ current →
        Session driver.compiler
          (LifeCycle E events task .watch driver.compiler (handling driver.handler)) deeds := by
      intro deeds left seen current course expands own
      have session : Session driver.compiler (WatchRun driver.compiler driver.handler) deeds :=
        stageShape_of_course course
      refine session.mono fun before middle after same run => ?_
      obtain ⟨worker, result, shape⟩ := run
      exact lifeCycle_of_shape trace fresh regular own (same ▸ expands) rfl shape
    generalize machine.program? task = state at accounts
    generalize own : eventsOf task events = all at accounts
    cases accounts with
    | between course expands =>
        exact ⟨_, all, [], (List.append_nil all).symm, expands, .inl rfl,
          upgrades course expands (own.trans (List.append_nil all).symm)⟩
    | finish course expands =>
        exact ⟨_, all, [], (List.append_nil all).symm, expands, .inl rfl,
          upgrades course expands (own.trans (List.append_nil all).symm)⟩
    | calling course expands follows =>
        exact ⟨_, _, _, rfl, expands, .inr ⟨_, _, rfl⟩, upgrades course expands own⟩

/-! ## A run and a session -/

/-- A task starts a run of one compiler and a session of another. -/
def starting : Prog Setting.plain Unit := do
  run 0 ()
  let _ ← watch 1 {} ()

def starter : Machine Environment.inert :=
  .hosting () [observedCompiler, observedCompiler] starting

theorem starter_fresh : starter.Fresh := by
  refine Machine.fresh_hosting (.run fun _ => .watch fun _ => .done ()) fun record member => ?_
  obtain rfl : record = observedCompiler := by simpa using member
  exact ⟨rfl, rfl⟩

/-- The run and the session go on until there is nothing left to do. -/
def started : List (TaskId × Event Setting.plain) × Machine Environment.inert :=
  Machine.playback [] starter
    (List.replicate 6 0 ++ List.replicate 3 1 ++ List.replicate 8 2 ++ List.replicate 20 3 ++
      List.replicate 20 4 ++ List.replicate 9 1 ++ List.replicate 12 2)

theorem started_trace : starter.Trace started.1 started.2 := Machine.trace_playback .start _

/-- The run has ended with its life cycle, and so has a run of the session. -/
theorem lifeCycle_started :
    (∃ deeds,
      Expands Environment.inert (.op (.acquire 0) () :: (deeds ++ [.op (.release 0) ()]))
        (eventsOf 1 started.1) ∧
      LifeCycle Environment.inert started.1 1 .single 0 (answering ()) deeds) ∧
    (2, .op (.release 1) ()) ∈ started.1 ∧
    ∃ deeds seen current,
      eventsOf 2 started.1 = seen ++ current ∧ Expands Environment.inert deeds seen ∧
      (current = [] ∨ ∃ outside inner, current = .call outside :: inner) ∧
      Session 1 (LifeCycle Environment.inert started.1 2 .watch 1 (handling ())) deeds := by
  have cycles := lifeCycle Environment.inert_regular starter_fresh started_trace
  refine ⟨cycles.1 0 1 0 () (List.mem_of_getElem? (i := 1) rfl) rfl, ?_, ?_⟩
  · exact List.mem_of_getElem? (i := 56) rfl
  · exact cycles.2 0 2 _ (List.mem_of_getElem? (i := 4) rfl)

end Bundler.Compiler
