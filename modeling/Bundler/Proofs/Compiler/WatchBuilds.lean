import Bundler.Proofs.Compiler.BuildsUnderWay
import Bundler.Proofs.Compiler.WatchedEdits
import Bundler.Proofs.Path.Joining

/-!
# Watch runs and cold builds

Two caches survive from run to run of a watch session: what the input storage has read, and the
artifacts of modules. The driver has the first one forgotten only if there are changes, and the
second one is never cleared as a whole. `Machine.watch_builds` says that they do not matter: if
files change only between runs, and the changes are told of before the next run takes its changes,
every build of every run ends as a build does that has no cache, on the files as they are then.
-/

namespace Bundler

open Build SessionView

variable {S : Setting}

/-! ## The builds of an execution -/

namespace Event

/-- The options of a compiler that was looked at. -/
def options? : Event S → Option Options
  | .op (.look _) record => some record.options
  | _ => none

end Event

/-- The builds among some events, with the files as they were when each of them began and the
options that it looked at first. -/
def buildsOf (files : FileTree) : List (TaskId × Event S.filed) → List BuildCall
  | [] => []
  | (task, event) :: rest =>
    (do
      let compilation ← event.build?
      let options ← (eventsOf task rest).head?.bind Event.options?
      return (⟨files.toFileView, options, Compiler.fileLimit, compilation⟩ : BuildCall)).toList ++
        buildsOf (event.filesAfter files) rest

theorem mem_buildsOf {files : FileTree} {before after : List (TaskId × Event S.filed)}
    {task : TaskId} {compiler looked : CompilerId} {input : StorageId} {compilation : Compilation}
    {record : CompilerRecord S.filed} {rest : List (Event S.filed)}
    (first : eventsOf task after = .op (.look looked) record :: rest) :
    ⟨(filesOf files before).toFileView, record.options, Compiler.fileLimit, compilation⟩ ∈
      buildsOf files (before ++ (task, .call (.build compiler input compilation)) :: after) := by
  induction before generalizing files with
  | nil =>
      rw [List.nil_append, buildsOf]
      refine List.mem_append_left _ ?_
      simp [Event.build?, first, Event.options?, filesOf]
  | cons entry before ih => exact List.mem_append_right _ ih

/-- A build has begun, with the files that there were and what its task has done since. -/
def Begun (files : FileTree) (events : List (TaskId × Event S.filed)) (builder : TaskId)
    (compiler : CompilerId) (input : StorageId) (compilation : Compilation) (held : FileTree)
    (seen : List (Event S.filed)) : Prop :=
  ∃ before after, events = before ++ (builder, .call (.build compiler input compilation)) :: after ∧
    filesOf files before = held ∧ eventsOf builder after = seen

section Begun

variable {files held : FileTree} {events : List (TaskId × Event S.filed)} {builder id : TaskId}
  {compiler : CompilerId} {input : StorageId} {compilation : Compilation}
  {seen : List (Event S.filed)} {event : Event S.filed}

theorem Begun.mem (begun : Begun files events builder compiler input compilation held seen) :
    (builder, .call (.build compiler input compilation)) ∈ events := by
  obtain ⟨before, after, rfl, -, -⟩ := begun
  simp

theorem Begun.self (begun : Begun files events builder compiler input compilation held seen)
    (event : Event S.filed) :
    Begun files (events ++ [(builder, event)]) builder compiler input compilation held
      (seen ++ [event]) := by
  obtain ⟨before, after, rfl, holds, rfl⟩ := begun
  exact ⟨before, after ++ [(builder, event)], by simp, holds, by rw [eventsOf_append, eventsOf_self]⟩

theorem Begun.other (begun : Begun files events builder compiler input compilation held seen)
    (event : Event S.filed) (different : id ≠ builder) :
    Begun files (events ++ [(id, event)]) builder compiler input compilation held seen := by
  obtain ⟨before, after, rfl, holds, rfl⟩ := begun
  refine ⟨before, after ++ [(id, event)], by simp, holds, ?_⟩
  rw [eventsOf_append, eventsOf_of_ne different, List.append_nil]

/-- With one more event, a build has just begun, or it had begun before. -/
theorem Begun.of_append
    (begun : Begun files (events ++ [(id, event)]) builder compiler input compilation held seen) :
    (id = builder ∧ event = .call (.build compiler input compilation) ∧
      held = filesOf files events ∧ seen = []) ∨
    ∃ earlier, Begun files events builder compiler input compilation held earlier ∧
      seen = earlier ++ if id = builder then [event] else [] := by
  obtain ⟨before, after, whole, holds, own⟩ := begun
  rcases List.eq_nil_or_concat after with rfl | ⟨shorter, last, rfl⟩
  · obtain ⟨rfl, same⟩ := List.append_inj' whole rfl
    cases same
    exact .inl ⟨rfl, rfl, holds.symm, own.symm⟩
  · rw [List.concat_eq_append, ← List.cons_append, ← List.append_assoc] at whole
    obtain ⟨rfl, same⟩ := List.append_inj' whole rfl
    cases same
    refine .inr ⟨eventsOf builder shorter, ⟨before, shorter, rfl, holds, rfl⟩, ?_⟩
    rw [← own, List.concat_eq_append, eventsOf_append]
    split
    · rename_i same
      rw [same, eventsOf_self]
    · rename_i different
      rw [eventsOf_of_ne different]

/-- A build that has just looked at the options is one of the builds of the execution. -/
theorem Begun.mem_builds {later : List (TaskId × Event S.filed)} {record : CompilerRecord S.filed}
    {looked : CompilerId} (begun : Begun files events builder compiler input compilation held []) :
    ⟨held.toFileView, record.options, Compiler.fileLimit, compilation⟩ ∈
      buildsOf files (events ++ (builder, .op (.look looked) record) :: later) := by
  obtain ⟨before, after, rfl, rfl, unseen⟩ := begun
  rw [List.append_assoc, List.cons_append]
  have first : eventsOf builder (after ++ (builder, .op (.look looked) record) :: later) =
      .op (.look looked) record :: eventsOf builder later := by
    rw [eventsOf_append, unseen, eventsOf_cons_self, List.nil_append]
  exact mem_buildsOf first

end Begun

/-! ## Sessions over files -/

/-- A watch session over a storage that may remember what it saw, with what its builds rely on. -/
structure FileSession {U : Surroundings S} (panics : Prop) (start opened machine : Machine U.environment)
    (past life : List (TaskId × Event S.filed)) (driver : TaskId) (watching : Driver S.filed)
    (input : StorageId) (context : Path) (earlier : List BuildCall) : Prop where
  vacant : start.Vacant panics
  visits : ∀ outside, (U.code outside).Visitor panics
  /-- The code outside does not alter the caches. -/
  discreet : ∀ outside, (U.code outside).Shuns Op.Meddles
  opens : ∃ opener, start.Trace
    (past ++ [(opener, .op (.openSession watching.compiler) watching.session)]) opened
  /-- No build is under way when the session is opened. -/
  calm : ∀ id program, opened.program? id = some program → program.Shuns Op.Meddles
  lives : opened.Trace life machine
  driven : ∃ spawner stage, (spawner, .op (.spawn (.drive stage watching)) driver) ∈ life
  reads : opened.world.Reads watching.compiler input
  /-- The storage remembers nothing that is not so. -/
  fresh : opened.state.Fresh input
  /-- The artifacts that are kept were rendered by earlier builds. -/
  honest : opened.Trusted (earlier.flatMap fun call => tablesOf call.scan)
  /-- Only runs of the session build, and they read through the storage. -/
  own : ∀ builder compiler origin compilation,
    (builder, .call (.build compiler origin compilation)) ∈ life →
    origin = input ∧ ∃ run, (driver, .op (.spawn (.watchPhases run)) builder) ∈ life
  absolute : context.isAbsolute = true
  oneContext : ∀ call ∈ earlier ++ buildsOf opened.state.files life, call.options.context = context
  plain : ∀ call ∈ earlier ++ buildsOf opened.state.files life, PlainFiles call.view
  /-- Nothing that is hashed collides. -/
  apart : ∀ first ∈ (earlier ++ buildsOf opened.state.files life).flatMap
      (BuildCall.hashed Fingerprint.of),
    ∀ second ∈ (earlier ++ buildsOf opened.state.files life).flatMap
      (BuildCall.hashed Fingerprint.of),
      Fingerprint.of first = Fingerprint.of second → first = second
  /-- Files are edited between runs only. -/
  between : ∀ before editor files after,
    life = before ++ (editor, .request (.edit files) ()) :: after →
    windowOf watching.compiler input (eventsOf driver before) = .closed
  /-- What was touched is told of before the next run takes its changes. -/
  announced : ∀ before changes after,
    life = before ++ (driver, .op (.setChanges watching.compiler changes) ()) :: after →
    ∀ path, (surveyOf opened.state.files (marked driver before)).touched path →
      ∃ notice ∈ received watching.session (sinceRun (marked driver before)), notice.Mentions path

/-- What becomes of a build, by what its task does since it began: it has ended as one without a
cache does, or it goes on. -/
inductive BuildGoes {U : Surroundings S} (machine : Machine U.environment) (files : FileTree)
    (builder : TaskId) (compiler : CompilerId) (input : StorageId) (compilation : Compilation)
    (seen : List (Event S.filed)) : Prop where
  | ended {record inner rest reply} (events : seen = .op (.look compiler) record :: inner ++ rest)
      (follows : (Compiler.bundle compiler input compilation).Follows U.environment
        (.op (.look compiler) record :: inner) (.done reply))
      (cold : BuildCall.Answered
        ⟨files.toFileView, record.options, Compiler.fileLimit, compilation⟩ reply)
  | underWay {left next event after}
      (follows : (Compiler.bundle compiler input compilation).Follows U.environment seen left)
      (runs : machine.program? builder = some (left.bind next))
      (goesOn : machine.Step builder (some event) after)

/-- An execution with one more step at its beginning. -/
theorem Machine.Trace.cons {E : Environment S} {machine middle last : Machine E} {id : TaskId}
    {event : Event S} {events : List (TaskId × Event S)} (onward : middle.Trace events last)
    (step : machine.Step id (some event) middle) : machine.Trace ((id, event) :: events) last :=
  (Machine.Trace.start.seen step).append onward

namespace FileSession

variable {U : Surroundings S} {panics : Prop} {start opened machine : Machine U.environment}
  {past life : List (TaskId × Event S.filed)} {driver : TaskId} {watching : Driver S.filed}
  {input : StorageId} {context : Path} {earlier : List BuildCall}

/-- The modules that were scanned by the builds of a session and those before it. -/
abbrev tables (opened : Machine U.environment) (life : List (TaskId × Event S.filed))
    (earlier : List BuildCall) : List (Table String ScannedModule) :=
  (earlier ++ buildsOf opened.state.files life).flatMap fun call => tablesOf call.scan

variable
  (session : FileSession panics start opened machine past life driver watching input context earlier)
include session

theorem comparable : Comparable Fingerprint.of context (tables opened life earlier) :=
  comparable_of_apart session.absolute session.oneContext session.plain session.apart

theorem hosts : U.environment.Hosts panics := Surroundings.environment_hosts session.visits

theorem tidy : opened.Tidy := by
  obtain ⟨opener, opens⟩ := session.opens
  exact session.vacant.tidy.trace opens

/-- The files are not edited while a run is under way. -/
theorem unedited {so later : List (TaskId × Event S.filed)} {id : TaskId} {event : Event S.filed}
    (whole : life = so ++ (id, event) :: later)
    (busy : windowOf watching.compiler input (eventsOf driver so) ≠ .closed) : event.Unedited := by
  cases event with
  | op | call => trivial
  | request wish answer =>
      cases wish with
      | edit files => exact absurd (session.between so id files later whole) busy
      | isFile | read | purge | other => trivial

section Moments

variable {so rest : List (TaskId × Event S.filed)} {now : Machine U.environment}
  (reached : opened.Trace so now) (onward : now.Trace rest machine) (whole : life = so ++ rest)
include reached onward whole

/-- What a task was spawned for was seen before the task did anything. -/
theorem spawned_before {spawner task : TaskId} {job : Job S.filed}
    (old : task < now.world.nextTask) (spawned : (spawner, .op (.spawn job) task) ∈ life) :
    (spawner, .op (.spawn job) task) ∈ so := by
  rw [whole] at spawned
  rcases List.mem_append.mp spawned with member | later
  · exact member
  · exact absurd later ((session.tidy.trace reached).unspawned onward old)

/-- The driver, once it has begun, in the execution from its beginning on. -/
theorem driver_spawned (old : driver < now.world.nextTask) :
    ∃ opener spawner stage,
      start.Trace (past ++ (opener, .op (.openSession watching.compiler) watching.session) :: so) now ∧
      (spawner, .op (.spawn (.drive stage watching)) driver) ∈ so ∧
      eventsOf driver (past ++ (opener, .op (.openSession watching.compiler) watching.session) :: so) =
        eventsOf driver so := by
  obtain ⟨opener, opens⟩ := session.opens
  obtain ⟨spawner, stage, spawned⟩ := session.driven
  refine ⟨opener, spawner, stage, ?_, session.spawned_before reached onward whole old spawned, ?_⟩
  · rw [← List.singleton_append, ← List.append_assoc]
    exact opens.append reached
  · have unborn : eventsOf driver
        (past ++ [(opener, .op (.openSession watching.compiler) watching.session)]) = [] := by
      rw [List.eq_nil_iff_forall_not_mem]
      intro event member
      have begun := session.vacant.tidy.lt_nextTask opens (mem_eventsOf.mp member)
      exact session.tidy.unspawned session.lives begun spawned
    rw [← List.singleton_append, ← List.append_assoc, eventsOf_append, unborn, List.nil_append]

/-- As long as a worker of the session has something to do, its run has taken its changes. -/
theorem window_of_worker {run : CompilerId} {worker : TaskId}
    {program : Prog S.filed (Compiler.Next S.filed)}
    (spawned : (driver, .op (.spawn (.watchPhases run)) worker) ∈ so)
    (runs : now.program? worker = some program) (going : program ≠ .done none) :
    windowOf watching.compiler input (eventsOf driver so) = .taken := by
  have old := session.tidy.lt_nextTask reached spawned
  obtain ⟨opener, spawner, stage, trace, driven, same⟩ :=
    session.driver_spawned reached onward whole old
  obtain ⟨before, opening, seen, changes, accepted, own, -, -⟩ :=
    trace.worker_during session.vacant session.hosts (List.mem_append_right past (.tail _ driven))
      (List.mem_append_right past (.tail _ spawned)) runs going
  rw [← same, own, windowOf, List.foldl_append]
  rfl

/-- A run without changes begins when nothing was touched. -/
theorem untouched_of_empty {taker : CompilerId} {changes : ChangeSet} {after : Machine U.environment}
    {later : List (TaskId × Event S.filed)}
    (next : rest = (driver, .op (.setChanges taker changes) ()) :: later)
    (step : now.Step driver (some (.op (.setChanges taker changes) ())) after)
    (empty : changes.isEmpty = true) (path : Path) :
    ¬ (surveyOf opened.state.files (marked driver so)).touched path := by
  intro touched
  obtain ⟨program, runs⟩ := step.runs
  obtain ⟨opener, spawner, stage, trace, driven, -⟩ := session.driver_spawned reached onward whole
    ((session.tidy.trace reached).below _ _ runs)
  obtain ⟨-, lived⟩ := trace.life_of_spawned session.vacant session.hosts driven
  obtain ⟨book, held, recorded⟩ := lived.recorded
  obtain ⟨-, -, takes⟩ := (trace.orderly session.vacant session.hosts).permits step
  obtain ⟨own, begins⟩ := takes book held
  obtain rfl : watching.compiler = taker := recorded.driven.2.symm.trans own
  obtain ⟨notice, told, mentions⟩ := session.announced so changes later (next ▸ whole) path touched
  have nothing : book.pending.merged.isEmpty = true := begins.merged ▸ empty
  rw [recorded.pending] at nothing
  have blank := Intake.isEmpty_of_merged nothing notice told
  rw [mentions.isEmpty] at blank
  cases blank

/-- A run with changes has had the input forgotten. -/
theorem window_of_changes {taker : CompilerId} {changes : ChangeSet} {after : Machine U.environment}
    (step : now.Step driver (some (.op (.setChanges taker changes) ())) after)
    (full : changes.isEmpty = false)
    (looked : ∀ record, (driver, .op (.look watching.compiler) record) ∈ so → record.input = input) :
    windowOf watching.compiler input (eventsOf driver so) = .purged := by
  obtain ⟨program, runs⟩ := step.runs
  obtain ⟨opener, spawner, stage, trace, driven, same⟩ := session.driver_spawned reached onward whole
    ((session.tidy.trace reached).below _ _ runs)
  have own : eventsOf driver
      ((past ++ (opener, .op (.openSession watching.compiler) watching.session) :: so) ++
        [(driver, .op (.setChanges taker changes) ())]) =
      eventsOf driver so ++ .op (.setChanges taker changes) () :: [] := by
    rw [eventsOf_append, same, eventsOf_self]
  obtain ⟨earlier, opening, seen, first, opens, expands⟩ := session.vacant.tidy.run_opened
    (trace.seen step) session.hosts
    (List.mem_append_left _ (List.mem_append_right past (.tail _ driven))) own
  cases opens with
  | unchanged empty =>
      rw [full] at empty
      cases empty
  | @changed record _ =>
      cases expands with
      | op expands =>
      cases expands with
      | op expands =>
      cases expands with
      | call answered expands =>
      cases answered with
      | request answered =>
      cases answered
      cases expands with
      | op expands =>
      cases expands
      have found : (driver, .op (.look watching.compiler) record) ∈ so := by
        rw [← mem_eventsOf, first]
        simp
      rw [first, looked record found, windowOf, List.foldl_append]
      simp [Window.note]

end Moments

omit session in
/-- What is left of a build does not look like the end of a task. -/
theorem ne_done_of_unfinished {left : Prog S.filed (Except RunError Unit × Compilation)}
    {next : Except RunError Unit × Compilation → Prog S.filed (Compiler.Next S.filed)}
    (unfinished : ∀ reply, left ≠ .done reply) : left.bind next ≠ .done none := by
  intro same
  cases left with
  | done reply => exact unfinished reply rfl
  | op | call | request | panic => cases same

end FileSession

/-! ## What holds all along a session -/

/-- What holds of a session over files at every moment. -/
structure Sound {U : Surroundings S} (opened now : Machine U.environment)
    (life so : List (TaskId × Event S.filed)) (driver : TaskId) (watching : Driver S.filed)
    (input : StorageId) (earlier : List BuildCall) : Prop where
  files : now.state.files = filesOf opened.state.files so
  /-- What is remembered of untouched files is so. -/
  untouched : (∀ path, ¬ (surveyOf opened.state.files (marked driver so)).touched path) →
    now.state.Fresh input
  /-- What is remembered in a run is so. -/
  forgets : (windowOf watching.compiler input (eventsOf driver so)).Forgets → now.state.Fresh input
  reads : now.world.Reads watching.compiler input
  looked : ∀ record, (driver, .op (.look watching.compiler) record) ∈ so → record.input = input
  trusted : now.Trusted (FileSession.tables opened life earlier)
  tasks : ∀ id program, now.program? id = some program → program.Shuns Op.Meddles ∨
    ∃ compiler compilation held seen,
      Begun opened.state.files so id compiler input compilation held seen ∧
      now.UnderWay (FileSession.tables opened life earlier) input held id compiler compilation seen
  builds : ∀ builder compiler compilation held seen,
    Begun opened.state.files so builder compiler input compilation held seen →
    Machine.HasEnded U (FileSession.tables opened life earlier) input held compiler compilation seen ∨
    now.UnderWay (FileSession.tables opened life earlier) input held builder compiler compilation seen

namespace Sound

variable {U : Surroundings S} {panics : Prop}
  {start opened machine now after : Machine U.environment}
  {past life so later : List (TaskId × Event S.filed)} {driver id : TaskId}
  {watching : Driver S.filed} {input : StorageId} {context : Path} {earlier : List BuildCall}
  {event : Event S.filed}
  (session : FileSession panics start opened machine past life driver watching input context earlier)
  (sound : Sound opened now life so driver watching input earlier)

include session in
theorem opened_ : Sound opened opened life [] driver watching input earlier where
  files := rfl
  untouched _ := session.fresh
  forgets _ := session.fresh
  reads := session.reads
  looked _ member := by cases member
  trusted cache held := by
    refine (session.honest cache held).more fun modules member => ?_
    rw [FileSession.tables, List.flatMap_append]
    exact List.mem_append_left _ member
  tasks id program found := .inl (session.calm id program found)
  builds builder compiler compilation held seen begun := by cases begun.mem

section Step

variable (reached : opened.Trace so now) (step : now.Step id (some event) after)
  (onward : after.Trace later machine) (whole : life = so ++ (id, event) :: later)

section Window

include session reached step onward whole

/-- While a build is under way, the run of its worker has taken its changes. -/
theorem window_of_underWay {builder : TaskId} {compiler : CompilerId} {compilation : Compilation}
    {held : FileTree} {seen : List (Event S.filed)}
    (begun : Begun opened.state.files so builder compiler input compilation held seen)
    (underWay : now.UnderWay (FileSession.tables opened life earlier) input held builder compiler
      compilation seen) : windowOf watching.compiler input (eventsOf driver so) = .taken := by
  obtain ⟨left, next, -, unfinished, runs, -, -⟩ := underWay
  obtain ⟨-, run, spawned⟩ := session.own builder compiler input compilation
    (whole ▸ List.mem_append_left _ begun.mem)
  have old := (session.tidy.trace reached).below _ _ runs
  exact session.window_of_worker reached (onward.cons step) whole
    (session.spawned_before reached (onward.cons step) whole old spawned) runs
    (FileSession.ne_done_of_unfinished unfinished)

include sound

/-- When a run takes its changes, what is remembered is so. -/
theorem fresh_of_setChanges {taker : CompilerId} {changes : ChangeSet}
    (takes : (id, event) = (driver, .op (.setChanges taker changes) ())) :
    now.state.Fresh input := by
  cases takes
  cases empty : changes.isEmpty with
  | true =>
      exact sound.untouched
        (session.untouched_of_empty reached (onward.cons step) whole rfl step empty)
  | false =>
      have purged := session.window_of_changes reached (onward.cons step) whole step empty sound.looked
      exact sound.forgets (.inl purged)

theorem step_untouched
    (untouched : ∀ path,
      ¬ (surveyOf opened.state.files (marked driver (so ++ [(id, event)]))).touched path) :
    after.state.Fresh input := by
  have survey : surveyOf opened.state.files (marked driver (so ++ [(id, event)])) =
      (surveyOf opened.state.files (marked driver so)).note (decide (id = driver), event) := by
    rw [marked_append]
    exact surveyOf_append _ _
  rw [survey] at untouched
  cases begins : SessionView.begins (decide (id = driver), event) with
  | false =>
      obtain ⟨before, kept⟩ := Survey.untouched_before begins untouched
      rw [surveyOf_files, ← sound.files] at kept
      exact step.fresh kept (sound.untouched before)
  | true =>
      simp only [SessionView.begins, Bool.and_eq_true, decide_eq_true_eq] at begins
      obtain ⟨rfl, takes⟩ := begins
      cases event with
      | op operation reply =>
          cases operation with
          | setChanges taker changes =>
              exact step.fresh rfl
                (sound.fresh_of_setChanges session reached step onward whole rfl)
          | _ => cases takes
      | call | request => cases takes

theorem step_forgets
    (forgets : (windowOf watching.compiler input (eventsOf driver (so ++ [(id, event)]))).Forgets) :
    after.state.Fresh input := by
  have stays : (windowOf watching.compiler input (eventsOf driver so)).Forgets →
      after.state.Fresh input := by
    intro before
    have busy : windowOf watching.compiler input (eventsOf driver so) ≠ .closed := by
      rintro closed
      rw [closed] at before
      rcases before with same | same <;> cases same
    exact step.fresh ((session.unedited whole busy).filesAfter _) (sound.forgets before)
  by_cases own : id = driver
  · obtain rfl := own
    rw [eventsOf_append, eventsOf_self, windowOf_append] at forgets
    rcases forgets.before with before | rfl | ⟨taker, changes, rfl⟩
    · exact stays before
    · exact step.fresh_purged
    · exact step.fresh rfl (sound.fresh_of_setChanges session reached step onward whole rfl)
  · rw [eventsOf_append, eventsOf_of_ne own, List.append_nil] at forgets
    exact stays forgets

end Window

section Tasks

include session reached step onward whole

/-- A build goes on with the step of its task. -/
theorem underWay_step {compiler : CompilerId} {compilation : Compilation} {held : FileTree}
    {seen : List (Event S.filed)}
    (sound : Sound opened now life so driver watching input earlier)
    (begun : Begun opened.state.files so id compiler input compilation held seen)
    (underWay : now.UnderWay (FileSession.tables opened life earlier) input held id compiler
      compilation seen) :
    Machine.OfBuild (FileSession.tables opened life earlier) event ∧
      (after.UnderWay (FileSession.tables opened life earlier) input held id compiler compilation
          (seen ++ [event]) ∨
        Machine.HasEnded U (FileSession.tables opened life earlier) input held compiler compilation
            (seen ++ [event]) ∧
          ∀ program, after.program? id = some program → program.Shuns Op.Meddles) := by
  have fresh := sound.forgets
    (.inr (window_of_underWay session reached step onward whole begun underWay))
  have known : ∀ record, seen = [] → some event = some (.op (.look compiler) record) →
      ∀ modules ∈ tablesOf (BuildCall.scan
        ⟨held.toFileView, record.options, Compiler.fileLimit, compilation⟩),
        modules ∈ FileSession.tables opened life earlier := by
    rintro record rfl looks modules inside
    cases looks
    rw [FileSession.tables, List.mem_flatMap]
    exact ⟨_, List.mem_append_right _ (whole ▸ begun.mem_builds), inside⟩
  obtain ⟨_, same, ofBuild, goes⟩ := underWay.step (session.tidy.trace reached) step fresh
    sound.trusted session.absolute session.comparable known
  cases same
  exact ⟨ofBuild, goes⟩

/-- A build that is under way stays so while others make their steps. -/
theorem underWay_other {builder : TaskId} {compiler : CompilerId} {compilation : Compilation}
    {held : FileTree} {seen : List (Event S.filed)}
    (begun : Begun opened.state.files so builder compiler input compilation held seen)
    (underWay : now.UnderWay (FileSession.tables opened life earlier) input held builder compiler
      compilation seen) (different : builder ≠ id) :
    after.UnderWay (FileSession.tables opened life earlier) input held builder compiler compilation
      seen := by
  have taken := window_of_underWay session reached step onward whole begun underWay
  have unedited := session.unedited whole (taken ▸ Window.noConfusion)
  refine underWay.other (session.tidy.trace reached) step different ?_
  rw [step.files, unedited.filesAfter]

/-- No step does harm to builds. -/
theorem harmless (sound : Sound opened now life so driver watching input earlier) :
    Machine.Harmless (FileSession.tables opened life earlier) event := by
  obtain ⟨program, runs⟩ := step.runs
  rcases sound.tasks id program runs with
    shuns | ⟨compiler, compilation, held, seen, begun, underWay⟩
  · cases step with
    | op found =>
        cases runs.symm.trans found
        cases shuns with
        | op allowed =>
            constructor
            · rintro cache ⟨⟩
              have blank : cache = ArtifactCache.empty := by
                by_contra filled
                exact allowed filled
              rw [blank]
              exact honest_empty
            · rintro other storage ⟨⟩
              exact allowed trivial
    | call | request =>
        constructor
        · rintro cache ⟨⟩
        · rintro other storage ⟨⟩
  · exact (underWay_step session reached step onward whole sound begun underWay).1.toHarmless

/-- A task that begins a build did so by itself. -/
theorem step_begun {compiler : CompilerId} {compilation : Compilation}
    (sound : Sound opened now life so driver watching input earlier)
    (builds : event = .call (.build compiler input compilation)) :
    after.UnderWay (FileSession.tables opened life earlier) input (filesOf opened.state.files so) id
      compiler compilation [] := by
  obtain ⟨program, runs⟩ := step.runs
  rcases sound.tasks id program runs with
    shuns | ⟨other, otherCompilation, held, seen, begun, underWay⟩
  · obtain rfl := builds
    rw [← sound.files]
    cases step with
    | call found =>
        cases runs.symm.trans found
        cases shuns with
        | call rest => exact (session.tidy.trace reached).build_begins found rest (.call found)
  · have single := (underWay_step session reached step onward whole sound begun underWay).1.single
    rw [builds] at single
    cases single

theorem step_builds (sound : Sound opened now life so driver watching input earlier)
    (builder : TaskId) (compiler : CompilerId) (compilation : Compilation) (held : FileTree)
    (seen : List (Event S.filed))
    (begun : Begun opened.state.files (so ++ [(id, event)]) builder compiler input compilation held
      seen) :
    Machine.HasEnded U (FileSession.tables opened life earlier) input held compiler compilation seen ∨
      after.UnderWay (FileSession.tables opened life earlier) input held builder compiler compilation
        seen := by
  rcases begun.of_append with ⟨rfl, builds, rfl, rfl⟩ | ⟨before, began, rfl⟩
  · exact .inr (step_begun session reached step onward whole sound builds)
  · rcases sound.builds builder compiler compilation held before began with ended | underWay
    · exact .inl (ended.append _)
    · by_cases own : id = builder
      · obtain rfl := own
        rw [if_pos rfl]
        have goes := (underWay_step session reached step onward whole sound began underWay).2
        exact goes.symm.imp_left And.left
      · rw [if_neg own, List.append_nil]
        exact .inr (underWay_other session reached step onward whole began underWay (Ne.symm own))

/-- A task that was not in a build begins one, or is not in one afterwards. -/
theorem step_shuns {program left : Prog S.filed (Compiler.Next S.filed)}
    (sound : Sound opened now life so driver watching input earlier)
    (runs : now.program? id = some program) (shuns : program.Shuns Op.Meddles)
    (found : after.program? id = some left) :
    left.Shuns Op.Meddles ∨ ∃ compiler compilation,
      event = .call (.build compiler input compilation) ∧
      after.UnderWay (FileSession.tables opened life earlier) input (filesOf opened.state.files so) id
        compiler compilation [] := by
  have tidy := session.tidy.trace reached
  cases shuns with
  | done value =>
      exfalso
      cases step with
      | op other | call other | request other => cases runs.symm.trans other
  | op _ rest =>
      obtain ⟨reply, _, _, -, -, later⟩ := tidy.step_op step runs
      cases later.symm.trans found
      exact .inl (rest reply)
  | @call outside next rest =>
      obtain ⟨same, later⟩ := tidy.step_call step runs
      cases same
      cases later.symm.trans found
      cases outside with
      | build compiler origin compilation =>
          obtain ⟨rfl, -⟩ := session.own id compiler origin compilation (whole ▸ by simp)
          exact .inr ⟨compiler, compilation, rfl,
            step_begun session reached step onward whole sound rfl⟩
      | isFile | read | purge => exact .inl (.request rest)
      | _ => exact .inl ((session.discreet _).bind rest)
  | request rest =>
      obtain ⟨answer, _, -, -, later⟩ := tidy.step_request step runs
      cases later.symm.trans found
      exact .inl (rest answer)
  | panic =>
      exfalso
      cases step with
      | op other | call other | request other => cases runs.symm.trans other

theorem step_tasks (sound : Sound opened now life so driver watching input earlier) (task : TaskId)
    (program : Prog S.filed (Compiler.Next S.filed)) (found : after.program? task = some program) :
    program.Shuns Op.Meddles ∨ ∃ compiler compilation held seen,
      Begun opened.state.files (so ++ [(id, event)]) task compiler input compilation held seen ∧
      after.UnderWay (FileSession.tables opened life earlier) input held task compiler compilation
        seen := by
  rcases (session.tidy.trace reached).program?_cases step found with
    rfl | ⟨job, -, rfl⟩ | ⟨different, there⟩
  · obtain ⟨before, runs⟩ := step.runs
    rcases sound.tasks task before runs with
      shuns | ⟨compiler, compilation, held, seen, begun, underWay⟩
    · rcases step_shuns session reached step onward whole sound runs shuns found with
        left | ⟨compiler, compilation, rfl, underWay⟩
      · exact .inl left
      · exact .inr ⟨compiler, compilation, _, [], ⟨so, [], rfl, rfl, rfl⟩, underWay⟩
    · rcases (underWay_step session reached step onward whole sound begun underWay).2 with
        goes | ⟨-, left⟩
      · exact .inr ⟨compiler, compilation, held, _, begun.self event, goes⟩
      · exact .inl (left program found)
  · exact .inl (Compiler.program_shuns job)
  · rcases sound.tasks task program there with
      shuns | ⟨compiler, compilation, held, seen, begun, underWay⟩
    · exact .inl shuns
    · exact .inr ⟨compiler, compilation, held, seen, begun.other event (Ne.symm different),
        underWay_other session reached step onward whole begun underWay different⟩

/-- A step that is seen keeps everything sound. -/
theorem step_seen (sound : Sound opened now life so driver watching input earlier) :
    Sound opened after life (so ++ [(id, event)]) driver watching input earlier := by
  have harmless := harmless session reached step onward whole sound
  refine
    { files := ?_
      untouched := step_untouched session sound reached step onward whole
      forgets := step_forgets session sound reached step onward whole
      reads := ?_
      looked := fun record member => ?_
      trusted := sound.trusted.step step harmless.honest
      tasks := step_tasks session reached step onward whole sound
      builds := step_builds session reached step onward whole sound }
  · rw [step.files, sound.files, filesOf_append]
    rfl
  · cases step with
    | @op operation _ _ _ _ runs performed =>
        have unset : ∀ other, operation ≠ .setInput watching.compiler other := by
          rintro other rfl
          exact harmless.unset _ _ rfl
        have reads := sound.reads.perform unset performed
        exact reads
    | call | request => exact sound.reads
  · rcases List.mem_append.mp member with earlier | now
    · exact sound.looked record earlier
    · cases List.mem_singleton.mp now
      cases step with
      | op runs performed =>
          cases performed
          exact sound.reads.looked

end Tasks

end Step

include session in
/-- So does a step that is not seen. -/
theorem step_unseen (reached : opened.Trace so now) (step : now.Step id none after)
    (sound : Sound opened now life so driver watching input earlier) :
    Sound opened after life so driver watching input earlier := by
  have tidy := session.tidy.trace reached
  have same := step.state_unseen
  -- A build makes no step that is not seen.
  have others : ∀ {builder compiler compilation held seen},
      now.UnderWay (FileSession.tables opened life earlier) input held builder compiler compilation
        seen →
      after.UnderWay (FileSession.tables opened life earlier) input held builder compiler compilation
        seen := by
    intro builder compiler compilation held seen underWay
    refine underWay.other tidy step ?_ (congrArg Filed.files same)
    rintro rfl
    obtain ⟨left, next, soFar, unfinished, runs, -, -⟩ := underWay
    have never := Machine.unseen_of_build soFar unfinished runs step
    exact never
  refine
    { files := (congrArg Filed.files same).trans sound.files
      untouched := fun untouched => same ▸ sound.untouched untouched
      forgets := fun forgets => same ▸ sound.forgets forgets
      reads := ?_
      looked := sound.looked
      trusted := sound.trusted.step_unseen step
      tasks := fun task program found => ?_
      builds := fun builder compiler compilation held seen begun =>
        (sound.builds builder compiler compilation held seen begun).imp_right others }
  · cases step with
    | turn | finish => exact sound.reads
    | crash => exact sound.reads.crash id
  · rcases tidy.program?_cases step found with rfl | ⟨job, seen, -⟩ | ⟨-, there⟩
    · cases step with
      | turn runs =>
          rw [Machine.program?_replace runs, if_pos rfl] at found
          cases found
          exact .inl (Compiler.program_shuns _)
      | finish runs =>
          rw [Machine.program?_remove, if_pos rfl] at found
          cases found
      | crash runs =>
          change (now.remove task).program? task = some program at found
          rw [Machine.program?_remove, if_pos rfl] at found
          cases found
    · cases seen
    · rcases sound.tasks task program there with
        shuns | ⟨compiler, compilation, held, seen, begun, underWay⟩
      · exact .inl shuns
      · exact .inr ⟨compiler, compilation, held, seen, begun, others underWay⟩

include session in
/-- A session over files is sound at every moment. -/
theorem of_trace {rest : List (TaskId × Event S.filed)} (reached : opened.Trace so now)
    (onward : now.Trace rest machine) (whole : life = so ++ rest) :
    Sound opened now life so driver watching input earlier := by
  induction reached generalizing rest with
  | start => exact opened_ session
  | @seen so now id event after before step ih =>
      rw [List.append_assoc, List.singleton_append] at whole
      exact step_seen session before step onward whole (ih (onward.cons step) whole)
  | unseen before step ih =>
      have sound := ih ((Machine.Trace.start.unseen step).append onward) whole
      exact step_unseen session before step sound

end Sound

namespace Machine

variable {U : Surroundings S} {panics : Prop} {start opened machine : Machine U.environment}
  {past before after : List (TaskId × Event S.filed)} {driver builder : TaskId}
  {watching : Driver S.filed} {input origin : StorageId} {context : Path}
  {earlier : List BuildCall} {compiler : CompilerId} {compilation : Compilation}

end Machine

/-! ## A file that is made after the first run -/

/-- Code around compilers that does nothing, and decides against output. -/
def Surroundings.quiet : Surroundings Setting.plain where
  State := Unit
  code
    | .observe .. => return .ok ()
    | .adjust _ _ _ compilation => return (.ok (), compilation)
    | .decide .. => return .ok (some false)
    | .build _ _ compilation => return (.ok (), compilation)
    | .answer .. => return ()
    | .notify _ => return ()
    | .handle .. => return ()
    | .isFile .. => return false
    | .read .. => return .error .notText
    | .purge _ => return ()
    | .mkdir .. => return .ok ()
    | .write .. => return .ok ()
    | .subscribe .. => return none
    | .unsubscribe _ => return ()
  serve wish := wish.elim

namespace Compiler

/-- The entry `./a.js` of a directory. -/
def entryCompiler : CompilerRecord Setting.plain.filed where
  options :=
    { context := .of "/p", entry := Table.empty.insert "main" "./a.js", output := {}
      noEmitOnErrors := false }
  registry := [⟨.shouldEmit, ⟨"quiet", .outside ()⟩⟩]

def entryPath : Path := .of "/p/a.js"

/-- Files among which there is an empty one at the entry, or none. -/
def entryFiles (present : Bool) : FileTree where
  isFile path := present && path.components == entryPath.components
  isDirectory _ := false
  read path :=
    if present && path.components == entryPath.components then .ok ByteArray.empty
    else .error (.missing path)
  coherent := by
    refine ⟨fun left right same => ?_, fun left right content same read => ?_⟩
    · simp only [FileView.kind, same]
    · dsimp only at read ⊢
      rw [← same]
      split at read
      · next there =>
        rw [if_pos there]
        exact read
      · cases read

/-- A task watches a compiler with a cache, makes the file of its entry and tells of it. -/
def making : Prog Setting.plain.filed Unit := do
  Prog.perform (.setCache ArtifactCache.empty)
  match ← watch 0 {} () with
  | none => pure ()
  | some session =>
    Prog.ask (S := Setting.plain.filed) (.edit (entryFiles true))
    let _ ← Prog.perform (.deliver session (ChangeSet.empty.markChanged entryPath))

def maker : Machine Surroundings.quiet.environment :=
  .hosting ⟨entryFiles false, fun _ => { cache := some {} }, ()⟩ [entryCompiler] making

def makerOpened : List (TaskId × Event Setting.plain.filed) × Machine Surroundings.quiet.environment :=
  Machine.playback [] maker [0, 0, 0]

/-- The first run, the making of the file, and the run that it causes. -/
def made : List (TaskId × Event Setting.plain.filed) × Machine Surroundings.quiet.environment :=
  Machine.playback [] makerOpened.2 ([0] ++ List.replicate 12 1 ++ List.replicate 30 2 ++
    List.replicate 18 1 ++ [0, 0] ++ List.replicate 24 1 ++ List.replicate 32 3 ++
    List.replicate 18 1)

theorem maker_vacant : maker.Vacant False := by
  have visitor : making.Visitor False := by
    refine .op trivial fun _ => .watch fun session => ?_
    cases session with
    | none => exact .done ()
    | some session => exact .request fun _ => .op trivial fun _ => .done ()
  refine Machine.vacant_hosting visitor fun record member => ?_
  obtain rfl : record = entryCompiler := by simpa using member
  exact ⟨rfl, rfl⟩

theorem maker_opens : maker.Trace ([(0, .op (.setCache ArtifactCache.empty) ()),
    (0, .op (.shift 0 .beginWatch) true)] ++ [(0, .op (.openSession 0) 0)]) makerOpened.2 := by
  have first : maker.Trace makerOpened.1 makerOpened.2 := Machine.trace_playback .start _
  exact first

/-- The driver of the session. -/
def makerDriver : Driver Setting.plain.filed :=
  { session := 0, compiler := 0, options := {}, handler := () }

theorem maker_calm (id : TaskId) (program : Prog Setting.plain.filed (Next Setting.plain.filed))
    (runs : makerOpened.2.program? id = some program) : program.Shuns Op.Meddles := by
  have tasks : makerOpened.2.tasks = [⟨0, .op (.spawn (.drive .waiting makerDriver)) fun _ =>
      .request (.edit (entryFiles true)) fun _ =>
        .op (.deliver 0 (ChangeSet.empty.markChanged entryPath)) fun _ => .done none⟩] := rfl
  rw [Machine.program?, tasks] at runs
  by_cases own : id = 0
  · obtain rfl := own
    cases runs
    exact .op id fun _ => .request fun _ => .op id fun _ => .done none
  · have absent : (0 == id) = false := by simpa using Ne.symm own
    simp [absent] at runs

/-- Which events of the life are edits, beginnings of runs and builds. -/
def placed (entry : (TaskId × Event Setting.plain.filed) × Nat) : Bool :=
  match entry with
  | ((_, .request (.edit _) _), place) => place == 38
  | ((_, .op (.setChanges _ _) _), place) => place == 4 || place == 49
  | ((task, .call (.build _ input _)), _) => input == 0 && (task == 2 || task == 3)
  | _ => true

/-- The modules of the entry when its file is there. -/
def entryModules : Table String ScannedModule :=
  Table.empty.insert "./a.js" ⟨.of "/p/a.js", "", []⟩

def entryBuild (present : Bool) (number : Nat) : BuildCall :=
  ⟨(entryFiles present).toFileView, entryCompiler.options, fileLimit, { id := number }⟩

/-! The life is evaluated below, through functions that do not reduce by themselves. -/

section Evaluated

set_option maxRecDepth 10000

theorem made_placed : made.1.zipIdx.all placed = true := by with_unfolding_all rfl

theorem made_driven : made.1[0]? = some (0, .op (.spawn (.drive .waiting makerDriver)) 1) := by
  with_unfolding_all rfl

theorem made_workers : made.1[6]? = some (1, .op (.spawn (.watchPhases 0)) 2) ∧
    made.1[51]? = some (1, .op (.spawn (.watchPhases 0)) 3) := by
  constructor <;> with_unfolding_all rfl

theorem made_built : made.1[57]? = some (3, .call (.build 0 0 { id := 2 })) := by
  with_unfolding_all rfl

theorem buildsOf_made : buildsOf (entryFiles false) made.1 = [entryBuild false 1, entryBuild true 2] := by
  with_unfolding_all rfl

theorem tablesOf_entryBuild : tablesOf (entryBuild false 1).scan = [Table.empty] ∧
    tablesOf (entryBuild true 2).scan = [entryModules] := by
  constructor <;> with_unfolding_all rfl

theorem windowOf_edit : windowOf 0 0 (eventsOf 1 (made.1.take 38)) = .closed := by
  with_unfolding_all rfl

/-- Nothing was touched before the first run, and the second one was told of what was. -/
theorem surveyOf_made :
    (surveyOf (entryFiles false) (marked 1 (made.1.take 4))).touched = (fun _ => False) ∧
    (surveyOf (entryFiles false) (marked 1 (made.1.take 49))).touched =
      (fun path => False ∨ ¬ (entryFiles false).SameAt (entryFiles true).toFileView path) ∧
    received 0 (sinceRun (marked 1 (made.1.take 49))) = [ChangeSet.empty.markChanged entryPath] := by
  refine ⟨?_, ?_, ?_⟩ <;> with_unfolding_all rfl

end Evaluated

theorem placed_of_split {before after : List (TaskId × Event Setting.plain.filed)}
    {entry : TaskId × Event Setting.plain.filed} (whole : made.1 = before ++ entry :: after) :
    placed (entry, before.length) = true ∧ before = made.1.take before.length := by
  refine ⟨List.all_eq_true.1 made_placed _ ?_, by rw [whole]; simp⟩
  rw [List.mk_mem_zipIdx_iff_getElem?, whole]
  simp

theorem plainFiles_entryFiles (present : Bool) : PlainFiles (entryFiles present).toFileView := by
  intro path found
  have same : path.components = entryPath.components := by
    have both : (present && path.components == entryPath.components) = true := found
    simp only [Bool.and_eq_true, beq_iff_eq] at both
    exact both.2
  have names : entryPath.components = [.root, .name "p", .name "a.js"] := by with_unfolding_all rfl
  constructor <;> intro inside
  all_goals
    obtain ⟨name, member, held⟩ := Path.exists_name_of_mem_text inside (by decide) (by decide)
    rw [same, names] at member
    simp only [List.mem_cons, reduceCtorEq, Component.name.injEq, List.not_mem_nil, or_false,
      false_or] at member
    rcases member with rfl | rfl <;> simp at held

/-- What the builds of the life hash. -/
theorem hashed_made : (buildsOf (entryFiles false) made.1).flatMap (BuildCall.hashed Fingerprint.of) =
    ["".toUTF8, Graph.unitBytes false [⟨"./a.js", Fingerprint.ofText "", []⟩] []] := by
  have blank : hashedFor Fingerprint.of Table.empty = [] := by with_unfolding_all rfl
  have filled : hashedFor Fingerprint.of entryModules =
      ["".toUTF8, Graph.unitBytes false [⟨"./a.js", Fingerprint.ofText "", []⟩] []] := by
    have graph : graphOf Fingerprint.of entryModules =
        ⟨[⟨"./a.js", Fingerprint.ofText "", []⟩]⟩ := rfl
    have units : (Graph.mk [⟨"./a.js", Fingerprint.ofText "", []⟩]).units = [[0]] := by
      decide +kernel
    have plain : (Graph.mk [⟨"./a.js", Fingerprint.ofText "", []⟩]).isCyclic [0] = false := by
      decide +kernel
    rw [hashedFor, graph]
    simp [Graph.hashed, Graph.messages, Graph.messagesFrom, Graph.messageOf, units, plain,
      Graph.members, Graph.UnitMessage.hashed, Graph.UnitMessage.bytes]
    rfl
  rw [buildsOf_made]
  simp only [List.flatMap_cons, List.flatMap_nil, BuildCall.hashed, tablesOf_entryBuild.1,
    tablesOf_entryBuild.2, blank, filled, List.append_nil, List.nil_append]

theorem apart_made : Fingerprint.of "".toUTF8 ≠
    Fingerprint.of (Graph.unitBytes false [⟨"./a.js", Fingerprint.ofText "", []⟩] []) := by
  decide +kernel

theorem made_session : FileSession False maker makerOpened.2 made.2
    [(0, .op (.setCache ArtifactCache.empty) ()), (0, .op (.shift 0 .beginWatch) true)] made.1 1
    makerDriver 0 (.of "/p") [] where
  vacant := maker_vacant
  visits outside := by cases outside <;> exact .done _
  discreet outside := by cases outside <;> exact .done _
  opens := ⟨0, maker_opens⟩
  calm := maker_calm
  lives := Machine.trace_playback .start _
  driven := ⟨0, .waiting, List.mem_of_getElem? made_driven⟩
  reads := ⟨_, rfl, rfl⟩
  fresh := by
    intro cache held
    obtain rfl : cache = {} := (Option.some.inj held).symm
    exact ReadCache.fresh_empty
  honest := by
    intro cache held
    obtain rfl : cache = ArtifactCache.empty := (Option.some.inj held).symm
    exact honest_empty
  own builder compiler origin compilation member := by
    obtain ⟨before, after, whole⟩ := List.append_of_mem member
    have checked := (placed_of_split whole).1
    simp only [placed, Bool.and_eq_true, Bool.or_eq_true, beq_iff_eq] at checked
    refine ⟨checked.1, 0, ?_⟩
    rcases checked.2 with rfl | rfl
    · exact List.mem_of_getElem? made_workers.1
    · exact List.mem_of_getElem? made_workers.2
  absolute := by decide
  oneContext call member := by
    change call ∈ buildsOf (entryFiles false) made.1 at member
    rw [buildsOf_made] at member
    simp only [List.mem_cons, List.not_mem_nil, or_false] at member
    rcases member with rfl | rfl <;> rfl
  plain call member := by
    change call ∈ buildsOf (entryFiles false) made.1 at member
    rw [buildsOf_made] at member
    simp only [List.mem_cons, List.not_mem_nil, or_false] at member
    rcases member with rfl | rfl <;> exact plainFiles_entryFiles _
  apart first inFirst second inSecond same := by
    change first ∈ (buildsOf (entryFiles false) made.1).flatMap _ at inFirst
    change second ∈ (buildsOf (entryFiles false) made.1).flatMap _ at inSecond
    rw [hashed_made] at inFirst inSecond
    simp only [List.mem_cons, List.not_mem_nil, or_false] at inFirst inSecond
    rcases inFirst with rfl | rfl <;> rcases inSecond with rfl | rfl
    · rfl
    · exact absurd same apart_made
    · exact absurd same.symm apart_made
    · rfl
  between before editor files after whole := by
    obtain ⟨checked, same⟩ := placed_of_split whole
    simp only [placed, beq_iff_eq] at checked
    rw [same, checked]
    exact windowOf_edit
  announced before changes after whole path touched := by
    obtain ⟨checked, same⟩ := placed_of_split whole
    simp only [placed, Bool.or_eq_true, beq_iff_eq] at checked
    change (surveyOf (entryFiles false) _).touched path at touched
    rw [same] at touched ⊢
    rcases checked with first | second
    · rw [first, surveyOf_made.1] at touched
      exact touched.elim
    · rw [second, surveyOf_made.2.1] at touched
      rw [second]
      refine ⟨_, surveyOf_made.2.2 ▸ List.mem_singleton_self _, .inl ?_⟩
      obtain differs := touched.resolve_left id
      have same : path.components = entryPath.components := by
        by_contra other
        refine differs ⟨?_, rfl, ?_⟩ <;> simp [entryFiles, other]
      simp [ChangeSet.markChanged, (Path.compare_eq_iff path entryPath).2 same]

end Compiler

end Bundler
