import Bundler.Proofs.Compiler.BuildPrograms
import Bundler.Proofs.Compiler.Workers

/-!
# Builds under way

A build in the middle of an execution: others make steps between its own. As long as the files
stay what they were when it began, the storage that it reads through is fresh and the shared cache
is honest, it goes on from step to step, leaves the cache honest, and ends as a build does that
has no cache. `Machine.Tidy.step_build` says so of one step, `Machine.build_goes_on` that it never waits.
-/

namespace Bundler

open Build

variable {S : Setting}

/-! ## Caches and inputs -/

/-- An operation by which code outside would meddle with builds: it fills the shared cache, or it
changes where a compiler reads. -/
def Op.Meddles : Op S → Prop
  | .setCache cache => cache ≠ ArtifactCache.empty
  | .setInput _ _ => True
  | _ => False

theorem Compiler.OfJob.unmeddling {operation : Op S} (ofJob : Compiler.OfJob operation) :
    ¬ operation.Meddles := by
  cases operation with
  | setCache | setInput => exact ofJob.elim
  | _ => exact id

/-- No job meddles with builds. -/
theorem Compiler.program_shuns (job : Job S) : (Compiler.program job).Shuns Op.Meddles :=
  (Compiler.ofJobs_program job).shuns fun _ => Compiler.OfJob.unmeddling

namespace World

variable {world after : World S} {task : TaskId} {preferChanges : Bool} {operation : Op S}
  {reply : operation.Reply}

/-- The shared cache after an operation. -/
def cacheAfter (world : World S) : Op S → Option ArtifactCache
  | .setCache cache => some cache
  | .retain modules => world.cache.map fun cache => (cache.retain modules).2
  | _ => world.cache

theorem perform_cache
    (performed : world.perform task preferChanges operation = some (reply, after)) :
    after.cache = world.cacheAfter operation := by
  by_cases sessional : OnSessions operation
  · obtain ⟨sessions, rfl⟩ := perform_onSessions sessional performed
    cases operation <;> first | exact sessional.elim | rfl
  · cases operation with
    | acquire id =>
        simp only [perform, acquire?] at performed
        split at performed
        · cases performed
          rfl
        · cases performed
    | join other =>
        obtain ⟨result, -, same⟩ := Option.map_eq_some_iff.mp performed
        cases same
        rfl
    | openSession | lookSession | send | dropHandle | deliver | await | takeSignals
    | takeChanges | setLastChange | shut | leave => exact (sessional trivial).elim
    | _ =>
        cases performed
        rfl

theorem crash_cache (world : World S) (task : TaskId) : (world.crash task).cache = world.cache := by
  rw [crash]
  simp only
  cases world.drivers.get? task <;> rfl

/-- A compiler is there and reads through an input. -/
def Reads (world : World S) (compiler : CompilerId) (input : StorageId) : Prop :=
  ∃ record, world.compilers[compiler]? = some record ∧ record.input = input

variable {compiler : CompilerId} {input : StorageId}

theorem reads_iff : world.Reads compiler input ↔ world.Has compiler fun record => record.input = input :=
  .rfl

/-- Where a compiler reads is changed in one way only. -/
theorem Reads.perform (reads : world.Reads compiler input)
    (unset : ∀ other, operation ≠ .setInput compiler other)
    (performed : world.perform task preferChanges operation = some (reply, after)) :
    after.Reads compiler input := by
  have changed := (perform_changes performed).compilers
  rw [reads_iff] at reads ⊢
  cases operation with
  | shift | acquire | release | setChanges | setParent | setOutput | setWatcher | register =>
      exact reads.modify changed fun _ _ => id
  | setInput id other =>
      refine reads.modify changed ?_
      rintro rfl
      exact absurd rfl (unset other)
  | createCompiler record => exact reads.extend changed
  | _ => exact reads.kept changed

theorem Reads.crash (reads : world.Reads compiler input) (task : TaskId) :
    (world.crash task).Reads compiler input :=
  Has.crash reads (fun _ => id) task

theorem Reads.looked (reads : world.Reads compiler input) :
    (world.compiler compiler).input = input :=
  Has.looked reads

end World

/-! ## One build -/

/-- The compilation that a build is to fill. -/
def Event.build? : Event S → Option Compilation
  | .call (.build _ _ compilation) => some compilation
  | _ => none

section Builds

variable (U : Surroundings S) (tables : List (Table String ScannedModule)) (input : StorageId)
  (files : FileTree) (compiler : CompilerId) (compilation : Compilation)

/-- What a build has done since it began, and what is left of it. -/
inductive BuildSoFar : List (Event S.filed) →
    Prog S.filed (Except RunError Unit × Compilation) → Prop where
  | begun : BuildSoFar [] (Compiler.bundle compiler input compilation)
  | looked {record events left}
      (follows : (Compiler.bundleFor record.options input compilation).Follows U.environment events
        left)
      (builds : left.Builds input files tables (BuildCall.Answered
        ⟨files.toFileView, record.options, Compiler.fileLimit, compilation⟩)) :
      BuildSoFar (.op (.look compiler) record :: events) left

end Builds

namespace BuildSoFar

variable {U : Surroundings S} {tables : List (Table String ScannedModule)} {input : StorageId}
  {files : FileTree} {compiler : CompilerId} {compilation : Compilation}
  {seen : List (Event S.filed)} {left : Prog S.filed (Except RunError Unit × Compilation)}

theorem follows (soFar : BuildSoFar U tables input files compiler compilation seen left) :
    (Compiler.bundle compiler input compilation).Follows U.environment seen left := by
  cases soFar with
  | begun => exact .start _
  | looked follows builds =>
      rw [Compiler.bundle_eq]
      exact .op follows

/-- A build that has ended has looked at its options, and ended as one without a cache. -/
theorem ended {reply : Except RunError Unit × Compilation}
    (soFar : BuildSoFar U tables input files compiler compilation seen (.done reply)) :
    ∃ record inner, seen = .op (.look compiler) record :: inner ∧ BuildCall.Answered
      ⟨files.toFileView, record.options, Compiler.fileLimit, compilation⟩ reply := by
  generalize ended : (Prog.done reply : Prog S.filed _) = left at soFar
  cases soFar with
  | begun =>
      rw [Compiler.bundle_eq] at ended
      cases ended
  | @looked record events _ follows builds =>
      cases builds with
      | done answered =>
          cases ended
          exact ⟨record, events, rfl, answered⟩
      | lookCache | setCache | isFile | asksIsFile | read | asksRead => cases ended

end BuildSoFar

namespace Machine

variable {U : Surroundings S} {tables : List (Table String ScannedModule)} {input : StorageId}
  {files : FileTree} {compiler : CompilerId} {compilation : Compilation}
  {seen : List (Event S.filed)} {left : Prog S.filed (Except RunError Unit × Compilation)}
  {machine after : Machine U.environment} {id : TaskId} {event? : Option (Event S.filed)}
  {next : Except RunError Unit × Compilation → Prog S.filed (Compiler.Next S.filed)}

/-- A cache that is shared is honest. -/
def Trusted (tables : List (Table String ScannedModule)) (machine : Machine U.environment) : Prop :=
  ∀ cache, machine.world.cache = some cache → Honest Fingerprint.of tables cache

/-- A step that does no harm to builds: if it sets a cache, then an honest one, and no compiler
reads elsewhere afterwards. -/
structure Harmless (tables : List (Table String ScannedModule)) (event : Event S.filed) : Prop where
  honest : ∀ cache, event = .op (.setCache cache) () → Honest Fingerprint.of tables cache
  unset : ∀ other storage, event ≠ .op (.setInput other storage) ()

/-- An event of a build: it edits no files and begins no other build. -/
structure OfBuild (tables : List (Table String ScannedModule)) (event : Event S.filed) : Prop
    extends Harmless tables event where
  unedited : event.Unedited
  single : event.build? = none

/-- One step of what is left of a build. -/
theorem Tidy.step_builds {ending : Except RunError Unit × Compilation → Prop} (tidy : machine.Tidy)
    (builds : left.Builds input files tables ending) (unfinished : ∀ reply, left ≠ .done reply)
    (runs : machine.program? id = some (left.bind next))
    (step : machine.Step id event? after) (same : machine.state.files = files)
    (fresh : machine.state.Fresh input) (trusted : machine.Trusted tables) :
    ∃ event later, event? = some event ∧ left.Follows U.environment [event] later ∧
      later.Builds input files tables ending ∧
      after.program? id = some (later.bind next) ∧ OfBuild tables event := by
  cases builds with
  | done => exact absurd rfl (unfinished _)
  | lookCache rest =>
      obtain ⟨reply, _, world, performed, rfl, later⟩ := tidy.step_op step runs
      cases performed
      refine ⟨_, _, rfl, .op (.start _), rest _ trusted, later, ⟨?_, ?_⟩, trivial, rfl⟩
      · rintro cache ⟨⟩
      · rintro other storage ⟨⟩
  | setCache honest rest =>
      obtain ⟨reply, _, world, performed, rfl, later⟩ := tidy.step_op step runs
      refine ⟨_, _, rfl, .op (.start _), rest, later, ⟨?_, ?_⟩, trivial, rfl⟩
      · rintro cache ⟨⟩
        exact honest
      · rintro other storage ⟨⟩
  | isFile rest =>
      obtain ⟨rfl, later⟩ := tidy.step_call step runs
      refine ⟨_, _, rfl, .call (.start _), .asksIsFile rest, later, ⟨?_, ?_⟩, trivial, rfl⟩
      · rintro cache ⟨⟩
      · rintro other storage ⟨⟩
  | read rest =>
      obtain ⟨rfl, later⟩ := tidy.step_call step runs
      refine ⟨_, _, rfl, .call (.start _), .asksRead rest, later, ⟨?_, ?_⟩, trivial, rfl⟩
      · rintro cache ⟨⟩
      · rintro other storage ⟨⟩
  | asksIsFile rest =>
      obtain ⟨found, state, served, rfl, later⟩ := tidy.step_request step runs
      obtain rfl := Surroundings.serve_isFile fresh served
      rw [same] at later ⊢
      refine ⟨_, _, rfl, .request (.start _), rest, later, ⟨?_, ?_⟩, trivial, rfl⟩
      · rintro cache ⟨⟩
      · rintro other storage ⟨⟩
  | asksRead rest =>
      obtain ⟨content, state, served, rfl, later⟩ := tidy.step_request step runs
      obtain rfl := Surroundings.serve_read fresh served
      rw [same] at later ⊢
      refine ⟨_, _, rfl, .request (.start _), rest, later, ⟨?_, ?_⟩, trivial, rfl⟩
      · rintro cache ⟨⟩
      · rintro other storage ⟨⟩

/-- One step of a build that is under way. Once it has looked at the options, its scan is
known. -/
theorem Tidy.step_build {context : Path} (tidy : machine.Tidy)
    (soFar : BuildSoFar U tables input files compiler compilation seen left)
    (unfinished : ∀ reply, left ≠ .done reply) (runs : machine.program? id = some (left.bind next))
    (step : machine.Step id event? after) (same : machine.state.files = files)
    (fresh : machine.state.Fresh input) (trusted : machine.Trusted tables)
    (absolute : context.isAbsolute = true) (comparable : Comparable Fingerprint.of context tables)
    (known : ∀ record, seen = [] → event? = some (.op (.look compiler) record) →
      ∀ modules ∈ tablesOf (BuildCall.scan
        ⟨files.toFileView, record.options, Compiler.fileLimit, compilation⟩), modules ∈ tables) :
    ∃ event later, event? = some event ∧
      BuildSoFar U tables input files compiler compilation (seen ++ [event]) later ∧
      after.program? id = some (later.bind next) ∧ OfBuild tables event := by
  cases soFar with
  | begun =>
      rw [Compiler.bundle_eq] at runs
      obtain ⟨record, _, world, performed, rfl, later⟩ := tidy.step_op step runs
      have builds := Compiler.bundleFor_builds (S := S) absolute comparable input files
        record.options compilation (known record rfl rfl)
      refine ⟨_, _, rfl, .looked (.start _) builds, later, ⟨?_, ?_⟩, trivial, rfl⟩
      · rintro cache ⟨⟩
      · rintro other storage ⟨⟩
  | @looked record events _ follows builds =>
      obtain ⟨event, later, rfl, onward, goes, found, ofBuild⟩ :=
        tidy.step_builds builds unfinished runs step same fresh trusted
      exact ⟨event, later, rfl, .looked (follows.trans onward) goes, found, ofBuild⟩

/-- A build that is under way does not have to wait. -/
theorem build_goes_on (soFar : BuildSoFar U tables input files compiler compilation seen left)
    (unfinished : ∀ reply, left ≠ .done reply)
    (runs : machine.program? id = some (left.bind next)) :
    ∃ event after, machine.Step id (some event) after := by
  cases soFar with
  | begun =>
      rw [Compiler.bundle_eq] at runs
      have performed : machine.world.perform id false (.look compiler) =
          some (machine.world.compiler compiler, machine.world) := rfl
      exact ⟨_, _, .op runs performed⟩
  | looked follows builds =>
      cases builds with
      | done => exact absurd rfl (unfinished _)
      | lookCache =>
          have performed : machine.world.perform id false .lookCache =
              some (machine.world.cache, machine.world) := rfl
          exact ⟨_, _, .op runs performed⟩
      | @setCache cache =>
          have performed : machine.world.perform id false (.setCache cache) =
              some ((), { machine.world with cache := some cache }) := rfl
          exact ⟨_, _, .op runs performed⟩
      | isFile | read => exact ⟨_, _, .call runs⟩
      | @asksIsFile path =>
          have served : U.serveFiled (.isFile input path) machine.state =
            some (machine.state.ask input fun files => InputStorage.isFileIn files path) := rfl
          exact ⟨_, _, .request runs served⟩
      | @asksRead path =>
          have served : U.serveFiled (.read input path) machine.state =
            some (machine.state.ask input fun files => InputStorage.readFrom files path) := rfl
          exact ⟨_, _, .request runs served⟩

/-- A task makes no step that is not seen in the middle of a build. -/
theorem unseen_of_build (soFar : BuildSoFar U tables input files compiler compilation seen left)
    (unfinished : ∀ reply, left ≠ .done reply)
    (runs : machine.program? id = some (left.bind next)) : ¬ machine.Step id none after := by
  intro step
  cases soFar with
  | begun =>
      rw [Compiler.bundle_eq] at runs
      cases step with
      | turn other | finish other | crash other => cases runs.symm.trans other
  | looked follows builds =>
      cases builds with
      | done => exact unfinished _ rfl
      | lookCache | setCache | isFile | read | asksIsFile | asksRead =>
          cases step with
          | turn other | finish other | crash other => cases runs.symm.trans other

/-- A build is under way: its task has a part of it left, and the files are what they were when it
began. -/
def UnderWay (tables : List (Table String ScannedModule)) (input : StorageId) (files : FileTree)
    (machine : Machine U.environment) (builder : TaskId) (compiler : CompilerId)
    (compilation : Compilation) (seen : List (Event S.filed)) : Prop :=
  ∃ left next, BuildSoFar U tables input files compiler compilation seen left ∧
    (∀ reply, left ≠ .done reply) ∧ machine.program? builder = some (left.bind next) ∧
    (∀ reply, (next reply).Shuns Op.Meddles) ∧ machine.state.files = files

/-- A build has ended, with the first of the events that its task made since it began. -/
def HasEnded (U : Surroundings S) (tables : List (Table String ScannedModule)) (input : StorageId)
    (files : FileTree) (compiler : CompilerId) (compilation : Compilation)
    (seen : List (Event S.filed)) : Prop :=
  ∃ inner rest reply, seen = inner ++ rest ∧
    BuildSoFar U tables input files compiler compilation inner (.done reply)

theorem HasEnded.append (ended : HasEnded U tables input files compiler compilation seen)
    (more : List (Event S.filed)) :
    HasEnded U tables input files compiler compilation (seen ++ more) := by
  obtain ⟨inner, rest, reply, rfl, soFar⟩ := ended
  exact ⟨inner, rest ++ more, reply, List.append_assoc .., soFar⟩

/-- A build begins. -/
theorem Tidy.build_begins (tidy : machine.Tidy)
    (runs : machine.program? id = some (.call (.build compiler input compilation) next))
    (shuns : ∀ reply, (next reply).Shuns Op.Meddles) (step : machine.Step id event? after) :
    UnderWay tables input machine.state.files after id compiler compilation [] := by
  obtain ⟨rfl, later⟩ := tidy.step_call step runs
  refine ⟨_, next, .begun, fun reply same => ?_, later, shuns, step.files⟩
  rw [Compiler.bundle_eq] at same
  cases same

/-- A build that is under way makes a step, which may be its last. -/
theorem UnderWay.step {context : Path}
    (underWay : UnderWay tables input files machine id compiler compilation seen)
    (tidy : machine.Tidy) (step : machine.Step id event? after)
    (fresh : machine.state.Fresh input) (trusted : machine.Trusted tables)
    (absolute : context.isAbsolute = true) (comparable : Comparable Fingerprint.of context tables)
    (known : ∀ record, seen = [] → event? = some (.op (.look compiler) record) →
      ∀ modules ∈ tablesOf (BuildCall.scan
        ⟨files.toFileView, record.options, Compiler.fileLimit, compilation⟩), modules ∈ tables) :
    ∃ event, event? = some event ∧ OfBuild tables event ∧
      (UnderWay tables input files after id compiler compilation (seen ++ [event]) ∨
        HasEnded U tables input files compiler compilation (seen ++ [event]) ∧
          ∀ program, after.program? id = some program → program.Shuns Op.Meddles) := by
  obtain ⟨left, next, soFar, unfinished, runs, shuns, same⟩ := underWay
  obtain ⟨event, later, rfl, longer, found, ofBuild⟩ :=
    tidy.step_build soFar unfinished runs step same fresh trusted absolute comparable known
  refine ⟨event, rfl, ofBuild, ?_⟩
  by_cases ended : ∃ reply, later = .done reply
  · obtain ⟨reply, rfl⟩ := ended
    refine .inr ⟨⟨_, [], reply, (List.append_nil _).symm, longer⟩, fun program holds => ?_⟩
    cases found.symm.trans holds
    exact shuns reply
  · refine .inl ⟨later, next, longer, fun reply done => ended ⟨reply, done⟩, found, shuns, ?_⟩
    rw [step.files, ofBuild.unedited.filesAfter, same]

/-- A build is still under way after a step of another task. -/
theorem UnderWay.other {builder : TaskId}
    (underWay : UnderWay tables input files machine builder compiler compilation seen)
    (tidy : machine.Tidy) (step : machine.Step id event? after) (different : builder ≠ id)
    (kept : after.state.files = machine.state.files) :
    UnderWay tables input files after builder compiler compilation seen := by
  obtain ⟨left, next, soFar, unfinished, runs, shuns, same⟩ := underWay
  refine ⟨left, next, soFar, unfinished, ?_, shuns, kept.trans same⟩
  rw [tidy.program?_other step different (tidy.below _ _ runs), runs]

/-! ## The shared cache -/

theorem Trusted.step_unseen (trusted : machine.Trusted tables) (step : machine.Step id none after) :
    after.Trusted tables := by
  cases step with
  | turn | finish => exact trusted
  | crash =>
      intro cache held
      refine trusted cache ?_
      rwa [← World.crash_cache machine.world id]

/-- The shared cache stays honest as long as only honest ones are set. -/
theorem Trusted.step {event : Event S.filed} (trusted : machine.Trusted tables)
    (step : machine.Step id (some event) after)
    (honest : ∀ cache, event = .op (.setCache cache) () → Honest Fingerprint.of tables cache) :
    after.Trusted tables := by
  cases step with
  | @op operation next reply world _ runs performed =>
      intro cache held
      change world.cache = some cache at held
      rw [World.perform_cache performed] at held
      cases operation with
      | setCache other =>
          cases held
          exact honest cache rfl
      | retain modules =>
          obtain ⟨earlier, found, rfl⟩ := Option.map_eq_some_iff.mp held
          exact (trusted earlier found).retain modules
      | _ => exact trusted cache held
  | call | request => exact trusted

end Machine

end Bundler
