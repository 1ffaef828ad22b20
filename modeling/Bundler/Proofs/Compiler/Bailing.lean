import Bundler.Proofs.Compiler.GuardedOutput
import Bundler.Proofs.Compiler.StageCalls

/-!
# Bailing out

A compilation that is to bail fails a run if there is an error in it or below it. This is checked
at one point: when it is filled, before the observers of `should_emit` are asked. Errors that the
builder, an attached child or an observer has brought in until then end the run with the first of
them. After that only the observers of `emit` can change the compilation, and what they bring in is
not checked again: `Machine.bail_checked` says what holds for observers that bring in no error, and
`Compiler.late_error_passes` is a run with one that does.
-/

namespace Bundler

variable {S : Setting} {E : Environment S}

/-! ## Errors of a tree -/

namespace Compilation

/-- All errors of the compilation and of those below it, parents before their children. -/
def allErrors (compilation : Compilation) : List Diagnostic :=
  compilation.tree.flatMap fun record => record.errors

theorem treeOfAll_eq (children : List Compilation) : treeOfAll children = children.flatMap tree := by
  induction children with
  | nil => rfl
  | cons child rest ih => rw [treeOfAll, ih, List.flatMap_cons]

/-- The errors of a compilation come before those of its children, and those of a child before
those of the next. -/
theorem allErrors_eq (compilation : Compilation) :
    compilation.allErrors = compilation.errors ++ compilation.children.flatMap allErrors := by
  obtain ⟨record, children⟩ := compilation
  simp only [allErrors, tree, treeOfAll_eq, List.flatMap_cons, List.flatMap_assoc]
  rfl

theorem firstError?_eq (compilation : Compilation) :
    compilation.firstError? = compilation.allErrors.head? := by
  rw [firstError?, allErrors, List.head?_flatMap]

/-- If the compilation is to bail, there is no error in it or below it. -/
def Sound (compilation : Compilation) : Prop :=
  compilation.bail = true → ∀ nested, compilation.Contains nested → nested.errors = []

theorem sound_iff {compilation : Compilation} :
    compilation.Sound ↔ Compiler.bailError? compilation = none := by
  rw [bailError?_eq_none_iff, Sound, Erroneous]
  push Not
  rfl

/-- A mark changes no errors. -/
theorem sound_markEmitted {compilation : Compilation} {name : String} :
    (compilation.markEmitted name).Sound ↔ compilation.Sound := by
  have same : Compiler.bailError? (compilation.markEmitted name) =
      Compiler.bailError? compilation := by
    obtain ⟨record, children⟩ := compilation
    simp only [Compiler.bailError?, firstError?, markEmitted, tree, List.findSome?_cons]
  rw [sound_iff, sound_iff, same]

end Compilation

namespace Compiler

variable {kind : RunKind} {compiler : CompilerId} {before handed : Compilation}
  {deeds : List (Deed S)}

/-! ## From the check to the end -/

/-- An observer of `emit` has brought an error into a compilation that is to bail, or made one with
an error bail. -/
def Spoils (compiler : CompilerId) (deeds : List (Deed S)) : Prop :=
  ∃ (observer : S.Observer) (before after : Compilation),
    .call (.adjust compiler observer .emit before) (.ok (), after) ∈ deeds ∧
      before.Sound ∧ ¬ after.Sound

theorem Spoils.mono {more : List (Deed S)} (spoils : Spoils compiler deeds) (within : deeds ⊆ more) :
    Spoils compiler more := by
  obtain ⟨observer, before, after, made, sound, unsound⟩ := spoils
  exact ⟨observer, before, after, within made, sound, unsound⟩

/-- Among the observers of `emit` there is a first that spoils a sound compilation. -/
theorem spoils_of_series {hook : String} {taps : List (Tap (Watcher S))}
    {last : Compilation × Option Empty}
    (series : Series (Adjusted compiler .emit) hook taps before deeds (.ok last))
    (sound : before.Sound) (unsound : ¬ last.1.Sound) : Spoils compiler deeds := by
  induction taps generalizing before deeds with
  | nil =>
      cases series
      exact absurd sound unsound
  | cons tap taps ih =>
      cases series with
      | @passed _ _ _ next first rest _ asked remaining =>
          by_cases kept : next.Sound
          · exact (ih remaining kept).mono (List.subset_append_right _ _)
          · obtain ⟨name, watcher⟩ := tap
            cases watcher with
            | noEmitOnErrors =>
                obtain rfl := Verdict.passed.inj asked.2
                exact absurd sound kept
            | outside observer =>
                obtain ⟨⟨answer, after⟩, rfl, same⟩ := asked
                cases answer with
                | error reason => cases same
                | ok value =>
                    obtain rfl := Verdict.passed.inj same
                    exact ⟨observer, before, next, List.mem_append_left _ List.mem_cons_self, sound, kept⟩
      | @decided _ _ _ _ decision => exact decision.elim

theorem sound_of_writes {output : StorageId} {base : Path} {names : List String}
    {result : RunResult} {last : Compilation}
    (writes : Writes compiler output base names before deeds result) (ended : result = .ok last) :
    last.Sound ↔ before.Sound := by
  induction writes with
  | finished =>
      obtain rfl := Except.ok.inj ended
      rfl
  | unprepared | unwritten | untold => cases ended
  | written _ _ _ _ ih => rw [ih ended, Compilation.sound_markEmitted]

/-- Writing the assets brings no error in. -/
theorem sound_of_writesOut {last : Compilation}
    (writes : WritesOut compiler before deeds (.ok last)) : last.Sound ↔ before.Sound := by
  obtain ⟨record, rest, -, ⟨fault, -, failed⟩ | ⟨directories, others, -, -, writes⟩⟩ := writes
  · cases failed
  · exact sound_of_writes writes rfl

/-- What is told of a compilation leaves it as it is. -/
theorem Tells.unchanged {occasion : Occasion} (tells : Tells compiler occasion before deeds (.ok handed)) :
    handed = before := by
  obtain ⟨ending, -, same⟩ := tells
  cases ending with
  | error error => cases same
  | ok last => exact Except.ok.inj same

theorem ChecksBail.sound (checks : ChecksBail before deeds (.ok handed)) :
    handed = before ∧ handed.Sound := by
  obtain ⟨-, same⟩ := checks
  cases found : bailError? before with
  | some error =>
      rw [found] at same
      cases same
  | none =>
      rw [found] at same
      obtain rfl := Except.ok.inj same
      exact ⟨rfl, Compilation.sound_iff.mpr found⟩

theorem Asks.unchanged {wanted : Bool} (asks : Asks compiler wanted before deeds (.ok handed)) :
    handed = before := by
  obtain ⟨ending, -, decided⟩ := asks
  cases ending with
  | error error => cases decided
  | ok last => exact Except.ok.inj decided.2

/-- The stages that write the assets leave a sound compilation sound, unless an observer of `emit`
spoils it. -/
theorem sound_of_emission (sequence : Sequence compiler emission before deeds (.ok handed))
    (sound : before.Sound) : handed.Sound ∨ Spoils compiler deeds := by
  obtain ⟨adjustments, adjusted, rest, rfl, ⟨ending, ⟨record, calls, rfl, series⟩, same⟩, written⟩ :=
    sequence.uncons
  obtain ⟨outputs, last, others, rfl, writes, told⟩ := written.uncons
  obtain ⟨tellings, told, ended, rfl, tells, ended⟩ := told.uncons
  cases ended
  obtain rfl := Tells.unchanged tells
  cases ending with
  | error error => cases same
  | ok left =>
      obtain rfl := Except.ok.inj same
      by_cases kept : left.1.Sound
      · exact .inl ((sound_of_writesOut writes).mpr kept)
      · refine .inr ((spoils_of_series series sound kept).mono ?_)
        exact fun deed made => List.mem_append_left _ (List.mem_cons_of_mem _ made)

/-- The stages of a run before the observers of `done` are told. -/
def agendaBeforeDone (kind : RunKind) (wanted : Bool) : List Stage :=
  (kind.opening ++ filling) ++ ([.bailCheck, .shouldEmit wanted] ++ if wanted then emission else [])

theorem agenda_eq (kind : RunKind) (wanted : Bool) :
    agenda kind wanted = agendaBeforeDone kind wanted ++ [.done] := by
  simp [agenda, agendaBeforeDone, conclusion]

theorem done_notMem (kind : RunKind) (wanted : Bool) : .done ∉ agendaBeforeDone kind wanted := by
  cases kind <;> cases wanted <;> decide

/-- A compilation that comes to the end of a run is sound, unless an observer of `emit` has spoiled
it. -/
theorem sound_of_agenda {wanted : Bool} {start : Compilation}
    (sequence : Sequence compiler (agendaBeforeDone kind wanted) start deeds (.ok handed)) :
    handed.Sound ∨ Spoils compiler deeds := by
  obtain ⟨fills, filled, rest, rfl, -, concluded⟩ := sequence.split
  obtain ⟨checks, checked, asking, rfl, bails, asks⟩ := concluded.uncons
  obtain ⟨rfl, sound⟩ := ChecksBail.sound bails
  obtain ⟨polls, asked, emitting, rfl, answers, emits⟩ := asks.uncons
  obtain rfl := Asks.unchanged answers
  have within : emitting ⊆ fills ++ (checks ++ (polls ++ emitting)) := fun deed made => by simp [made]
  cases wanted with
  | false =>
      rw [if_neg Bool.false_ne_true] at emits
      cases emits
      exact .inl sound
  | true =>
      rw [if_pos rfl] at emits
      exact (sound_of_emission emits sound).imp_right fun spoils => spoils.mono within

/-! ## Runs under way -/

/-- What comes before the first occurrence of an element begins every list that has it later. -/
theorem prefix_of_absent {α : Type} {first rest begun others : List α} {element : α}
    (same : first ++ element :: rest = begun ++ others) (absent : element ∉ begun) :
    begun <+: first := by
  rcases List.append_eq_append_iff.mp same with ⟨more, rfl, cut⟩ | ⟨more, rfl, -⟩
  · cases more with
    | nil => simp
    | cons other more =>
        obtain ⟨rfl, -⟩ := List.cons.inj cut
        exact absurd (by simp) absent
  · exact List.prefix_append _ _

/-- A program that has come to a call can be played to its end, and what it did before the call it
has done already. -/
theorem exists_play_of_meets {α : Type} {ops : Op S → Prop} {calls : Call S → Prop}
    {program left : Prog S α} {outside : Call S} (within : program.Within ops calls)
    (path : program.Path deeds left) (meets : Meets deeds left outside) :
    ∃ whole value reply, program.Play whole value ∧ .call outside reply ∈ whole ∧
      ∀ begun rest, whole = begun ++ rest → .call outside reply ∉ begun → begun <+: deeds := by
  have remaining := (within.path path).1
  rcases meets with ⟨reply, made⟩ | ⟨next, rfl⟩
  · obtain ⟨more, value, play⟩ := remaining.exists_play
    obtain ⟨first, rest, rfl⟩ := List.append_of_mem made
    refine ⟨_, value, reply, path.play play, by simp, fun begun others same absent => ?_⟩
    rw [List.append_assoc, List.cons_append] at same
    exact (prefix_of_absent same absent).trans (List.prefix_append _ _)
  · cases remaining with
    | call _ rest =>
        obtain ⟨reply⟩ := Prog.nonempty_answer outside
        obtain ⟨more, value, play⟩ := (rest reply).exists_play
        exact ⟨_, value, reply, path.play (.call play), by simp,
          fun begun others same absent => prefix_of_absent same absent⟩

variable {left : Prog S (Next S)}

/-- The stages that a run has behind it when it tells of its end. -/
theorem before_done {observer : S.Observer} (course : Course (phasesJob kind compiler) deeds left)
    (meets : Meets deeds left (.observe compiler observer (.done handed))) :
    ∃ wanted begun, begun <+: deeds ∧
      Sequence compiler (agendaBeforeDone kind wanted) default begun (.ok handed) := by
  have within : (reporting (phasesOf kind compiler) : Prog S (Next S)).Within (fun _ => True)
      fun _ => True := by
    refine (within_phasesOf.mono (fun _ _ => trivial) fun _ => id).bind fun _ => ?_
    exact (Prog.Within.perform trivial).bind fun _ => .pure _
  obtain ⟨whole, value, reply, play, made, begins⟩ :=
    exists_play_of_meets within (path_of_course course) meets
  obtain ⟨stages, result, others, phases, reports, rfl⟩ := Prog.play_bind.mp play
  have inPhases : .call (.observe compiler observer (.done handed)) reply ∈ stages := by
    obtain ⟨_, rest, ended, rfl⟩ := Prog.play_perform_bind.mp reports
    obtain ⟨rfl, -⟩ := Prog.play_pure.mp ended
    simpa using made
  obtain ⟨wanted, sequence⟩ := sequence_of_phasesOf phases
  have notBefore : ∀ stage ∈ agendaBeforeDone kind wanted,
      ¬ stage.Calls compiler (.observe compiler observer (.done handed) : Call S) := by
    rintro stage member (⟨hook, here, fired⟩ | ⟨-, input, before, same⟩ | ⟨-, outputs⟩)
    · obtain ⟨-, rfl⟩ := Prod.mk.inj (Option.some.inj fired)
      cases stage <;> cases here
      exact done_notMem kind wanted member
    · cases same
    · exact outputs
  rw [agenda_eq] at sequence
  obtain ⟨begun, middle, own, rest, reached, rfl, earlier, performs, here, -⟩ :=
    sequence.at_call inPhases notBefore nofun
  obtain ⟨other, same⟩ := Tells.call performs here
  cases same
  refine ⟨wanted, begun, begins begun _ (List.append_assoc _ _ _) fun early => ?_, earlier⟩
  obtain ⟨stage, member, calls⟩ := earlier.calls early
  exact notBefore stage member calls

/-- The stages that a run has behind it when it reports a finished compilation. -/
theorem before_report (course : Course (phasesJob kind compiler) deeds left)
    (reported : .op (.report (.ok handed)) () ∈ deeds) :
    ∃ wanted begun, begun <+: deeds ∧
      Sequence compiler (agendaBeforeDone kind wanted) default begun (.ok handed) := by
  obtain ⟨stages, rfl, -, phases, -⟩ := course_of_report course reported
  obtain ⟨wanted, sequence⟩ := sequence_of_phasesOf phases
  rw [agenda_eq] at sequence
  obtain ⟨begun, middle, rest, rfl, earlier, ended⟩ := sequence.split
  obtain ⟨told, last, others, rfl, tells, finished⟩ := ended.uncons
  cases finished
  obtain rfl := Tells.unchanged tells
  exact ⟨wanted, begun, ⟨_, (List.append_assoc _ _ _).symm⟩, earlier⟩

/-! ## The check -/

theorem Series.hook_of_error {ω σ δ : Type} {ask : ω → σ → List (Deed S) → Verdict σ δ → Prop}
    {hook : String} {taps : List (Tap ω)} {value : σ} {error : RunError}
    (series : Series ask hook taps value deeds (.error error)) :
    ∃ tap reason, error = .hook hook tap reason := by
  generalize ended : (.error error : HookResult σ δ) = result at series
  induction series with
  | through | decided => cases ended
  | passed _ _ ih => exact ih ended
  | @failed tap _ _ _ reason _ => exact ⟨tap.name, reason, Except.error.inj ended⟩

/-- What is told fails only with the failure of an observer. -/
theorem Tells.hook_of_error {occasion : Occasion} {error : RunError}
    (tells : Tells compiler occasion before deeds (.error error)) :
    ∃ tap reason, error = .hook occasion.hook.text tap reason := by
  obtain ⟨ending, ⟨record, rest, -, series⟩, same⟩ := tells
  cases ending with
  | ok last => cases same
  | error reason =>
      obtain rfl := Except.error.inj same
      exact series.hook_of_error

/-- A run whose build has ended with a compilation that bails fails with its error, unless an
observer of `after_compile` fails. -/
theorem bails_of_build {input : StorageId} {built : Compilation} {error : RunError}
    {result : RunResult} (course : Course (phasesJob kind compiler) deeds left)
    (made : .call (.build compiler input before) (.ok (), built) ∈ deeds)
    (bails : bailError? built = some error) (reported : .op (.report result) () ∈ deeds) :
    result = .error error ∨
      ∃ tap reason, result = .error (.hook HookName.afterCompile.text tap reason) := by
  obtain ⟨stages, rfl, -, phases, -⟩ := course_of_report course reported
  have inPhases : .call (.build compiler input before) (.ok (), built) ∈ stages := by
    simpa using made
  obtain ⟨wanted, sequence⟩ : ∃ wanted, Sequence compiler (agenda kind wanted) default stages result :=
    sequence_of_phasesOf phases
  have only : ∀ stage : Stage, stage.Calls compiler (.build compiler input before : Call S) →
      stage = .build := by
    rintro stage (⟨hook, -, fired⟩ | ⟨same, -⟩ | ⟨-, outputs⟩)
    · cases fired
    · exact same
    · exact outputs.elim
  have parts : agenda kind wanted = (kind.opening ++ [.creation, .thisCompilation, .compilation]) ++
      .build :: .afterCompile :: conclusion wanted := by
    simp [agenda, filling]
  rw [parts] at sequence
  obtain ⟨begun, middle, own, rest, reached, rfl, -, performs, here, goes⟩ :=
    sequence.at_call inPhases
      (fun stage member calls => by
        obtain rfl := only stage calls
        cases kind <;> simp [RunKind.opening] at member)
      (fun stage member calls => by
        obtain rfl := only stage calls
        cases wanted <;> simp [conclusion, emission] at member)
  obtain ⟨_, answer, same, rfl⟩ := Builds.call performs here
  cases same
  -- The builder did not fail, so the observers of `after_compile` and the check follow.
  cases goes with
  | passed told checking =>
      obtain rfl := Tells.unchanged told
      cases checking with
      | passed checked =>
          have failed := checked.2
          rw [bails] at failed
          cases failed
      | cut checked =>
          have failed := checked.2
          rw [bails] at failed
          exact .inl failed
  | cut failed =>
      obtain ⟨tap, reason, rfl⟩ := Tells.hook_of_error failed
      exact .inr ⟨tap, reason, rfl⟩

/-- A worker that has nothing left to do has reported. -/
theorem reported_of_ended (course : Course (phasesJob kind compiler) deeds (.done none)) :
    ∃ result, .op (.report result) () ∈ deeds := by
  obtain ⟨stages, result, others, -, reports, rfl⟩ :=
    Prog.play_bind.mp (path_of_course course).play_of_done
  obtain ⟨_, rest, -, rfl⟩ := Prog.play_perform_bind.mp reports
  exact ⟨result, by simp⟩

end Compiler

/-! ## Bailing out in executions -/

/-- The answer to a call is the one that code outside came to. -/
theorem Tracks.answered {job : Job S} {events : List (Event S)} {deeds : List (Deed S)}
    {current : Option (Call S)} {outside : Call S} {reply : outside.Reply}
    (tracks : Tracks E job events deeds current) (made : .call outside reply ∈ deeds) :
    ∃ inner, (E.answer outside).Follows E inner (.done reply) := by
  have seen : ∀ {deeds : List (Deed S)} {events : List (Event S)}, Expands E deeds events →
      .call outside reply ∈ deeds → ∃ inner, (E.answer outside).Follows E inner (.done reply) := by
    intro deeds events expands made
    induction expands with
    | nothing => cases made
    | op _ ih | request _ ih =>
        rcases List.mem_cons.mp made with same | made
        · cases same
        · exact ih made
    | call answered _ ih =>
        rcases List.mem_cons.mp made with same | made
        · cases same
          exact ⟨_, answered⟩
        · exact ih made
  cases tracks with
  | between _ expands | calling _ expands => exact seen expands made

open Compiler in
/-- In every execution, the phases of a run hand a compilation to the observers of `done`, and
report one, only if it does not bail with an error in it or below it, unless an observer of `emit`
has brought the error or the bail in. Where the builder left an error in a compilation that is to
bail, the phases report the first error, parents before their children, unless an observer of
`after_compile` failed. Phases that are over have reported, unless code outside panicked. -/
theorem Machine.bail_checked {start machine : Machine E} {events : List (TaskId × Event S)}
    {spawner task : TaskId} {kind : RunKind} {compiler : CompilerId} (tidy : start.Tidy)
    (trace : start.Trace events machine)
    (spawned : (spawner, .op (.spawn (phasesJob kind compiler)) task) ∈ events) :
    ∃ deeds current, Tracks E (phasesJob kind compiler) (eventsOf task events) deeds current ∧
      (¬ Spoils compiler deeds →
        (∀ observer handed, Makes deeds current (.observe compiler observer (.done handed)) →
          handed.Sound) ∧
        ∀ handed, .op (.report (.ok handed)) () ∈ deeds → handed.Sound) ∧
      (∀ input before built first,
        .call (.build compiler input before) (.ok (), built) ∈ deeds → built.bail = true →
        built.allErrors.head? = some first → ∀ result, .op (.report result) () ∈ deeds →
          result = .error (.bail first) ∨
          ∃ tap reason, result = .error (.hook HookName.afterCompile.text tap reason)) ∧
      (machine.program? task = none → current = none →
        ∃ result, .op (.report result) () ∈ deeds) := by
  obtain ⟨deeds, left, seen, tail, course, expands, same, ending⟩ := tidy.did trace spawned
  have ends : ∀ {handed : Compilation}, (∃ wanted begun, begun <+: deeds ∧
      Sequence compiler (agendaBeforeDone kind wanted) default begun (.ok handed)) →
      ¬ Spoils compiler deeds → handed.Sound := by
    rintro handed ⟨wanted, begun, within, sequence⟩ unspoiled
    refine (sound_of_agenda sequence).resolve_right fun spoils => ?_
    exact unspoiled (spoils.mono within.subset)
  have reports : ¬ Spoils compiler deeds →
      ∀ handed, .op (.report (.ok handed)) () ∈ deeds → handed.Sound :=
    fun unspoiled handed reported => ends (before_report course reported) unspoiled
  have bails : ∀ input before built first,
      .call (.build compiler input before) (.ok (), built) ∈ deeds → built.bail = true →
      built.allErrors.head? = some first → ∀ result, .op (.report result) () ∈ deeds →
        result = .error (.bail first) ∨
        ∃ tap reason, result = .error (.hook HookName.afterCompile.text tap reason) := by
    intro input before built first made bail found result reported
    refine bails_of_build course made ?_ reported
    rw [bailError?, if_pos bail, Compilation.firstError?_eq, found, Option.map_some]
  rw [same]
  cases ending with
  | between stands =>
      rw [List.append_nil]
      refine ⟨deeds, none, .between course expands, fun unspoiled => ⟨?_, reports unspoiled⟩, bails, ?_⟩
      · rintro observer handed (made | ahead)
        · exact ends (before_done course (.inl made)) unspoiled
        · cases ahead
      · rintro gone -
        rcases stands with running | ⟨-, rfl⟩
        · cases running.symm.trans gone
        · exact reported_of_ended course
  | calling calls follows =>
      obtain rfl := calls
      refine ⟨deeds, _, .calling course expands follows,
        fun unspoiled => ⟨?_, reports unspoiled⟩, bails, fun _ absent => by cases absent⟩
      rintro observer handed (made | ahead)
      · exact ends (before_done course (.inl made)) unspoiled
      · cases ahead
        exact ends (before_done course (.inr ⟨_, rfl⟩)) unspoiled

/-! ### Errors of the build and errors that come late -/

/-- Code outside that changes compilations where they are handed on and where they are built, and
does nothing else. -/
def Environment.changing (adjust : Adjustment → Compilation → Compilation)
    (build : Compilation → Compilation) : Environment Setting.plain where
  State := Unit
  answer
    | .adjust _ _ adjustment compilation => return (.ok (), adjust adjustment compilation)
    | .build _ _ compilation => return (.ok (), build compilation)
    | outside => Environment.inert.answer outside
  serve wish := wish.elim

namespace Compiler

/-- A compiler that is to bail, with an observer of `emit` and one that sees the end. -/
def bailingCompiler : CompilerRecord Setting.plain where
  options := { Options.forContext (.of "/") with bail := true }
  registry := [⟨.emit, ⟨"late", .outside ()⟩⟩, ⟨.done, ⟨"log", .outside ()⟩⟩]

/-- A task starts a run. -/
def bailer (E : Environment Setting.plain) (state : E.State) : Machine E :=
  .hosting state [bailingCompiler] (run 0 ())

theorem bailer_tidy (E : Environment Setting.plain) (state : E.State) : (bailer E state).Tidy :=
  Machine.tidy_hosting state [bailingCompiler] (run 0 ())

def lateError : Diagnostic := ⟨.plugin, "late", none⟩

/-- A builder that leaves an error. -/
def failingBuild : Environment Setting.plain :=
  .changing (fun _ compilation => compilation) fun compilation => compilation.pushError lateError

/-- An observer of `emit` that leaves an error. -/
def failingEmit : Environment Setting.plain :=
  .changing (fun
    | .emit, compilation => compilation.pushError lateError
    | _, compilation => compilation) id

/-- The task of the run and the task of the phases, each as far as it goes. -/
def bailingTurns : List TaskId :=
  List.replicate 3 0 ++ List.replicate 3 1 ++ List.replicate 60 2 ++ List.replicate 12 1

/-- A run whose build leaves an error. -/
def bailed : List (TaskId × Event Setting.plain) × Machine failingBuild :=
  Machine.playback [] (bailer _ ()) bailingTurns

/-- The observers of `emit` bring no error in, so only a sound compilation could come to the end. The
build left an error, so none does: the run is over and has failed with that error. -/
theorem bail_checked_bailed :
    bailed.2.program? 2 = none ∧ (1, .call (.answer () (.error (.bail lateError)))) ∈ bailed.1 ∧
    ∃ deeds current, Tracks failingBuild (.phases 0) (eventsOf 2 bailed.1) deeds current ∧
      (∀ observer handed, Makes deeds current (.observe 0 observer (.done handed)) →
        handed.Sound) ∧
      (∀ handed, .op (.report (.ok handed)) () ∈ deeds → handed.Sound) ∧
      ∀ input before built first, .call (.build 0 input before) (.ok (), built) ∈ deeds →
        built.bail = true → built.allErrors.head? = some first →
        ∀ result, .op (.report result) () ∈ deeds → result = .error (.bail first) ∨
          ∃ tap reason, result = .error (.hook HookName.afterCompile.text tap reason) := by
  have spawned : (1, .op (.spawn (phasesJob .single 0)) 2) ∈ bailed.1 :=
    List.mem_of_getElem? (i := 4) rfl
  obtain ⟨deeds, current, tracks, sound, bails, -⟩ :=
    Machine.bail_checked (bailer_tidy failingBuild ()) (Machine.trace_playback .start _) spawned
  have unspoiled : ¬ Spoils 0 deeds := by
    rintro ⟨observer, before, after, made, earlier, later⟩
    obtain ⟨inner, answered⟩ := tracks.answered made
    cases answered
    exact later earlier
  refine ⟨rfl, List.mem_of_getElem? (i := 19) rfl, deeds, current, tracks, ?_, ?_, bails⟩
  · exact (sound unspoiled).1
  · exact (sound unspoiled).2

/-- A run with an observer of `emit` that leaves an error. -/
def passed : List (TaskId × Event Setting.plain) × Machine failingEmit :=
  Machine.playback [] (bailer _ ()) bailingTurns

/-- The error that an observer of `emit` leaves in a compilation that is to bail comes to the
observers of `done`, and the callback of the run is called as if all had gone well. -/
theorem late_error_passes :
    (bailer failingEmit ()).Tidy ∧ (bailer failingEmit ()).Trace passed.1 passed.2 ∧
    (1, .op (.spawn (phasesJob .single 0)) 2) ∈ passed.1 ∧
    ∃ handed : Compilation, handed.bail = true ∧ handed.errors = [lateError] ∧ ¬ handed.Sound ∧
      (2, .call (.observe 0 () (.done handed))) ∈ passed.1 ∧
      (2, .op (.report (.ok handed)) ()) ∈ passed.1 ∧
      (1, .call (.answer () (.ok handed))) ∈ passed.1 := by
  refine ⟨bailer_tidy failingEmit (), Machine.trace_playback .start _,
    List.mem_of_getElem? (i := 4) rfl, _, ?_, ?_, ?_, List.mem_of_getElem? (i := 22) rfl,
    List.mem_of_getElem? (i := 23) rfl, List.mem_of_getElem? (i := 26) rfl⟩
  · rfl
  · rfl
  · intro sound
    cases sound rfl _ (.self _)

end Compiler

end Bundler
