import Bundler.Proofs.Compiler.RunLifeCycle

/-!
# The gates before output

The compiler makes directories and writes files at one point of a run only. `Guards` says of a
program that it comes to such a call only after it has performed some stages: it goes through a
program step by step, like `Sequence`, but also speaks of runs that are still under way or were
broken off. The stages before output are the opening of a run, the filling of its compilation,
the bail check, a question whether output is wanted that was not denied, and the observers of
`emit`.
-/

namespace Bundler

variable {S : Setting} {E : Environment S} {α β : Type}

/-- A call that changes what an output storage holds. -/
def Call.Outputs : Call S → Prop
  | .mkdir _ _ => True
  | .write _ _ _ => True
  | _ => False

namespace Prog

/-- A program that makes no directories and writes no files. -/
abbrev Silent (program : Prog S α) : Prop :=
  program.Within (fun _ => True) fun outside => ¬ outside.Outputs

end Prog

/-- None of the deeds makes a directory or writes a file. -/
def AllSilent (deeds : List (Deed S)) : Prop :=
  ∀ deed ∈ deeds, deed.Within (fun _ => True) fun outside => ¬ outside.Outputs

/-- A program has made a call, or has come to it. -/
def Meets (deeds : List (Deed S)) (left : Prog S α) (outside : Call S) : Prop :=
  (∃ reply, .call outside reply ∈ deeds) ∨ ∃ next, left = .call outside next

theorem Meets.not_outputs {left : Prog S α} {deeds : List (Deed S)} {outside : Call S}
    (meets : Meets deeds left outside) (made : AllSilent deeds) (silent : left.Silent) :
    ¬ outside.Outputs := by
  rcases meets with ⟨reply, member⟩ | ⟨next, rfl⟩
  · exact made _ member
  · cases silent with
    | call allowed _ => exact allowed

theorem Prog.Silent.not_meets {program left : Prog S α} {deeds : List (Deed S)} {outside : Call S}
    (silent : program.Silent) (path : program.Path deeds left) (meets : Meets deeds left outside) :
    ¬ outside.Outputs :=
  meets.not_outputs (silent.path path).2 (silent.path path).1

/-- The calls of two programs one after the other are made in the first, or in the second when the
first has ended. -/
theorem Meets.of_bind {step : Prog S β} {next : β → Prog S α} {deeds : List (Deed S)}
    {left : Prog S α} {outside : Call S} (path : (step >>= next).Path deeds left)
    (meets : Meets deeds left outside) :
    (∃ remaining, step.Path deeds remaining ∧ Meets deeds remaining outside) ∨
      ∃ first middle rest, step.Play first middle ∧ (next middle).Path rest left ∧
        deeds = first ++ rest := by
  rcases path.of_bind with ⟨remaining, within, rfl⟩ | beyond
  · rcases meets with made | ⟨following, same⟩
    · exact .inl ⟨remaining, within, .inl made⟩
    · cases remaining with
      | done middle => exact .inr ⟨deeds, middle, [], within.play_of_done, .start _, by simp⟩
      | call other rest =>
          cases same
          exact .inl ⟨_, within, .inr ⟨rest, rfl⟩⟩
      | op | request | panic => cases same
  · exact .inr beyond

theorem Meets.of_append {first rest : List (Deed S)} {left : Prog S α} {outside : Call S}
    (meets : Meets (first ++ rest) left outside) :
    (∃ reply, .call outside reply ∈ first) ∨ Meets rest left outside := by
  rcases meets with ⟨reply, member⟩ | ahead
  · rcases List.mem_append.mp member with early | late
    · exact .inl ⟨reply, early⟩
    · exact .inr (.inl ⟨reply, late⟩)
  · exact .inr (.inr ahead)

namespace Compiler

variable {compiler : CompilerId} {stage : Stage} {stages : List Stage} {before : Compilation}

/-- The program performs these stages before it makes a directory or writes a file. -/
structure Guards (compiler : CompilerId) (stages : List Stage) (before : Compilation)
    (program : Prog S α) : Prop where
  gated : ∀ {deeds left outside}, program.Path deeds left → Meets deeds left outside →
    outside.Outputs → ∃ gates rest compilation, deeds = gates ++ rest ∧ AllSilent gates ∧
      Sequence compiler stages before gates (.ok compilation)

namespace Guards

theorem nothing (program : Prog S α) : Guards compiler [] before program := by
  refine ⟨fun {deeds _ _} _ _ _ => ?_⟩
  have silent : AllSilent ([] : List (Deed S)) := fun deed member => by cases member
  exact ⟨[], deeds, before, rfl, silent, .finished before⟩

theorem of_silent {program : Prog S α} (silent : program.Silent) :
    Guards compiler stages before program := by
  refine ⟨fun path meets outputs => ?_⟩
  exact absurd outputs (silent.not_meets path meets)

/-- A stage at which nothing is done. -/
theorem of_still {program : Prog S α}
    (performs : stage.Performs compiler before ([] : List (Deed S)) (.ok before))
    (guards : Guards compiler stages before program) :
    Guards compiler (stage :: stages) before program := by
  refine ⟨fun path meets outputs => ?_⟩
  obtain ⟨gates, rest, compilation, rfl, silent, sequence⟩ := guards.gated path meets outputs
  exact ⟨gates, rest, compilation, rfl, silent, .passed performs sequence⟩

/-- A silent program that performs a stage, unless what follows is silent as well. -/
theorem of_bind {step : Prog S β} {next : β → Prog S α} (silent : step.Silent)
    (continues : ∀ {first middle}, step.Play first middle → (next middle).Silent ∨
      ∃ after, stage.Performs compiler before first (.ok after) ∧
        Guards compiler stages after (next middle)) :
    Guards compiler (stage :: stages) before (step >>= next) := by
  refine ⟨fun {_ left outside} path meets outputs => ?_⟩
  rcases meets.of_bind path with ⟨remaining, within, met⟩ | ⟨first, middle, rest, play, beyond, rfl⟩
  · exact absurd outputs (silent.not_meets within met)
  · have early := silent.play play
    have later : Meets rest left outside := by
      rcases meets.of_append with ⟨reply, member⟩ | later
      · exact absurd outputs (early _ member)
      · exact later
    rcases continues play with quiet | ⟨after, performs, guards⟩
    · exact absurd outputs (quiet.not_meets beyond later)
    · obtain ⟨gates, more, compilation, rfl, calm, sequence⟩ := guards.gated beyond later outputs
      refine ⟨first ++ gates, more, compilation, by simp, fun deed member => ?_,
        .passed performs sequence⟩
      exact (List.mem_append.mp member).elim (early deed) (calm deed)

/-- A phase that performs a stage, followed by phases for the rest. -/
theorem of_phase {step : Phase S β} {next : β → Phase S α} (value : β → Compilation)
    (silent : step.run.Silent)
    (performs : ∀ {deeds middle}, step.run.Play deeds (.ok middle) →
      stage.Performs compiler before deeds (.ok (value middle)))
    (continues : ∀ middle, Guards compiler stages (value middle) (next middle).run) :
    Guards compiler (stage :: stages) before (step >>= next).run := by
  rw [ExceptT.run_bind]
  refine of_bind silent fun {first middle} play => ?_
  cases middle with
  | error error => exact .inl (.pure _)
  | ok middle => exact .inr ⟨value middle, performs play, continues middle⟩

/-- What follows a guarded program and is silent changes nothing. -/
theorem bind_silent {program : Prog S β} {next : β → Prog S α}
    (guards : Guards compiler stages before program) (silent : ∀ value, (next value).Silent) :
    Guards compiler stages before (program >>= next) := by
  refine ⟨fun {_ left outside} path meets outputs => ?_⟩
  rcases meets.of_bind path with ⟨remaining, within, met⟩ | ⟨first, middle, rest, play, beyond, rfl⟩
  · exact guards.gated within met outputs
  · rcases meets.of_append with ⟨reply, member⟩ | later
    · have within : program.Path first (.done middle) := play.path
      obtain ⟨gates, more, compilation, rfl, calm, sequence⟩ :=
        guards.gated within (.inl ⟨reply, member⟩) outputs
      exact ⟨gates, more ++ rest, compilation, by simp, calm, sequence⟩
    · exact absurd outputs ((silent middle).not_meets beyond later)

end Guards

/-! ## The phases of a run -/

section Phases

theorem silent_observe (occasion : Occasion) : (observe compiler occasion : Prog S _).Silent :=
  within_observe trivial fun _ => id

theorem silent_adjust (adjustment : Adjustment) (compilation : Compilation) :
    (proceed (adjust compiler adjustment compilation) : Phase S _).run.Silent :=
  within_proceed (within_adjust trivial fun _ _ => id)

theorem guards_observe {occasion : Occasion} {next : Unit → Phase S α}
    (performs : ∀ {deeds : List (Deed S)}, Tells compiler occasion before deeds (.ok before) →
      stage.Performs compiler before deeds (.ok before))
    (guards : Guards compiler stages before (next ()).run) :
    Guards compiler (stage :: stages) before (ExceptT.mk (observe compiler occasion) >>= next).run :=
  .of_phase (fun _ => before) (silent_observe occasion)
    (fun play => performs (tells_of_observe play)) fun _ => guards

theorem guards_adjust {adjustment : Adjustment} {next : Compilation → Phase S α}
    (performs : ∀ {deeds : List (Deed S)} {after},
      Adjusts compiler adjustment before deeds (.ok after) →
      stage.Performs compiler before deeds (.ok after))
    (guards : ∀ after, Guards compiler stages after (next after).run) :
    Guards compiler (stage :: stages) before
      (proceed (adjust compiler adjustment before) >>= next).run :=
  .of_phase id (silent_adjust adjustment before) (fun play => performs (adjusts_of_adjust play)) guards

theorem silent_buildPhase : (buildPhase compiler before : Phase S _).run.Silent := by
  refine .phase (.lift (.look trivial)) fun record => ?_
  refine .phase (within_proceed (.invoke id)) fun built => ?_
  refine .phase (.lift (.look trivial)) fun later => ?_
  split
  · exact .phase (.lift (.perform trivial)) fun _ => .pure _
  · exact .pure _

/-- The stages that are performed before output. -/
def RunKind.gates (kind : RunKind) : List Stage :=
  kind.opening ++ (filling ++ [.bailCheck, .shouldEmit true, .emit])

theorem guards_conclude :
    Guards compiler [.bailCheck, .shouldEmit true, .emit] before (conclude compiler before : Phase S _).run := by
  rw [conclude]
  cases bails : bailError? before with
  | some error => exact .of_silent (.pure _)
  | none =>
      refine .of_still ⟨rfl, by rw [bails]⟩ ?_
      rw [ExceptT.run_bind]
      refine .of_bind (within_wantsOutput trivial fun _ => id) fun {first wanted} play => ?_
      have ends : ∀ finished, (do
          ExceptT.mk (observe compiler (.done finished))
          return finished : Phase S Compilation).run.Silent :=
        fun finished => .phase (silent_observe _) fun _ => .pure _
      rcases wanted with error | (_ | _)
      · exact .inl (.pure _)
      · exact .inl (.phase (.pure _) ends)
      · obtain ⟨ending, fires, same⟩ := fires_of_wantsOutput play
        cases ending with
        | error reason => cases same
        | ok last =>
            refine .inr ⟨before, ⟨_, fires, (Except.ok.inj same).symm, rfl⟩, ?_⟩
            change Guards compiler [.emit] before (emit compiler before >>= _).run
            rw [emit_eq, bind_assoc]
            exact guards_adjust id fun _ => .nothing _

/-- The stages of every run after its opening. -/
theorem guards_body :
    Guards compiler (filling ++ [.bailCheck, .shouldEmit true, .emit]) before
      (compile compiler >>= conclude compiler : Phase S _).run := by
  rw [compile_eq]
  simp only [bind_assoc]
  refine .of_phase id (.lift (.perform trivial)) (fun {deeds fresh} play => ?_) fun fresh => ?_
  · obtain ⟨reply, made, same⟩ := Prog.play_map.mp play
    cases same
    exact ⟨_, Prog.play_perform.mp made, rfl⟩
  refine guards_adjust id fun _ => guards_adjust id fun adjusted => ?_
  refine .of_phase id silent_buildPhase (fun play => builds_of_buildPhase play) fun built => ?_
  refine guards_observe id ?_
  rw [pure_bind]
  exact guards_conclude

/-- A run comes to no output before it has performed the stages that lead there. -/
theorem guards_phasesOf (kind : RunKind) :
    Guards compiler kind.gates before (phasesOf kind compiler : Phase S _).run := by
  cases kind with
  | single => exact guards_observe id (guards_observe id guards_body)
  | watch => exact guards_observe id guards_body

end Phases

/-! ## The jobs of compilers -/

section Jobs

variable {job : Job S} {deeds : List (Deed S)} {left : Prog S (Next S)}

/-- A driver goes on as a driver. -/
theorem drive_of_turn {stage : DriverStage} {driver : Driver S} {next : Job S}
    (play : (drive stage driver).Play deeds (some next)) : next.Drives := by
  cases stage with
  | waiting =>
      obtain ⟨-, other, same, -⟩ := turn_waiting play
      cases same
      trivial
  | draining =>
      obtain ⟨taken, others, went, rfl⟩ := Prog.play_perform_bind.mp play
      cases taken with
      | some changes =>
          obtain ⟨other, -, same⟩ := Prog.play_map.mp went
          cases same
          trivial
      | none =>
          rcases turn_decideNext went with ⟨-, same | same⟩ | ⟨_, _, _, _, -, -, same, -⟩ <;> cases same
          · trivial
          · trivial
  | drainingAfter finished =>
      obtain ⟨taken, others, went, rfl⟩ := Prog.play_perform_bind.mp play
      cases taken with
      | some changes =>
          obtain ⟨other, -, same⟩ := Prog.play_map.mp went
          cases same
          trivial
      | none =>
          obtain ⟨_, _, _, _, -, -, -, -, same | ⟨other, same, -⟩⟩ := turn_endRun went <;> cases same
          trivial

theorem silent_drive (stage : DriverStage) (driver : Driver S) : (drive stage driver).Silent := by
  have allows : AllowsDriver (fun _ : Op S => True) fun outside => ¬ outside.Outputs :=
    { look := fun _ => trivial, awaiting := fun _ => trivial, shutting := fun _ => trivial
      leaving := fun _ => trivial, telling := fun _ _ _ _ => id, notifying := fun _ => id
      subscribing := fun _ _ _ => id, unsubscribing := fun _ => id
      taking := fun _ => ⟨trivial, trivial⟩, retiring := fun _ => trivial
      releasing := fun _ => trivial, observing := fun _ _ _ => id, acquiring := fun _ => trivial
      noting := fun _ _ => trivial, changing := fun _ _ => trivial, marking := fun _ _ => trivial
      delegating := fun _ => trivial, joining := fun _ => trivial, handling := fun _ _ => id
      purging := fun _ => id }
  exact allows.within_drive stage driver

theorem silent_tell (occasion : Occasion) : (tell compiler occasion : Prog S Unit).Silent :=
  within_tell trivial fun _ => id

theorem silent_tellFailure (result : RunResult) : (tellFailure compiler result : Prog S Unit).Silent := by
  cases result with
  | ok value => exact .pure _
  | error error => exact silent_tell _

theorem silent_runToEnd (callback : S.Callback) : (runToEnd compiler callback).Silent := by
  refine (Prog.Within.perform trivial).bind fun _ => ?_
  refine (Prog.Within.perform trivial).bind fun _ => ?_
  refine (Prog.Within.perform trivial).bind fun _ => ?_
  refine (Prog.Within.perform trivial).bind fun result => ?_
  refine (silent_tellFailure result).bind fun _ => ?_
  refine (Prog.Within.perform trivial).bind fun _ => ?_
  refine (Prog.Within.invoke id).bind fun _ => ?_
  exact (silent_tell _).bind fun _ => .perform trivial

/-- A job that performs no phases of a run. -/
def Job.Plain : Job S → Prop
  | .run _ _ => True
  | .drive _ _ => True
  | _ => False

/-- Only the phases of a run make output. -/
theorem silent_of_plain (course : Course job deeds left) (plain : Job.Plain job) :
    AllSilent deeds ∧ left.Silent := by
  have programs : ∀ {job : Job S}, Job.Plain job → (program job).Silent := by
    intro job plain
    cases job with
    | run compiler callback => exact (silent_runToEnd callback).bind fun _ => .pure _
    | drive stage driver => exact silent_drive stage driver
    | phases | watchPhases => exact plain.elim
  induction course with
  | within path => exact ((programs plain).path path).symm
  | @turn job next first rest _ play later ih =>
      have drives := drives_of_play play nofun
      cases job with
      | drive stage driver =>
          have goesOn := drive_of_turn play
          cases next with
          | drive following other =>
              obtain ⟨remaining, left⟩ := ih trivial
              have early := (programs plain).play play
              exact ⟨fun deed member => (List.mem_append.mp member).elim (early deed) (remaining deed),
                left⟩
          | run | phases | watchPhases => exact goesOn.elim
      | run | phases | watchPhases => exact drives.elim

/-- Output is the work of a run's phases, after the stages that lead to it. -/
theorem gates_of_course {outside : Call S} (course : Course job deeds left)
    (meets : Meets deeds left outside) (outputs : outside.Outputs) :
    ∃ kind compiler gates rest compilation, job = phasesJob kind compiler ∧ deeds = gates ++ rest ∧
      AllSilent gates ∧ Sequence compiler kind.gates default gates (.ok compilation) := by
  have phases : ∀ kind compiler, job = phasesJob kind compiler →
      ∃ kind compiler gates rest compilation, job = phasesJob kind compiler ∧ deeds = gates ++ rest ∧
        AllSilent gates ∧ Sequence compiler kind.gates default gates (.ok compilation) := by
    rintro kind compiler rfl
    have guards : Guards compiler kind.gates default
        (reporting (phasesOf kind compiler) : Prog S (Next S)) :=
      (guards_phasesOf kind).bind_silent fun _ => (Prog.Within.perform trivial).bind fun _ => .pure _
    obtain ⟨gates, rest, compilation, same, silent, sequence⟩ :=
      guards.gated (path_of_course course) meets outputs
    exact ⟨kind, compiler, gates, rest, compilation, rfl, same, silent, sequence⟩
  have plain : Job.Plain job → ¬ outside.Outputs := fun plain =>
    meets.not_outputs (silent_of_plain course plain).1 (silent_of_plain course plain).2
  cases job with
  | phases compiler => exact phases .single compiler rfl
  | watchPhases compiler => exact phases .watch compiler rfl
  | run | drive => exact absurd outputs (plain trivial)

end Jobs

end Compiler

end Bundler
