import Bundler.Proofs.Compiler.AssetWriting

/-!
# The stages of a run

The phases of a run are an agenda of stages. `Stage.Performs` says what is done at a
stage and what comes of it, and `Sequence` goes through an agenda up to the first stage
that fails. Which stages follow the question whether output is wanted depends on its
answer.
-/

namespace Bundler.Compiler

variable {S : Setting}

/-- A single run, or a run of a session. -/
inductive RunKind where
  | single
  | watch
  deriving DecidableEq, Repr

/-- A step of the phases of a run. -/
inductive Stage where
  | beforeRun
  | run
  | watchRun
  /-- A fresh compilation is made. -/
  | creation
  | thisCompilation
  | compilation
  | build
  | afterCompile
  | bailCheck
  /-- Output is wanted or not. -/
  | shouldEmit (wanted : Bool)
  | emit
  /-- The assets are written, and the observers of `asset_emitted` are told of each. -/
  | assets
  | afterEmit
  | done
  deriving DecidableEq, Repr

/-- What a run begins with. -/
def RunKind.opening : RunKind → List Stage
  | single => [.beforeRun, .run]
  | watch => [.watchRun]

/-- The stages that fill a compilation. -/
def filling : List Stage :=
  [.creation, .thisCompilation, .compilation, .build, .afterCompile]

/-- The stages that write the assets of a compilation. -/
def emission : List Stage := [.emit, .assets, .afterEmit]

/-- The stages from a filled compilation to a finished one. -/
def conclusion (wanted : Bool) : List Stage :=
  [.bailCheck, .shouldEmit wanted] ++ ((if wanted then emission else []) ++ [.done])

/-- All stages of a run, in order. -/
def agenda (kind : RunKind) (wanted : Bool) : List Stage :=
  kind.opening ++ (filling ++ conclusion wanted)

/-! ## What is done at a stage -/

/-- The hook of an occasion fired; the compilation stays as it is. -/
def Tells (compiler : CompilerId) (occasion : Occasion) (before : Compilation)
    (deeds : List (Deed S)) (result : RunResult) : Prop :=
  ∃ ending, Fires compiler occasion.hook (Told compiler occasion) () deeds ending ∧
    result = ending.map fun _ => before

/-- The hook of an adjustment fired, which may change the compilation. -/
def Adjusts (compiler : CompilerId) (adjustment : Adjustment) (before : Compilation)
    (deeds : List (Deed S)) (result : RunResult) : Prop :=
  ∃ ending, Fires compiler adjustment.hook (Adjusted compiler adjustment) before deeds ending ∧
    result = ending.map Prod.fst

/-- The artifacts that a compiler drops after a build. A child drops none. -/
def retention (record : CompilerRecord S) (compilation : Compilation) : List (Deed S) :=
  if !record.parent.isTruthy then [.op (.retain compilation.moduleIds) ()] else []

/-- The builder was called once, with the input that the compiler had. After a build that
did not fail, the artifacts of other modules are dropped. -/
def Builds (compiler : CompilerId) (before : Compilation) (deeds : List (Deed S))
    (result : RunResult) : Prop :=
  ∃ (record : CompilerRecord S) (reply : Except RunError Unit × Compilation),
    match reply with
    | (.error error, _) =>
      deeds = [.op (.look compiler) record,
        .call (.build compiler record.input before) reply] ∧ result = .error error
    | (.ok (), built) =>
      ∃ later, deeds = .op (.look compiler) record ::
        .call (.build compiler record.input before) reply ::
        .op (.look compiler) later :: retention later built ∧ result = .ok built

/-- A compilation that bails fails with its first error. -/
def ChecksBail (before : Compilation) (deeds : List (Deed S)) (result : RunResult) : Prop :=
  deeds = [] ∧
    result = match bailError? before with
      | some error => .error error
      | none => .ok before

/-- The observers were asked whether output is wanted, and it is unless one of them
decided against it. -/
def Asks (compiler : CompilerId) (wanted : Bool) (before : Compilation) (deeds : List (Deed S))
    (result : RunResult) : Prop :=
  ∃ ending, Fires compiler .shouldEmit (Polled compiler) before deeds ending ∧
    match ending with
    | .error error => result = .error error
    | .ok last => last.2.getD true = wanted ∧ result = .ok before

/-- All assets were written below the output path that the compiler has. -/
def WritesOut (compiler : CompilerId) (before : Compilation) (deeds : List (Deed S))
    (result : RunResult) : Prop :=
  ∃ record rest, deeds = .op (.look compiler) record :: rest ∧
    WritesAll compiler record.output record.options.output.path before rest result

/-- What is done at a stage, from the compilation before it to the one after it or to a
failure. -/
def Stage.Performs (compiler : CompilerId) (before : Compilation) (deeds : List (Deed S))
    (result : RunResult) : Stage → Prop
  | beforeRun => Tells compiler .beforeRun before deeds result
  | run => Tells compiler .run before deeds result
  | watchRun => Tells compiler .watchRun before deeds result
  | creation =>
    ∃ fresh, deeds = [.op (.newCompilation compiler) fresh] ∧ result = .ok fresh
  | thisCompilation => Adjusts compiler .thisCompilation before deeds result
  | compilation => Adjusts compiler .compilation before deeds result
  | build => Builds compiler before deeds result
  | afterCompile => Tells compiler (.afterCompile before) before deeds result
  | bailCheck => ChecksBail before deeds result
  | shouldEmit wanted => Asks compiler wanted before deeds result
  | emit => Adjusts compiler .emit before deeds result
  | assets => WritesOut compiler before deeds result
  | afterEmit => Tells compiler (.afterEmit before) before deeds result
  | done => Tells compiler (.done before) before deeds result

/-- The stages of an agenda were performed in order, up to the first failure. -/
inductive Sequence (compiler : CompilerId) :
    List Stage → Compilation → List (Deed S) → RunResult → Prop where
  | finished (compilation : Compilation) :
      Sequence compiler [] compilation [] (.ok compilation)
  | passed {stage stages before after deeds others result}
      (performed : stage.Performs compiler before deeds (.ok after))
      (remaining : Sequence compiler stages after others result) :
      Sequence compiler (stage :: stages) before (deeds ++ others) result
  | cut {stage stages before deeds error}
      (failed : stage.Performs compiler before deeds (.error error)) :
      Sequence compiler (stage :: stages) before deeds (.error error)

section Sequence

variable {compiler : CompilerId} {stages others : List Stage} {before middle : Compilation}
  {first deeds : List (Deed S)} {result : RunResult}

theorem Sequence.append (begun : Sequence compiler stages before first (.ok middle))
    (ended : Sequence compiler others middle deeds result) :
    Sequence compiler (stages ++ others) before (first ++ deeds) result := by
  generalize passing : (Except.ok middle : RunResult) = reached at begun
  induction begun with
  | finished compilation =>
      obtain rfl := Except.ok.inj passing
      exact ended
  | passed performed remaining ih =>
      rw [List.append_assoc]
      exact .passed performed (ih passing)
  | cut failed => cases passing

/-- Nothing follows a failure. -/
theorem Sequence.append_of_error {error : RunError}
    (failed : Sequence compiler stages before deeds (.error error)) :
    Sequence compiler (stages ++ others) before deeds (.error error) := by
  generalize failing : (Except.error error : RunResult) = reached at failed
  induction failed with
  | finished compilation => cases failing
  | passed performed remaining ih => exact .passed performed (ih failing)
  | cut failed => exact .cut failed

/-- An agenda that was performed to its end, with its first stage. -/
theorem Sequence.uncons {stage : Stage} {last : Compilation}
    (sequence : Sequence compiler (stage :: stages) before deeds (.ok last)) :
    ∃ begun middle rest, deeds = begun ++ rest ∧ stage.Performs compiler before begun (.ok middle) ∧
      Sequence compiler stages middle rest (.ok last) := by
  cases sequence with
  | passed performed remaining => exact ⟨_, _, _, rfl, performed, remaining⟩

/-- Two agendas one after the other that were performed to their end. -/
theorem Sequence.split {last : Compilation}
    (sequence : Sequence compiler (stages ++ others) before deeds (.ok last)) :
    ∃ begun middle rest, deeds = begun ++ rest ∧ Sequence compiler stages before begun (.ok middle) ∧
      Sequence compiler others middle rest (.ok last) := by
  induction stages generalizing before deeds with
  | nil => exact ⟨[], before, deeds, rfl, .finished before, sequence⟩
  | cons stage stages ih =>
      obtain ⟨begun, middle, rest, rfl, performed, remaining⟩ := sequence.uncons
      obtain ⟨more, reached, rest, rfl, passed, beyond⟩ := ih remaining
      exact ⟨begun ++ more, reached, rest, by rw [List.append_assoc], .passed performed passed, beyond⟩

/-- A phase that performs the first stage of an agenda, followed by phases for the rest. -/
theorem sequence_of_phase {β : Type} {stage : Stage} {step : Phase S β}
    {next : β → Phase S Compilation} (value : β → Compilation)
    (performs : ∀ {deeds reply}, step.run.Play deeds reply →
      stage.Performs compiler before deeds (reply.map value))
    (continues : ∀ {middle deeds}, (next middle).run.Play deeds result →
      Sequence compiler stages (value middle) deeds result)
    (play : (step >>= next).run.Play deeds result) :
    Sequence compiler (stage :: stages) before deeds result := by
  rcases Prog.play_phase.mp play with
    ⟨error, failed, rfl⟩ | ⟨first, middle, rest, begun, ended, rfl⟩
  · exact .cut (performs failed)
  · exact .passed (performs begun) (continues ended)

/-- A phase that hands on the compilation after the first stage of an agenda. -/
theorem sequence_of_step {stage : Stage} {step : Phase S Compilation}
    {next : Compilation → Phase S Compilation}
    (performs : ∀ {deeds reply}, step.run.Play deeds reply →
      stage.Performs compiler before deeds reply)
    (continues : ∀ {middle deeds}, (next middle).run.Play deeds result →
      Sequence compiler stages middle deeds result)
    (play : (step >>= next).run.Play deeds result) :
    Sequence compiler (stage :: stages) before deeds result := by
  refine sequence_of_phase id (fun {_ reply} play => ?_) continues play
  have same : reply.map id = reply := by cases reply <;> rfl
  rw [same]
  exact performs play

end Sequence

/-! ## The plays of phases -/

section Phases

variable {compiler : CompilerId} {before : Compilation} {deeds : List (Deed S)}

/-- An observed occasion leaves the compilation as it is. -/
theorem tells_of_observe {occasion : Occasion} {reply : Except RunError Unit}
    (play : (ExceptT.mk (observe compiler occasion)).run.Play deeds reply) :
    Tells compiler occasion before deeds (reply.map fun _ => before) := by
  obtain ⟨ending, fires, rfl⟩ := fires_of_observe play
  refine ⟨ending, fires, ?_⟩
  cases ending <;> rfl

/-- The compilation that a step hands on, unless the step failed. -/
theorem play_proceed {β : Type} {step : Prog S (Except RunError Unit × β)}
    {result : Except RunError β} :
    (proceed step).run.Play deeds result ↔
      ∃ reply, step.Play deeds reply ∧ result = reply.1.map fun _ => reply.2 := by
  have ends : (proceed step).run = step >>= fun reply => pure (reply.1.map fun _ => reply.2) := by
    simp only [proceed, ExceptT.run_bind, ExceptT.run_liftM, map_eq_pure_bind, bind_assoc,
      pure_bind]
    refine bind_congr fun reply => ?_
    obtain ⟨answer, value⟩ := reply
    cases answer <;> rfl
  rw [ends, Prog.play_map]

theorem adjusts_of_adjust {adjustment : Adjustment} {result : RunResult}
    (play : (proceed (adjust compiler adjustment before)).run.Play deeds result) :
    Adjusts compiler adjustment before deeds result := by
  obtain ⟨reply, adjusted, rfl⟩ := play_proceed.mp play
  exact fires_of_adjust adjusted

/-- The builder's part of a compilation. -/
def buildPhase (compiler : CompilerId) (compilation : Compilation) : Phase S Compilation := do
  let input := (← (Prog.look compiler : Prog S _)).input
  let compilation ← proceed (Prog.invoke (.build compiler input compilation))
  let record ← (Prog.look compiler : Prog S _)
  if !record.parent.isTruthy then
    (Prog.perform (.retain compilation.moduleIds) : Prog S Unit)
  return compilation

theorem compile_eq (compiler : CompilerId) :
    (compile compiler : Phase S Compilation) = (do
      let compilation ← (Prog.perform (.newCompilation compiler) : Prog S Compilation)
      let compilation ← proceed (adjust compiler .thisCompilation compilation)
      let compilation ← proceed (adjust compiler .compilation compilation)
      let compilation ← buildPhase compiler compilation
      ExceptT.mk (observe compiler (.afterCompile compilation))
      return compilation) := by
  simp only [compile, buildPhase, bind_assoc]
  refine bind_congr fun fresh => bind_congr fun adjusted => bind_congr fun compilation => ?_
  refine bind_congr fun record => bind_congr fun built => bind_congr fun later => ?_
  by_cases child : later.parent.isTruthy = true <;> simp [child]

theorem builds_of_buildPhase {result : RunResult}
    (play : (buildPhase compiler before).run.Play deeds result) :
    Builds compiler before deeds result := by
  obtain ⟨record, rest, afterLook, rfl⟩ := Prog.play_lift_look_bind.mp play
  rcases Prog.play_phase.mp afterLook with
    ⟨error, failed, rfl⟩ | ⟨first, built, others, begun, ended, rfl⟩
  · obtain ⟨⟨answer, value⟩, called, same⟩ := play_proceed.mp failed
    rw [Prog.play_invoke.mp called]
    cases answer with
    | ok value => cases same
    | error reason =>
        obtain rfl : error = reason := Except.error.inj same
        exact ⟨record, (.error error, value), rfl, rfl⟩
  · obtain ⟨⟨answer, value⟩, called, same⟩ := play_proceed.mp begun
    rw [Prog.play_invoke.mp called]
    cases answer with
    | error reason => cases same
    | ok done =>
        obtain rfl : built = value := Except.ok.inj same
        obtain ⟨later, last, afterBuild, rfl⟩ := Prog.play_lift_look_bind.mp ended
        refine ⟨record, (.ok (), built), later, ?_⟩
        by_cases child : later.parent.isTruthy = true
        · simp only [child, Bool.not_true, Bool.false_eq_true, if_false] at afterBuild
          obtain ⟨rfl, rfl⟩ := Prog.play_pure.mp afterBuild
          simp [retention, child]
        · rw [Bool.not_eq_true] at child
          simp only [child, Bool.not_false, if_true] at afterBuild
          obtain ⟨reply, ending, returned, rfl⟩ :=
            Prog.play_perform_bind.mp (Prog.play_lift_bind.mp afterBuild)
          obtain ⟨rfl, rfl⟩ := Prog.play_pure.mp returned
          simp [retention, child]

/-- The stages that fill a compilation. -/
theorem sequence_of_compile {result : RunResult}
    (play : (compile compiler).run.Play deeds result) :
    Sequence compiler filling before deeds result := by
  rw [compile_eq, Prog.play_lift_bind, Prog.play_perform_bind] at play
  obtain ⟨fresh, rest, play, rfl⟩ := play
  have created : Stage.creation.Performs compiler before
      [.op (.newCompilation compiler) fresh] (.ok fresh) := ⟨fresh, rfl, rfl⟩
  refine .passed created ?_
  refine sequence_of_step adjusts_of_adjust (fun {_ _} play => ?_) play
  refine sequence_of_step adjusts_of_adjust (fun {_ _} play => ?_) play
  refine sequence_of_step builds_of_buildPhase (fun {built _} play => ?_) play
  refine sequence_of_phase (fun _ => built) tells_of_observe (fun {_ _} play => ?_) play
  obtain ⟨rfl, rfl⟩ := Prog.play_pure.mp play
  exact .finished built

/-- The writing of all assets. -/
def assetPhase (compiler : CompilerId) (compilation : Compilation) : Phase S Compilation := do
  let record ← (Prog.look compiler : Prog S _)
  proceed ((emitter compiler record.output).emitAll record.options.output.path compilation)

theorem writesOut_of_assetPhase {result : RunResult}
    (play : (assetPhase compiler before).run.Play deeds result) :
    WritesOut compiler before deeds result := by
  obtain ⟨record, rest, afterLook, rfl⟩ := Prog.play_lift_look_bind.mp play
  obtain ⟨reply, wrote, rfl⟩ := play_proceed.mp afterLook
  exact ⟨record, rest, rfl, writesAll_of_emitAll wrote⟩

theorem emit_eq (compiler : CompilerId) (compilation : Compilation) :
    (emit compiler compilation : Phase S Compilation) = (do
      let compilation ← proceed (adjust compiler .emit compilation)
      let compilation ← assetPhase compiler compilation
      ExceptT.mk (observe compiler (.afterEmit compilation))
      return compilation) := by
  simp only [emit, assetPhase, bind_assoc]

/-- The stages that write the assets of a compilation. -/
theorem sequence_of_emit {result : RunResult}
    (play : (emit compiler before).run.Play deeds result) :
    Sequence compiler emission before deeds result := by
  rw [emit_eq] at play
  refine sequence_of_step adjusts_of_adjust (fun {_ _} play => ?_) play
  refine sequence_of_step writesOut_of_assetPhase (fun {written _} play => ?_) play
  refine sequence_of_phase (fun _ => written) tells_of_observe (fun {_ _} play => ?_) play
  obtain ⟨rfl, rfl⟩ := Prog.play_pure.mp play
  exact .finished written

/-- The last stage of a run. -/
theorem sequence_of_done {result : RunResult}
    (play : (do
      ExceptT.mk (observe compiler (.done before))
      return before : Phase S Compilation).run.Play deeds result) :
    Sequence compiler [.done] before deeds result := by
  refine sequence_of_phase (fun _ => before) tells_of_observe (fun {_ _} play => ?_) play
  obtain ⟨rfl, rfl⟩ := Prog.play_pure.mp play
  exact .finished before

/-- The stages after the question whether output is wanted. -/
theorem sequence_of_wanted {wanted : Bool} {result : RunResult}
    (play : (do
      let compilation ← if wanted then emit compiler before else pure before
      ExceptT.mk (observe compiler (.done compilation))
      return compilation : Phase S Compilation).run.Play deeds result) :
    Sequence compiler ((if wanted then emission else []) ++ [.done]) before deeds result := by
  cases wanted with
  | false =>
      rw [if_neg Bool.false_ne_true] at play ⊢
      rw [pure_bind] at play
      exact sequence_of_done play
  | true =>
      rw [if_pos rfl] at play ⊢
      rcases Prog.play_phase.mp play with
        ⟨error, failed, rfl⟩ | ⟨first, written, rest, begun, ended, rfl⟩
      · exact (sequence_of_emit failed).append_of_error
      · exact (sequence_of_emit begun).append (sequence_of_done ended)

/-- The stages from a filled compilation to a finished one. -/
theorem sequence_of_conclude {result : RunResult}
    (play : (conclude compiler before).run.Play deeds result) :
    ∃ wanted, Sequence compiler (conclusion wanted) before deeds result := by
  rw [conclude] at play
  cases bails : bailError? before with
  | some error =>
      rw [bails] at play
      obtain ⟨rfl, rfl⟩ := Prog.play_pure.mp play
      exact ⟨true, .cut ⟨rfl, by rw [bails]⟩⟩
  | none =>
      rw [bails] at play
      have checked : Stage.bailCheck.Performs compiler before ([] : List (Deed S)) (.ok before) :=
        ⟨rfl, by rw [bails]⟩
      rcases Prog.play_phase.mp play with
        ⟨error, failed, rfl⟩ | ⟨first, wanted, rest, begun, ended, rfl⟩
      · obtain ⟨ending, fires, same⟩ := fires_of_wantsOutput failed
        cases ending with
        | ok last => cases same
        | error reason =>
            obtain rfl : error = reason := Except.error.inj same
            exact ⟨true, .passed checked (.cut ⟨_, fires, rfl⟩)⟩
      · obtain ⟨ending, fires, same⟩ := fires_of_wantsOutput begun
        cases ending with
        | error reason => cases same
        | ok last =>
            have decided : last.2.getD true = wanted := (Except.ok.inj same).symm
            have asked : (Stage.shouldEmit wanted).Performs compiler before first (.ok before) :=
              ⟨_, fires, decided, rfl⟩
            have sequence := Sequence.passed checked (.passed asked (sequence_of_wanted ended))
            exact ⟨wanted, sequence⟩

/-- The phases of a run. -/
def phasesOf (kind : RunKind) (compiler : CompilerId) : Phase S Compilation :=
  match kind with
  | .single => phases compiler
  | .watch => watchPhases compiler

/-- The stages of every run after its opening. -/
theorem sequence_of_body {result : RunResult}
    (play : (compile compiler >>= conclude compiler).run.Play deeds result) :
    ∃ wanted, Sequence compiler (filling ++ conclusion wanted) before deeds result := by
  rcases Prog.play_phase.mp play with
    ⟨error, failed, rfl⟩ | ⟨first, filled, rest, begun, ended, rfl⟩
  · exact ⟨true, (sequence_of_compile failed).append_of_error⟩
  · obtain ⟨wanted, concluded⟩ := sequence_of_conclude ended
    exact ⟨wanted, (sequence_of_compile begun).append concluded⟩

/-- An occasion before the compilation is made, and the stages that follow. -/
theorem sequence_of_occasion {occasion : Occasion} {stage : Stage} {stages : Bool → List Stage}
    {next : Phase S Compilation} {result : RunResult}
    (performs : ∀ {deeds : List (Deed S)} {reply}, Tells compiler occasion before deeds reply →
      stage.Performs compiler before deeds reply)
    (continues : ∀ {deeds}, next.run.Play deeds result →
      ∃ wanted, Sequence compiler (stages wanted) before deeds result)
    (play : (ExceptT.mk (observe compiler occasion) >>= fun _ => next).run.Play deeds result) :
    ∃ wanted, Sequence compiler (stage :: stages wanted) before deeds result := by
  rcases Prog.play_phase.mp play with
    ⟨error, failed, rfl⟩ | ⟨first, value, rest, begun, ended, rfl⟩
  · exact ⟨true, .cut (performs (tells_of_observe failed))⟩
  · obtain ⟨wanted, sequence⟩ := continues ended
    exact ⟨wanted, .passed (performs (tells_of_observe begun)) sequence⟩

/-- The phases of a run perform its agenda. -/
theorem sequence_of_phasesOf {kind : RunKind} {result : RunResult}
    (play : (phasesOf kind compiler).run.Play deeds result) :
    ∃ wanted, Sequence compiler (agenda kind wanted) before deeds result := by
  cases kind with
  | single =>
      refine sequence_of_occasion id (fun play => ?_) play
      exact sequence_of_occasion id sequence_of_body play
  | watch => exact sequence_of_occasion id sequence_of_body play

end Phases

end Bundler.Compiler
