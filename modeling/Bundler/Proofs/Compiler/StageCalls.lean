import Bundler.Proofs.Compiler.OutputGates

/-!
# The calls of stages

A stage of a run calls the observers of its own hook, the builder, or the output, and nothing
else. So a call among the deeds of a run tells at which stage it was made, and what was done
before and after it: `Sequence.at_call`.
-/

namespace Bundler

variable {S : Setting} {α : Type}

/-- The hook that a call fires, and the compiler that it belongs to. -/
def Call.fired? : Call S → Option (CompilerId × HookName)
  | .observe compiler _ occasion => some (compiler, occasion.hook)
  | .adjust compiler _ adjustment _ => some (compiler, adjustment.hook)
  | .decide compiler _ _ => some (compiler, .shouldEmit)
  | _ => none

namespace Compiler

variable {compiler : CompilerId}

/-! ## The calls of one hook -/

section Fires

variable {ω σ δ : Type} {value : σ} {deeds : List (Deed S)} {outside : Call S}
  {reply : outside.Reply}

theorem Series.calls {ask : ω → σ → List (Deed S) → Verdict σ δ → Prop} {hook : String}
    {taps : List (Tap ω)} {result : HookResult σ δ} {property : Prop}
    (asks : ∀ {observer value deeds verdict}, ask observer value deeds verdict →
      .call outside reply ∈ deeds → property)
    (series : Series ask hook taps value deeds result) (made : .call outside reply ∈ deeds) :
    property := by
  induction series with
  | through => cases made
  | passed asked _ ih => exact (List.mem_append.mp made).elim (asks asked) ih
  | decided asked | failed asked => exact asks asked made

/-- What a call tells, whichever observer made it, it tells among the calls of the hook. -/
theorem Fires.calls {ask : Watcher S → σ → List (Deed S) → Verdict σ δ → Prop} {name : HookName}
    {result : HookResult σ δ} {property : Prop}
    (asks : ∀ {watcher value deeds verdict}, ask watcher value deeds verdict →
      .call outside reply ∈ deeds → property)
    (fires : Fires compiler name ask value deeds result) (made : .call outside reply ∈ deeds) :
    property := by
  obtain ⟨record, rest, rfl, series⟩ := fires
  rcases List.mem_cons.mp made with same | made
  · cases same
  · exact series.calls asks made

variable {watcher : Watcher S} {result : RunResult}

theorem Told.call {occasion : Occasion} {nothing : Unit} {verdict : Verdict Unit Empty}
    (told : Told compiler occasion watcher nothing deeds verdict)
    (made : .call outside reply ∈ deeds) :
    ∃ observer, outside = .observe compiler observer occasion := by
  cases watcher with
  | outside observer =>
      obtain ⟨answer, rfl, -⟩ := told
      cases List.mem_singleton.mp made
      exact ⟨observer, rfl⟩
  | noEmitOnErrors =>
      rw [told.1] at made
      cases made

theorem Adjusted.call {adjustment : Adjustment} {compilation : Compilation}
    {verdict : Verdict Compilation Empty}
    (adjusted : Adjusted compiler adjustment watcher compilation deeds verdict)
    (made : .call outside reply ∈ deeds) :
    ∃ observer before, outside = .adjust compiler observer adjustment before := by
  cases watcher with
  | outside observer =>
      obtain ⟨answer, rfl, -⟩ := adjusted
      cases List.mem_singleton.mp made
      exact ⟨observer, compilation, rfl⟩
  | noEmitOnErrors =>
      rw [adjusted.1] at made
      cases made

theorem Polled.call {compilation : Compilation} {verdict : Verdict Compilation Bool}
    (polled : Polled compiler watcher compilation deeds verdict)
    (made : .call outside reply ∈ deeds) :
    ∃ observer before, outside = .decide compiler observer before := by
  cases watcher with
  | outside observer =>
      obtain ⟨answer, rfl, -⟩ := polled
      cases List.mem_singleton.mp made
      exact ⟨observer, compilation, rfl⟩
  | noEmitOnErrors =>
      rw [polled.1] at made
      cases made

theorem Tells.call {occasion : Occasion} {before : Compilation}
    (tells : Tells compiler occasion before deeds result) (made : .call outside reply ∈ deeds) :
    ∃ observer, outside = .observe compiler observer occasion := by
  obtain ⟨ending, fires, -⟩ := tells
  exact fires.calls Told.call made

theorem Adjusts.call {adjustment : Adjustment} {before : Compilation}
    (adjusts : Adjusts compiler adjustment before deeds result)
    (made : .call outside reply ∈ deeds) :
    ∃ observer before, outside = .adjust compiler observer adjustment before := by
  obtain ⟨ending, fires, -⟩ := adjusts
  exact fires.calls Adjusted.call made

theorem Asks.call {wanted : Bool} {before : Compilation}
    (asks : Asks compiler wanted before deeds result) (made : .call outside reply ∈ deeds) :
    ∃ observer before, outside = .decide compiler observer before := by
  obtain ⟨ending, fires, -⟩ := asks
  exact fires.calls Polled.call made

end Fires

/-! ## The calls of one stage -/

/-- The hook that is fired at a stage. -/
def Stage.hook? : Stage → Option HookName
  | beforeRun => some .beforeRun
  | run => some .run
  | watchRun => some .watchRun
  | thisCompilation => some .thisCompilation
  | compilation => some .compilation
  | afterCompile => some .afterCompile
  | shouldEmit _ => some .shouldEmit
  | emit => some .emit
  | assets => some .assetEmitted
  | afterEmit => some .afterEmit
  | done => some .done
  | creation | build | bailCheck => none

/-- A call that a stage may make: of the observers of its hook, of the builder, or for output. -/
def Stage.Calls (compiler : CompilerId) (stage : Stage) (outside : Call S) : Prop :=
  (∃ hook, stage.hook? = some hook ∧ outside.fired? = some (compiler, hook)) ∨
  (stage = .build ∧ ∃ input before, outside = .build compiler input before) ∨
  (stage = .assets ∧ outside.Outputs)

theorem Stage.calls_of_observe {stage : Stage} {occasion : Occasion} {outside : Call S}
    (hook : stage.hook? = some occasion.hook)
    (told : ∃ observer, outside = .observe compiler observer occasion) :
    stage.Calls compiler outside := by
  obtain ⟨observer, rfl⟩ := told
  exact .inl ⟨occasion.hook, hook, rfl⟩

theorem Stage.calls_of_adjust {stage : Stage} {adjustment : Adjustment} {outside : Call S}
    (hook : stage.hook? = some adjustment.hook)
    (adjusted : ∃ observer before, outside = .adjust compiler observer adjustment before) :
    stage.Calls compiler outside := by
  obtain ⟨observer, before, rfl⟩ := adjusted
  exact .inl ⟨adjustment.hook, hook, rfl⟩

section Stages

variable {before : Compilation} {deeds : List (Deed S)} {result : RunResult} {outside : Call S}
  {reply : outside.Reply}

theorem OnlyDirectories.call {output : StorageId} (directories : OnlyDirectories output deeds)
    (made : .call outside reply ∈ deeds) : outside.Outputs := by
  obtain ⟨path, answer, same⟩ := directories _ made
  cases same
  trivial

theorem Prepares.call {output : StorageId} {prepared : Except FileFault Unit}
    (prepares : Prepares output deeds prepared) (made : .call outside reply ∈ deeds) :
    outside.Outputs := by
  cases prepared with
  | ok value => exact OnlyDirectories.call prepares made
  | error fault =>
      obtain ⟨earlier, path, rfl, directories, -⟩ := prepares
      rcases List.mem_append.mp made with early | last
      · exact OnlyDirectories.call directories early
      · cases List.mem_singleton.mp last
        trivial

/-- The writing of assets calls the output and the observers of `asset_emitted`. -/
theorem Writes.call {output : StorageId} {base : Path} {names : List String}
    (writes : Writes compiler output base names before deeds result)
    (made : .call outside reply ∈ deeds) : Stage.assets.Calls compiler outside := by
  have outputs : outside.Outputs → Stage.assets.Calls compiler outside := fun outputs =>
    .inr (.inr ⟨rfl, outputs⟩)
  have tells : ∀ {asset : EmittedAsset} {told : List (Deed S)} {ending},
      Fires compiler .assetEmitted (Told compiler (.assetEmitted asset)) () told ending →
      .call outside reply ∈ told → Stage.assets.Calls compiler outside := fun fires member =>
    Stage.calls_of_observe rfl (fires.calls Told.call member)
  induction writes with
  | finished => cases made
  | unprepared prepared => exact outputs (prepared.call made)
  | unwritten _ prepared =>
      rcases List.mem_append.mp made with early | last
      · exact outputs (prepared.call early)
      · cases List.mem_singleton.mp last
        exact outputs trivial
  | untold _ prepared fires =>
      rcases List.mem_append.mp made with early | late
      · exact outputs (prepared.call early)
      · rcases List.mem_cons.mp late with same | late
        · cases same
          exact outputs trivial
        · exact tells fires late
  | written _ prepared fires _ ih =>
      rcases List.mem_append.mp made with early | late
      · exact outputs (prepared.call early)
      · rcases List.mem_cons.mp late with same | late
        · cases same
          exact outputs trivial
        · exact (List.mem_append.mp late).elim (tells fires) ih

theorem WritesOut.call (writes : WritesOut compiler before deeds result)
    (made : .call outside reply ∈ deeds) : Stage.assets.Calls compiler outside := by
  obtain ⟨record, rest, rfl, wrote⟩ := writes
  rcases List.mem_cons.mp made with same | made
  · cases same
  · rcases wrote with ⟨fault, prepared, -⟩ | ⟨directories, others, prepared, rfl, writes⟩
    · exact .inr (.inr ⟨rfl, prepared.call made⟩)
    · rcases List.mem_append.mp made with early | late
      · exact .inr (.inr ⟨rfl, prepared.call early⟩)
      · exact writes.call late

/-- The builder is called once, and a build that does not fail is what the stage comes to. -/
theorem Builds.call (builds : Builds compiler before deeds result)
    (made : .call outside reply ∈ deeds) :
    ∃ input answer, (Deed.call outside reply : Deed S) = .call (.build compiler input before) answer ∧
      result = answer.1.map fun _ => answer.2 := by
  obtain ⟨record, ⟨answer, built⟩, did⟩ := builds
  cases answer with
  | error error =>
      obtain ⟨rfl, rfl⟩ := did
      rw [List.mem_cons, List.mem_singleton] at made
      rcases made with same | same
      · cases same
      · exact ⟨record.input, _, same, rfl⟩
  | ok value =>
      obtain ⟨later, rfl, rfl⟩ := did
      simp only [List.mem_cons] at made
      rcases made with same | same | same | made
      · cases same
      · exact ⟨record.input, _, same, rfl⟩
      · cases same
      · rw [retention] at made
        split at made
        · cases List.mem_singleton.mp made
        · cases made

/-- A stage makes no calls but its own. -/
theorem Stage.Performs.calls {stage : Stage} (performs : stage.Performs compiler before deeds result)
    (made : .call outside reply ∈ deeds) : stage.Calls compiler outside := by
  cases stage with
  | beforeRun | run | watchRun | afterCompile | afterEmit | done =>
      exact calls_of_observe rfl (Tells.call performs made)
  | creation =>
      obtain ⟨fresh, rfl, -⟩ := performs
      cases List.mem_singleton.mp made
  | thisCompilation | compilation | emit => exact calls_of_adjust rfl (Adjusts.call performs made)
  | build =>
      obtain ⟨input, answer, same, -⟩ := Builds.call performs made
      cases same
      exact .inr (.inl ⟨rfl, input, before, rfl⟩)
  | bailCheck =>
      rw [performs.1] at made
      cases made
  | shouldEmit =>
      obtain ⟨observer, asked, rfl⟩ := Asks.call performs made
      exact .inl ⟨.shouldEmit, rfl, rfl⟩
  | assets => exact WritesOut.call performs made

/-- A sequence of stages makes no calls but theirs. -/
theorem Sequence.calls {stages : List Stage} (sequence : Sequence compiler stages before deeds result)
    (made : .call outside reply ∈ deeds) : ∃ stage ∈ stages, stage.Calls compiler outside := by
  induction sequence with
  | finished => cases made
  | passed performed _ ih =>
      rcases List.mem_append.mp made with here | later
      · exact ⟨_, List.mem_cons_self, performed.calls here⟩
      · obtain ⟨stage, member, calls⟩ := ih later
        exact ⟨stage, List.mem_cons_of_mem _ member, calls⟩
  | cut failed => exact ⟨_, List.mem_cons_self, failed.calls made⟩

/-- What followed a stage: nothing if it failed, and else the stages after it. -/
def Goes (compiler : CompilerId) (stages : List Stage) (reached : RunResult) (deeds : List (Deed S))
    (result : RunResult) : Prop :=
  match reached with
  | .ok next => Sequence compiler stages next deeds result
  | .error error => deeds = [] ∧ result = .error error

/-- A call that only one stage of an agenda makes: the stages before it were performed to their
end, the stage made the call, and the stages after it followed. -/
theorem Sequence.at_call {earlier later : List Stage} {stage : Stage}
    (sequence : Sequence compiler (earlier ++ stage :: later) before deeds result)
    (made : .call outside reply ∈ deeds)
    (notEarlier : ∀ other ∈ earlier, ¬ other.Calls compiler outside)
    (notLater : ∀ other ∈ later, ¬ other.Calls compiler outside) :
    ∃ begun middle own rest reached, deeds = begun ++ (own ++ rest) ∧
      Sequence compiler earlier before begun (.ok middle) ∧
      stage.Performs compiler middle own reached ∧ .call outside reply ∈ own ∧
      Goes compiler later reached rest result := by
  induction earlier generalizing before deeds with
  | nil =>
      cases sequence with
      | @passed _ _ _ after own rest _ performed remaining =>
          rcases List.mem_append.mp made with here | beyond
          · exact ⟨[], before, own, rest, .ok after, rfl, .finished before, performed, here, remaining⟩
          · obtain ⟨other, member, calls⟩ := remaining.calls beyond
            exact absurd calls (notLater other member)
      | @cut _ _ _ _ error failed =>
          exact ⟨[], before, deeds, [], .error error, by simp, .finished before, failed, made, rfl, rfl⟩
  | cons first earlier ih =>
      have notFirst := notEarlier first List.mem_cons_self
      cases sequence with
      | passed performed remaining =>
          have beyond := (List.mem_append.mp made).resolve_left fun here =>
            notFirst (performed.calls here)
          obtain ⟨begun, middle, own, rest, reached, rfl, passed, performs, here, goes⟩ :=
            ih remaining beyond fun other member => notEarlier other (List.mem_cons_of_mem _ member)
          exact ⟨_ ++ begun, middle, own, rest, reached, by simp, .passed performed passed, performs,
            here, goes⟩
      | cut failed => exact absurd (failed.calls made) notFirst

end Stages

end Compiler

end Bundler
