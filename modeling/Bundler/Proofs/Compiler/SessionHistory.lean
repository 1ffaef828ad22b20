import Bundler.Proofs.Compiler.LifeCycle

/-!
# The history of a session

A job goes on from turn to turn, and `Course` is what a task did over all of its turns
so far. The turns of a driver fall into those between runs, the one that does a run, and
those after it that end with the release of the compiler. From what one turn does, the
whole history of a session is a sequence of quiet deeds and complete runs, with at most
one run under way at its end.
-/

namespace Bundler.Compiler

variable {S : Setting}

/-- What a task did, from its first job on, and what is left of its program. -/
inductive Course : Job S → List (Deed S) → Prog S (Next S) → Prop where
  | within {job deeds left} (path : (program job).Path deeds left) : Course job deeds left
  | turn {job next first rest left} (play : (program job).Play first (some next))
      (later : Course next rest left) : Course job (first ++ rest) left

/-- The compiler is not released by these deeds. -/
def Unreleased (compiler : CompilerId) (deeds : List (Deed S)) : Prop :=
  .op (.release compiler) () ∉ deeds

/-- Quiet deeds and complete runs, with at most one run under way at the end. -/
inductive Session (compiler : CompilerId) (run : List (Deed S) → Prop) :
    List (Deed S) → Prop where
  | opened : Session compiler run []
  | idle {deed rest} (quiet : Quiet deed) (later : Session compiler run rest) :
      Session compiler run (deed :: rest)
  | ran {middle rest} (complete : run middle) (later : Session compiler run rest) :
      Session compiler run
        (.op (.acquire compiler) () :: (middle ++ .op (.release compiler) () :: rest))
  | running {part} (unreleased : Unreleased compiler part) :
      Session compiler run (.op (.acquire compiler) () :: part)

section Grammar

variable {compiler : CompilerId} {run : List (Deed S) → Prop} {first rest deeds : List (Deed S)}

theorem Session.after_quiet (quiet : AllQuiet first) (later : Session compiler run rest) :
    Session compiler run (first ++ rest) := by
  induction first with
  | nil => exact later
  | cons deed first ih =>
      refine .idle (quiet deed List.mem_cons_self) (ih fun other member => ?_)
      exact quiet other (List.mem_cons_of_mem deed member)

theorem Unreleased.of_append (unreleased : Unreleased compiler (first ++ rest)) :
    Unreleased compiler first :=
  fun member => unreleased (List.mem_append_left rest member)

theorem Unreleased.append (before : Unreleased compiler first)
    (after : Unreleased compiler rest) : Unreleased compiler (first ++ rest) := by
  intro member
  rcases List.mem_append.mp member with member | member
  · exact before member
  · exact after member

theorem AllQuiet.unreleased (quiet : AllQuiet deeds) : Unreleased compiler deeds :=
  fun member => quiet _ member trivial

/-- Deeds up to a release that is not among the first ones: either a part of those, or all
of them with the release and more. -/
theorem append_eq_release {part more middle later : List (Deed S)}
    (same : part ++ more = middle ++ .op (.release compiler) () :: later)
    (unreleased : Unreleased compiler middle) :
    Unreleased compiler part ∨
      ∃ beyond, part = middle ++ .op (.release compiler) () :: beyond ∧
        beyond ++ more = later := by
  rcases List.append_eq_append_iff.mp same with ⟨gap, rfl, ended⟩ | ⟨gap, rfl, ended⟩
  · exact .inl unreleased.of_append
  · cases gap with
    | nil => exact .inl (by simpa using unreleased)
    | cons deed beyond =>
        obtain ⟨rfl, rfl⟩ := List.cons.inj ended
        exact .inr ⟨beyond, rfl, rfl⟩

/-- An earlier moment of a session. -/
theorem Session.of_append (unreleased : ∀ middle, run middle → Unreleased compiler middle)
    (session : Session compiler run (first ++ rest)) : Session compiler run first := by
  generalize all : first ++ rest = deeds at session
  induction session generalizing first with
  | opened =>
      obtain ⟨rfl, -⟩ := List.append_eq_nil_iff.mp all
      exact .opened
  | idle quiet later ih =>
      cases first with
      | nil => exact .opened
      | cons deed first =>
          obtain ⟨rfl, same⟩ := List.cons.inj all
          exact .idle quiet (ih same)
  | ran complete later ih =>
      cases first with
      | nil => exact .opened
      | cons deed first =>
          obtain ⟨rfl, same⟩ := List.cons.inj all
          rcases append_eq_release same (unreleased _ complete) with part | ⟨beyond, rfl, left⟩
          · exact .running part
          · exact .ran complete (ih left)
  | running part =>
      cases first with
      | nil => exact .opened
      | cons deed first =>
          obtain ⟨rfl, rfl⟩ := List.cons.inj all
          exact .running part.of_append

/-- What is known of each run where it stands in the history. -/
theorem Session.mono {better : List (Deed S) → Prop} (session : Session compiler run deeds)
    (improve : ∀ before middle after, deeds = before ++ (middle ++ after) → run middle →
      better middle) : Session compiler better deeds := by
  induction session with
  | opened => exact .opened
  | @idle deed _ quiet _ ih =>
      refine .idle quiet (ih fun before middle after same => ?_)
      exact improve (deed :: before) middle after (by rw [same]; rfl)
  | @ran middle rest complete _ ih =>
      refine .ran (improve [_] middle _ rfl complete) (ih fun before other after same => ?_)
      refine improve (.op (.acquire compiler) () ::
        (middle ++ .op (.release compiler) () :: before)) other after ?_
      simp [same]
  | running unreleased => exact .running unreleased

end Grammar

/-! ## What hook calls do not do -/

/-- A deed that looks at a compiler or calls an observer of an occasion. -/
def Observes : Deed S → Prop
  | .op (.look _) _ => True
  | .call (.observe ..) _ => True
  | _ => False

theorem observes_of_series {ω σ δ : Type} {hook : String}
    {ask : ω → σ → List (Deed S) → Verdict σ δ → Prop} {taps : List (Tap ω)} {value : σ}
    {deeds : List (Deed S)} {result : HookResult σ δ}
    (asks : ∀ observer value deeds verdict, ask observer value deeds verdict →
      ∀ deed ∈ deeds, Observes deed)
    (series : Series ask hook taps value deeds result) : ∀ deed ∈ deeds, Observes deed := by
  induction series with
  | through value => simp
  | passed asked remaining ih =>
      intro deed member
      rcases List.mem_append.mp member with member | member
      · exact asks _ _ _ _ asked deed member
      · exact ih deed member
  | decided asked => exact asks _ _ _ _ asked
  | failed asked => exact asks _ _ _ _ asked

theorem observes_of_told {compiler : CompilerId} {occasion : Occasion} {watcher : Watcher S}
    {value : Unit} {deeds : List (Deed S)} {verdict : Verdict Unit Empty}
    (told : Told compiler occasion watcher value deeds verdict) :
    ∀ deed ∈ deeds, Observes deed := by
  cases watcher with
  | outside observer =>
      obtain ⟨reply, rfl, -⟩ := told
      intro deed member
      obtain rfl := List.mem_singleton.mp member
      trivial
  | noEmitOnErrors =>
      obtain ⟨rfl, -⟩ := told
      simp

theorem observes_of_fires {compiler : CompilerId} {name : HookName}
    {occasion : Occasion} {deeds : List (Deed S)} {ending : HookResult Unit Empty}
    (fires : Fires compiler name (Told compiler occasion) () deeds ending) :
    ∀ deed ∈ deeds, Observes deed := by
  obtain ⟨record, rest, rfl, series⟩ := fires
  intro deed member
  rcases List.mem_cons.mp member with rfl | member
  · trivial
  · exact observes_of_series (fun _ _ _ _ told => observes_of_told told) series _ member

theorem observes_of_tellsFailure {compiler : CompilerId} {result : RunResult}
    {deeds : List (Deed S)} (told : TellsFailure compiler result deeds) :
    ∀ deed ∈ deeds, Observes deed := by
  cases result with
  | ok compilation =>
      obtain rfl : deeds = [] := told
      simp
  | error error =>
      obtain ⟨ending, fires⟩ := told
      exact observes_of_fires fires

theorem unreleased_of_observes {compiler : CompilerId} {deeds : List (Deed S)}
    (observes : ∀ deed ∈ deeds, Observes deed) : Unreleased compiler deeds :=
  fun member => observes _ member

theorem unreleased_of_head {kind : RunKind} {compiler other : CompilerId}
    {finish : RunResult → Deed S} {worker : TaskId} {result : RunResult} {deeds : List (Deed S)}
    (finishes : finish result ≠ .op (.release other) ())
    (head : RunHead kind compiler finish worker result deeds) : Unreleased other deeds := by
  obtain ⟨before, between, failure, middle, rest, rfl, early, joined, told, late, final⟩ := head
  refine early.unreleased.append fun member => ?_
  simp only [List.mem_cons, List.mem_append, reduceCtorEq, Deed.op.injEq, false_and,
    false_or] at member
  rcases member with member | member | member | same | member
  · exact joined.unreleased member
  · exact unreleased_of_observes (observes_of_tellsFailure told) member
  · exact late.unreleased member
  · exact finishes same.symm
  · exact final.unreleased member

/-! ## The turns of a driver -/

/-- A driver of the same session, at another moment. -/
def SameSession (driver other : Driver S) : Prop :=
  other.compiler = driver.compiler ∧ other.handler = driver.handler

theorem sameSession_refl (driver : Driver S) : SameSession driver driver := ⟨rfl, rfl⟩

theorem SameSession.trans {first second third : Driver S} (before : SameSession first second)
    (after : SameSession second third) : SameSession first third :=
  ⟨after.1.trans before.1, after.2.trans before.2⟩

theorem sameSession_onSignal (driver : Driver S) (signal : Signal S) :
    SameSession driver (onSignal driver signal) := by
  cases signal <;> exact ⟨rfl, rfl⟩

theorem sameSession_foldl_onSignal (signals : List (Signal S)) (driver : Driver S) :
    SameSession driver (signals.foldl onSignal driver) := by
  induction signals generalizing driver with
  | nil => exact sameSession_refl driver
  | cons signal rest ih => exact (sameSession_onSignal driver signal).trans (ih _)

section Turns

variable {driver other : Driver S} {deeds : List (Deed S)} {next : Next S}

theorem sameSession_onChanges {changes : ChangeSet}
    (play : (onChanges driver changes).Play deeds other) : SameSession driver other := by
  rw [onChanges] at play
  split at play
  · obtain ⟨-, rfl⟩ := Prog.play_pure.mp play
    exact sameSession_refl _
  · obtain ⟨_, _, _, _, returned, -⟩ := Prog.play_bind.mp play
    obtain ⟨-, rfl⟩ := Prog.play_pure.mp returned
    exact ⟨rfl, rfl⟩

theorem sameSession_awaitEvent (play : (awaitEvent driver).Play deeds other) :
    SameSession driver other := by
  rw [awaitEvent] at play
  split at play
  · obtain ⟨-, rfl⟩ := Prog.play_pure.mp play
    exact sameSession_refl _
  · obtain ⟨wake, _, woken, -⟩ := Prog.play_perform_bind.mp play
    cases wake with
    | signal signal =>
        obtain ⟨-, rfl⟩ := Prog.play_pure.mp woken
        exact sameSession_onSignal driver signal
    | changes changes => exact sameSession_onChanges woken
    | gone =>
        obtain ⟨-, rfl⟩ := Prog.play_pure.mp woken
        exact ⟨rfl, rfl⟩

theorem sameSession_closeNow (play : (closeNow driver).Play deeds other) :
    SameSession driver other := by
  have shuts : ∀ {rest}, Prog.Play (do
      let left ← Prog.perform (.shut driver.session)
      let driver := left.foldl onSignal driver
      let _ ← Prog.perform (.shift driver.compiler .endWatch)
      tell driver.compiler .watchClose
      notifyAll driver.closeCallbacks
      notifyAll driver.pendingCallbacks
      return { driver with subscription := none, closeCallbacks := [], pendingCallbacks := [] })
      rest other → SameSession driver other := by
    intro rest play
    obtain ⟨left, _, taken, -⟩ := Prog.play_perform_bind.mp play
    obtain ⟨_, _, shifted, -⟩ := Prog.play_perform_bind.mp taken
    obtain ⟨_, _, _, _, told, -⟩ := Prog.play_bind.mp shifted
    obtain ⟨_, _, _, _, closed, -⟩ := Prog.play_bind.mp told
    obtain ⟨_, _, _, _, returned, -⟩ := Prog.play_bind.mp closed
    obtain ⟨-, rfl⟩ := Prog.play_pure.mp returned
    exact sameSession_foldl_onSignal left driver
  rw [closeNow] at play
  cases held : driver.subscription with
  | none =>
      rw [held] at play
      exact shuts play
  | some subscription =>
      rw [held] at play
      obtain ⟨_, _, unsubscribed, -⟩ := Prog.play_invoke_bind.mp play
      exact shuts unsubscribed

theorem sameSession_resubscribe {compilation : Compilation}
    (play : (resubscribe driver compilation).Play deeds other) : SameSession driver other := by
  obtain ⟨record, _, looked, -⟩ := Prog.play_look_bind.mp play
  obtain ⟨reply, _, subscribed, -⟩ := Prog.play_invoke_bind.mp looked
  cases reply with
  | none =>
      obtain ⟨-, rfl⟩ := Prog.play_pure.mp subscribed
      exact sameSession_refl _
  | some subscription =>
      cases held : driver.subscription with
      | none =>
          simp only [held] at subscribed
          obtain ⟨-, rfl⟩ := Prog.play_pure.mp subscribed
          exact ⟨rfl, rfl⟩
      | some old =>
          simp only [held] at subscribed
          obtain ⟨_, _, given, -⟩ := Prog.play_invoke_bind.mp subscribed
          obtain ⟨-, rfl⟩ := Prog.play_pure.mp given
          exact ⟨rfl, rfl⟩

/-- A driver that waits goes on to take what was queued. -/
theorem turn_waiting (play : (drive .waiting driver).Play deeds next) :
    AllQuiet deeds ∧ ∃ other, next = some (.drive .draining other) ∧ SameSession driver other := by
  obtain ⟨early, woken, _, awaited, taking, rfl⟩ := Prog.play_bind.mp play
  obtain ⟨signals, _, taken, rfl⟩ := Prog.play_perform_bind.mp taking
  obtain ⟨rfl, rfl⟩ := Prog.play_pure.mp taken
  refine ⟨?_, _, rfl, ?_⟩
  · exact (allQuiet_of_play quiet_session.within_awaitEvent awaited).append (.cons id allQuiet_nil)
  · exact (sameSession_awaitEvent awaited).trans (sameSession_foldl_onSignal _ _)

/-- A driver that decides what to do next closes, waits, or does a run. -/
theorem turn_decideNext (play : (decideNext driver).Play deeds next) :
    (AllQuiet deeds ∧ (next = none ∨ next = some (.drive .waiting driver))) ∨
    ∃ worker result head other, deeds = .op (.acquire driver.compiler) () :: head ∧
      RunHead .watch driver.compiler (handling driver.handler) worker result head ∧
      next = some (.drive (.drainingAfter result.toOption) other) ∧
      SameSession driver other := by
  rw [decideNext] at play
  split at play
  · obtain ⟨first, closed, _, closing, retired, rfl⟩ := Prog.play_bind.mp play
    obtain ⟨_, _, returned, rfl⟩ := Prog.play_perform_bind.mp retired
    obtain ⟨rfl, rfl⟩ := Prog.play_pure.mp returned
    refine .inl ⟨?_, .inl rfl⟩
    exact (allQuiet_of_play quiet_session.within_closeNow closing).append (.cons id allQuiet_nil)
  · split at play
    · obtain ⟨first, ⟨finished, later⟩, _, ran, after, rfl⟩ := Prog.play_bind.mp play
      obtain ⟨signals, _, taken, rfl⟩ := Prog.play_perform_bind.mp after
      obtain ⟨rfl, rfl⟩ := Prog.play_pure.mp taken
      obtain ⟨worker, result, head, rfl, shape, rfl, sameCompiler, sameHandler⟩ :=
        head_of_watchRun ran
      refine .inr ⟨worker, result, _, _, rfl, shape.append_quiet (.cons id allQuiet_nil), rfl, ?_⟩
      have same : SameSession driver later := ⟨sameCompiler, sameHandler⟩
      exact same.trans (sameSession_foldl_onSignal _ _)
    · obtain ⟨rfl, rfl⟩ := Prog.play_pure.mp play
      exact .inl ⟨allQuiet_nil, .inr rfl⟩

/-- The end of a watch run: the observers of `after_done`, and the release. -/
theorem turn_afterDone {finished : Option Compilation} {closing : Bool}
    (play : Prog.Play (do
      tell driver.compiler (.afterDone finished)
      Prog.perform (.release driver.compiler)
      if closing then retire driver else return some (.drive .waiting driver)) deeds next) :
    ∃ last ending late, deeds = last ++ .op (.release driver.compiler) () :: late ∧
      Fires driver.compiler .afterDone (Told driver.compiler (.afterDone finished)) () last ending ∧
      AllQuiet late ∧ (next = none ∨ next = some (.drive .waiting driver)) := by
  obtain ⟨last, _, _, told, released, rfl⟩ := Prog.play_bind.mp play
  obtain ⟨ending, fires⟩ := fires_of_tell told
  obtain ⟨_, late, ended, rfl⟩ := Prog.play_perform_bind.mp released
  refine ⟨last, ending, late, rfl, fires, ?_⟩
  cases closing with
  | true =>
      obtain ⟨_, _, returned, rfl⟩ := Prog.play_perform_bind.mp ended
      obtain ⟨rfl, rfl⟩ := Prog.play_pure.mp returned
      exact ⟨.cons id allQuiet_nil, .inl rfl⟩
  | false =>
      obtain ⟨rfl, rfl⟩ := Prog.play_pure.mp ended
      exact ⟨allQuiet_nil, .inr rfl⟩

/-- What follows the callbacks of a watch run: perhaps a close or a subscription, and then
the observers of `after_done` and the release. -/
theorem turn_endRun {finished : Option Compilation}
    (play : (endRun finished driver).Play deeds next) :
    ∃ early last ending late,
      deeds = early ++ (last ++ .op (.release driver.compiler) () :: late) ∧
      AllQuiet early ∧
      Fires driver.compiler .afterDone (Told driver.compiler (.afterDone finished)) () last ending ∧
      AllQuiet late ∧
      (next = none ∨ ∃ other, next = some (.drive .waiting other) ∧ SameSession driver other) := by
  have concludes : ∀ (closing : Bool) {early rest : List (Deed S)} {closed : Driver S},
      AllQuiet early → SameSession driver closed → Prog.Play (do
        tell closed.compiler (.afterDone finished)
        Prog.perform (.release closed.compiler)
        if closing then retire closed else return some (.drive .waiting closed)) rest next →
      ∃ first last ending late,
        early ++ rest = first ++ (last ++ .op (.release driver.compiler) () :: late) ∧
        AllQuiet first ∧
        Fires driver.compiler .afterDone (Told driver.compiler (.afterDone finished)) () last
          ending ∧
        AllQuiet late ∧
        (next = none ∨
          ∃ other, next = some (.drive .waiting other) ∧ SameSession driver other) := by
    intro closing early rest closed quiet same play
    obtain ⟨last, ending, late, rfl, fires, after, goes⟩ := turn_afterDone play
    rw [same.1] at fires ⊢
    exact ⟨early, last, ending, late, rfl, quiet, fires, after,
      goes.imp id fun goes => ⟨closed, goes, same⟩⟩
  simp only [endRun] at play
  split at play
  · obtain ⟨early, closed, _, closing, after, rfl⟩ := Prog.play_bind.mp play
    exact concludes true (allQuiet_of_play quiet_session.within_closeNow closing)
      (sameSession_closeNow closing) after
  · cases finished with
    | none => exact concludes false allQuiet_nil (sameSession_refl driver) play
    | some compilation =>
        obtain ⟨early, closed, _, subscribing, after, rfl⟩ := Prog.play_bind.mp play
        exact concludes false (allQuiet_of_play quiet_session.within_resubscribe subscribing)
          (sameSession_resubscribe subscribing) after

end Turns

/-! ## The whole history -/

/-- A complete run of a session. -/
def WatchRun (compiler : CompilerId) (handler : S.Handler) (deeds : List (Deed S)) : Prop :=
  ∃ worker result, RunShape .watch compiler (handling handler) worker result deeds

/-- What is done from the middle of a run on, after its callbacks. -/
def AfterRun (compiler : CompilerId) (handler : S.Handler) (finished : Option Compilation)
    (deeds : List (Deed S)) : Prop :=
  Unreleased compiler deeds ∨
  ∃ early last ending rest, deeds = early ++ (last ++ .op (.release compiler) () :: rest) ∧
    AllQuiet early ∧
    Fires compiler .afterDone (Told compiler (.afterDone finished)) () last ending ∧
    Session compiler (WatchRun compiler handler) rest

/-- What a driver does from a stage on. -/
def StageShape (compiler : CompilerId) (handler : S.Handler) :
    DriverStage → List (Deed S) → Prop
  | .drainingAfter finished => AfterRun compiler handler finished
  | _ => Session compiler (WatchRun compiler handler)

section History

variable {compiler : CompilerId} {handler : S.Handler} {stage : DriverStage}
  {first rest : List (Deed S)}

theorem unreleased_of_watchRun {middle : List (Deed S)}
    (complete : WatchRun compiler handler middle) : Unreleased compiler middle := by
  obtain ⟨worker, result, head, last, ending, rfl, shape, fires⟩ := complete
  exact (unreleased_of_head (by simp [handling]) shape).append
    (unreleased_of_observes (observes_of_fires fires))

theorem stageShape_nil : StageShape compiler handler stage ([] : List (Deed S)) := by
  cases stage with
  | waiting => exact .opened
  | draining => exact .opened
  | drainingAfter finished => exact .inl allQuiet_nil.unreleased

/-- An earlier moment. -/
theorem StageShape.of_append (shape : StageShape compiler handler stage (first ++ rest)) :
    StageShape compiler handler stage first := by
  cases stage with
  | waiting => exact Session.of_append (fun _ => unreleased_of_watchRun) shape
  | draining => exact Session.of_append (fun _ => unreleased_of_watchRun) shape
  | drainingAfter finished =>
      rcases shape with unreleased | ⟨early, last, ending, later, same, quiet, fires, session⟩
      · exact .inl unreleased.of_append
      · rw [← List.append_assoc] at same
        have unreleased : Unreleased compiler (early ++ last) :=
          quiet.unreleased.append (unreleased_of_observes (observes_of_fires fires))
        rcases append_eq_release same unreleased with part | ⟨beyond, rfl, rfl⟩
        · exact .inl part
        · refine .inr ⟨early, last, ending, beyond, List.append_assoc .., quiet, fires, ?_⟩
          exact Session.of_append (fun _ => unreleased_of_watchRun) session

variable {driver : Driver S} {next : Next S}

/-- A turn puts what it does in front of what the next turns do. -/
theorem stageShape_of_turn (play : (drive stage driver).Play first next)
    (later : ∀ following other, next = some (.drive following other) →
      SameSession driver other → StageShape driver.compiler driver.handler following rest)
    (ended : next = none → rest = []) :
    StageShape driver.compiler driver.handler stage (first ++ rest) := by
  cases stage with
  | waiting =>
      obtain ⟨quiet, other, rfl, same⟩ := turn_waiting play
      exact Session.after_quiet quiet (later _ _ rfl same)
  | draining =>
      obtain ⟨taken, others, went, rfl⟩ := Prog.play_perform_bind.mp play
      cases taken with
      | some changes =>
          obtain ⟨other, changed, rfl⟩ := Prog.play_map.mp went
          have quiet : AllQuiet (.op (.takeChanges driver.session) (some changes) :: others) :=
            .cons id (allQuiet_of_play quiet_session.within_onChanges changed)
          exact Session.after_quiet quiet (later _ _ rfl (sameSession_onChanges changed))
      | none =>
          rcases turn_decideNext went with
            ⟨quiet, goes⟩ | ⟨worker, result, head, other, rfl, shape, rfl, same⟩
          · refine Session.after_quiet (.cons id quiet) ?_
            rcases goes with rfl | rfl
            · rw [ended rfl]
              exact .opened
            · exact later _ _ rfl (sameSession_refl driver)
          · refine .idle id ?_
            rcases later _ _ rfl same with
              unreleased | ⟨early, last, ending, more, rfl, quiet, fires, session⟩
            · exact .running ((unreleased_of_head (by simp [handling]) shape).append unreleased)
            · have complete : WatchRun driver.compiler driver.handler (head ++ early ++ last) :=
                ⟨worker, result, _, last, ending, rfl, shape.append_quiet quiet, fires⟩
              simpa using Session.ran complete session
  | drainingAfter finished =>
      obtain ⟨taken, others, went, rfl⟩ := Prog.play_perform_bind.mp play
      cases taken with
      | some changes =>
          obtain ⟨other, changed, rfl⟩ := Prog.play_map.mp went
          have quiet : AllQuiet (.op (.takeChanges driver.session) (some changes) :: others) :=
            .cons id (allQuiet_of_play quiet_session.within_onChanges changed)
          rcases later _ _ rfl (sameSession_onChanges changed) with
            unreleased | ⟨early, last, ending, more, rfl, before, fires, session⟩
          · exact .inl (quiet.unreleased.append unreleased)
          · exact .inr ⟨_, last, ending, more, (List.append_assoc ..).symm, quiet.append before,
              fires, session⟩
      | none =>
          obtain ⟨early, last, ending, late, rfl, quiet, fires, after, goes⟩ := turn_endRun went
          have session : Session driver.compiler (WatchRun driver.compiler driver.handler) rest := by
            rcases goes with rfl | ⟨other, rfl, same⟩
            · rw [ended rfl]
              exact .opened
            · exact later _ _ rfl same
          have begun : AllQuiet (.op (.takeChanges driver.session) none :: early) :=
            .cons id quiet
          exact .inr ⟨_, last, ending, late ++ rest, by simp, begun, fires,
            Session.after_quiet after session⟩

end History

/-! ## What drivers need -/

/-- What the turns of a driver need that begin no run. -/
structure AllowsTurns (ops : Op S → Prop) (calls : Call S → Prop) : Prop
    extends AllowsSession ops calls where
  taking : ∀ session, ops (.takeSignals session) ∧ ops (.takeChanges session)
  retiring : ∀ session, ops (.leave session)
  releasing : ∀ compiler, ops (.release compiler)
  observing : ∀ compiler observer occasion, calls (.observe compiler observer occasion)

/-- What a driver needs. -/
structure AllowsDriver (ops : Op S → Prop) (calls : Call S → Prop) : Prop
    extends AllowsTurns ops calls where
  acquiring : ∀ compiler, ops (.acquire compiler)
  noting : ∀ session changes, ops (.setLastChange session changes)
  changing : ∀ compiler changes, ops (.setChanges compiler changes)
  marking : ∀ compiler transition, ops (.shift compiler transition)
  delegating : ∀ compiler, ops (.spawn (.watchPhases compiler))
  joining : ∀ task, ops (.join task)
  handling : ∀ handler result, calls (.handle handler result)
  purging : ∀ input, calls (.purge input)

section Footprint

variable {ops : Op S → Prop} {calls : Call S → Prop}

namespace AllowsTurns

variable (allows : AllowsTurns ops calls)
include allows

theorem within_tells {compiler : CompilerId} {occasion : Occasion} :
    (tell compiler occasion : Prog S Unit).Within ops calls :=
  within_tell (allows.look compiler) fun observer => allows.observing compiler observer occasion

theorem within_retire (driver : Driver S) : (retire driver).Within ops calls :=
  (Prog.Within.perform (allows.retiring _)).bind fun _ => .pure _

theorem within_endRun (finished : Option Compilation) (driver : Driver S) :
    (endRun finished driver).Within ops calls := by
  have concludes : ∀ (closing : Bool) (closed : Driver S), Prog.Within ops calls (do
      tell closed.compiler (.afterDone finished)
      Prog.perform (.release closed.compiler)
      if closing then retire closed else return some (.drive .waiting closed)) := by
    intro closing closed
    refine allows.within_tells.bind fun _ => ?_
    refine (Prog.Within.perform (allows.releasing _)).bind fun _ => ?_
    cases closing with
    | true => exact allows.within_retire closed
    | false => exact .pure _
  simp only [endRun]
  split
  · exact allows.within_closeNow.bind (concludes true)
  · cases finished with
    | none => exact concludes false driver
    | some compilation => exact allows.within_resubscribe.bind (concludes false)

theorem within_waiting (driver : Driver S) : (drive .waiting driver).Within ops calls :=
  allows.within_awaitEvent.bind fun _ =>
    (Prog.Within.perform (allows.taking _).1).bind fun _ => .pure _

theorem within_drainingAfter (finished : Option Compilation) (driver : Driver S) :
    (drive (.drainingAfter finished) driver).Within ops calls := by
  refine (Prog.Within.perform (allows.taking _).2).bind fun taken => ?_
  cases taken with
  | some changes => exact allows.within_onChanges.bind fun _ => .pure _
  | none => exact allows.within_endRun finished driver

end AllowsTurns

namespace AllowsDriver

variable (allows : AllowsDriver ops calls)
include allows

theorem within_prepareChanges (driver : Driver S) : (prepareChanges driver).Within ops calls := by
  rw [prepareChanges]
  split
  · refine (Prog.Within.look (allows.look _)).bind fun record => ?_
    exact (Prog.Within.invoke (allows.purging _)).bind fun _ => .perform (allows.noting _ _)
  · exact .pure _

theorem within_watchRun (driver : Driver S) : (watchRun driver).Within ops calls := by
  rw [watchRun_eq]
  refine (Prog.Within.perform (allows.acquiring _)).bind fun _ => ?_
  refine (allows.within_prepareChanges driver).bind fun _ => ?_
  refine (Prog.Within.perform (allows.changing _ _)).bind fun _ => ?_
  refine (Prog.Within.perform (allows.marking _ _)).bind fun _ => ?_
  refine (Prog.Within.perform (allows.delegating _)).bind fun _ => ?_
  refine (Prog.Within.perform (allows.joining _)).bind fun result => ?_
  refine (Prog.Within.perform (allows.marking _ _)).bind fun _ => ?_
  have tells : (tellFailure driver.compiler result : Prog S Unit).Within ops calls := by
    cases result with
    | ok finished => exact .pure ()
    | error error => exact allows.within_tells
  refine tells.bind fun _ => ?_
  refine (Prog.Within.invoke (allows.handling _ _)).bind fun _ => ?_
  exact (allows.within_notifyAll _).bind fun _ => .pure _

theorem within_decideNext (driver : Driver S) : (decideNext driver).Within ops calls := by
  rw [decideNext]
  split
  · exact allows.within_closeNow.bind allows.within_retire
  · split
    · refine (allows.within_watchRun driver).bind fun ran => ?_
      exact (Prog.Within.perform (allows.taking _).1).bind fun _ => .pure _
    · exact .pure _

theorem within_drive (stage : DriverStage) (driver : Driver S) :
    (drive stage driver).Within ops calls := by
  cases stage with
  | waiting => exact allows.within_waiting driver
  | draining =>
      refine (Prog.Within.perform (allows.taking _).2).bind fun taken => ?_
      cases taken with
      | some changes => exact allows.within_onChanges.bind fun _ => .pure _
      | none => exact allows.within_decideNext driver
  | drainingAfter finished => exact allows.within_drainingAfter finished driver

end AllowsDriver

end Footprint

/-! ## The programs of jobs -/

/-- An operation that jobs make. -/
def OfJob : Op S → Prop
  | .setParent _ _ => False
  | .setInput _ _ => False
  | .setOutput _ _ => False
  | .setWatcher _ _ => False
  | .register .. => False
  | .createCompiler _ => False
  | .lookCache => False
  | .setCache _ => False
  | .openSession _ => False
  | .lookSession _ => False
  | .send _ _ => False
  | .dropHandle _ => False
  | .deliver _ _ => False
  | _ => True

/-- A program that does only what jobs do: it makes any calls, but no requests, and it never
panics. -/
abbrev OfJobs {α : Type} (program : Prog S α) : Prop := program.Within OfJob fun _ => True

theorem allowsDriver_ofJob : AllowsDriver (OfJob : Op S → Prop) fun _ => True where
  look _ := trivial
  awaiting _ := trivial
  shutting _ := trivial
  leaving _ := trivial
  telling _ _ _ _ := trivial
  notifying _ := trivial
  subscribing _ _ _ := trivial
  unsubscribing _ := trivial
  taking _ := ⟨trivial, trivial⟩
  noting _ _ := trivial
  retiring _ := trivial
  acquiring _ := trivial
  releasing _ := trivial
  changing _ _ := trivial
  marking _ _ := trivial
  delegating _ := trivial
  joining _ := trivial
  observing _ _ _ := trivial
  handling _ _ := trivial
  purging _ := trivial

theorem ofJobs_drive (stage : DriverStage) (driver : Driver S) : OfJobs (drive stage driver) :=
  allowsDriver_ofJob.within_drive stage driver

/-- The history of a driver is a session. -/
theorem stageShape_of_course {stage : DriverStage} {driver : Driver S} {deeds : List (Deed S)}
    {left : Prog S (Next S)} (course : Course (.drive stage driver) deeds left) :
    StageShape driver.compiler driver.handler stage deeds := by
  generalize start : Job.drive stage driver = job at course
  induction course generalizing stage driver with
  | within path =>
      obtain rfl := start.symm
      obtain ⟨more, next, play⟩ := ((ofJobs_drive stage driver).path path).1.exists_play
      have shape : StageShape driver.compiler driver.handler stage ((_ ++ more) ++ []) :=
        stageShape_of_turn (path.play play) (fun _ _ _ _ => stageShape_nil) fun _ => rfl
      rw [List.append_nil] at shape
      exact shape.of_append
  | turn play later ih =>
      obtain rfl := start.symm
      refine stageShape_of_turn play (fun following other goes same => ?_) fun ended => ?_
      · have shape := ih (Option.some.inj goes).symm
        rw [same.1, same.2] at shape
        exact shape
      · cases ended

end Bundler.Compiler
