import Bundler.Proofs.Compiler.Footprint
import Bundler.Proofs.Compiler.Stages

/-!
# The life cycle of a run

The task of a run begins the run, has the phases done by a task of its own, tells of a
failure, hands the result to the callback or to the handler, fires `after_done`, and
releases the compiler. `RunShape` says so of what is done between the beginning and the
release. The driver of a session makes one such run after another: `Session` is the
shape of its whole history, with quiet deeds between the runs.
-/

namespace Bundler.Compiler

variable {S : Setting}

/-! ## Quiet deeds -/

/-- A call that belongs to a run: of its observers, of the builder, of the output, or of
those who wait for the result. -/
def CallOfRun : Call S → Prop
  | .observe _ _ occasion => OfRun occasion
  | .adjust .. => True
  | .decide .. => True
  | .build .. => True
  | .mkdir .. => True
  | .write .. => True
  | .answer .. => True
  | .handle .. => True
  | _ => False

/-- An operation that begins a run or releases a compiler. -/
def OpOfGate : Op S → Prop
  | .acquire _ => True
  | .release _ => True
  | _ => False

/-- A deed that is no part of the life cycle of a run. -/
def Quiet : Deed S → Prop :=
  Deed.Within (fun operation => ¬ OpOfGate operation) fun outside => ¬ CallOfRun outside

/-- Nothing was done but quiet deeds. -/
def AllQuiet (deeds : List (Deed S)) : Prop := ∀ deed ∈ deeds, Quiet deed

theorem allQuiet_nil : AllQuiet ([] : List (Deed S)) := by
  intro deed member
  cases member

theorem AllQuiet.cons {deed : Deed S} {deeds : List (Deed S)} (first : Quiet deed)
    (rest : AllQuiet deeds) : AllQuiet (deed :: deeds) := by
  intro other member
  rcases List.mem_cons.mp member with rfl | member
  · exact first
  · exact rest other member

theorem AllQuiet.append {first rest : List (Deed S)} (before : AllQuiet first)
    (after : AllQuiet rest) : AllQuiet (first ++ rest) := by
  intro deed member
  rcases List.mem_append.mp member with member | member
  · exact before deed member
  · exact after deed member

/-- A program with quiet deeds only. -/
abbrev QuietProg {α : Type} (program : Prog S α) : Prop :=
  program.Within (fun operation => ¬ OpOfGate operation) fun outside => ¬ CallOfRun outside

theorem allQuiet_of_play {α : Type} {program : Prog S α} {deeds : List (Deed S)} {value : α}
    (quiet : QuietProg program) (play : program.Play deeds value) : AllQuiet deeds :=
  quiet.play play

/-! ## The programs between runs -/

/-- What a driver does when no run of its own is under way is quiet. -/
theorem quiet_session : AllowsSession (fun operation : Op S => ¬ OpOfGate operation)
    fun outside => ¬ CallOfRun outside where
  look _ := id
  awaiting _ := id
  shutting _ := id
  leaving _ := id
  telling _ _ _ untold := untold
  notifying _ := id
  subscribing _ _ _ := id
  unsubscribing _ := id

/-! ## One run -/

/-- The job that does the phases of a run. -/
def phasesJob (kind : RunKind) (compiler : CompilerId) : Job S :=
  match kind with
  | .single => .phases compiler
  | .watch => .watchPhases compiler

/-- The callback of a single run is called with its result. -/
def answering (callback : S.Callback) (result : RunResult) : Deed S :=
  .call (.answer callback result) ()

/-- The handler of a session is called with the result of a run. -/
def handling (handler : S.Handler) (result : RunResult) : Deed S :=
  .call (.handle handler result) ()

/-- A failure was told of, if there was one, whatever came of that. -/
def TellsFailure (compiler : CompilerId) (result : RunResult) (deeds : List (Deed S)) : Prop :=
  match result with
  | .ok _ => deeds = []
  | .error error => ∃ ending, Fires compiler .failed (Told compiler (.failed error)) () deeds ending

/-- What the task of a run does up to `after_done`: it has the phases done, waits for their
result, tells of a failure, and hands the result on. -/
def RunHead (kind : RunKind) (compiler : CompilerId) (finish : RunResult → Deed S)
    (worker : TaskId) (result : RunResult) (deeds : List (Deed S)) : Prop :=
  ∃ before between failure middle rest,
    deeds = before ++ (.op (.spawn (phasesJob kind compiler)) worker ::
      .op (.join worker) result :: (between ++ (failure ++ (middle ++ finish result :: rest)))) ∧
    AllQuiet before ∧ AllQuiet between ∧ TellsFailure compiler result failure ∧
    AllQuiet middle ∧ AllQuiet rest

/-- What the task of a run does between its beginning and the release of the compiler.
The observers of `after_done` come last, and what becomes of them does not matter. -/
def RunShape (kind : RunKind) (compiler : CompilerId) (finish : RunResult → Deed S)
    (worker : TaskId) (result : RunResult) (deeds : List (Deed S)) : Prop :=
  ∃ head last ending, deeds = head ++ last ∧ RunHead kind compiler finish worker result head ∧
    Fires compiler .afterDone (Told compiler (.afterDone result.toOption)) () last ending

theorem RunHead.append_quiet {kind : RunKind} {compiler : CompilerId}
    {finish : RunResult → Deed S} {worker : TaskId} {result : RunResult}
    {deeds more : List (Deed S)} (head : RunHead kind compiler finish worker result deeds)
    (quiet : AllQuiet more) : RunHead kind compiler finish worker result (deeds ++ more) := by
  obtain ⟨before, between, failure, middle, rest, rfl, early, joined, told, late, last⟩ := head
  refine ⟨before, between, failure, middle, rest ++ more, ?_, early, joined, told, late,
    last.append quiet⟩
  simp only [List.append_assoc, List.cons_append]

theorem tellsFailure_of_play {compiler : CompilerId} {result : RunResult}
    {deeds : List (Deed S)} {value : Unit}
    (play : (tellFailure compiler result).Play deeds value) :
    TellsFailure compiler result deeds := by
  cases result with
  | ok compilation => exact (Prog.play_pure.mp play).1
  | error error => exact fires_of_tell play

/-- A single run, from its beginning to the release of its compiler. -/
theorem shape_of_runToEnd {compiler : CompilerId} {callback : S.Callback}
    {deeds : List (Deed S)} {value : Unit}
    (play : (runToEnd compiler callback).Play deeds value) :
    ∃ worker result middle,
      deeds = .op (.acquire compiler) () :: (middle ++ [.op (.release compiler) ()]) ∧
      RunShape .single compiler (answering callback) worker result middle := by
  obtain ⟨_, _, begun, rfl⟩ := Prog.play_perform_bind.mp play
  obtain ⟨_, _, changed, rfl⟩ := Prog.play_perform_bind.mp begun
  obtain ⟨worker, _, spawned, rfl⟩ := Prog.play_perform_bind.mp changed
  obtain ⟨result, _, joined, rfl⟩ := Prog.play_perform_bind.mp spawned
  obtain ⟨failure, _, _, tells, told, rfl⟩ := Prog.play_bind.mp joined
  obtain ⟨ended, _, shifted, rfl⟩ := Prog.play_perform_bind.mp told
  obtain ⟨_, _, answered, rfl⟩ := Prog.play_invoke_bind.mp shifted
  obtain ⟨last, _, _, fired, released, rfl⟩ := Prog.play_bind.mp answered
  obtain ⟨ending, fires⟩ := fires_of_tell fired
  rw [Prog.play_perform.mp released]
  have head : RunHead .single compiler (answering callback) worker result
      (.op (.setChanges compiler ChangeSet.empty) () :: .op (.spawn (.phases compiler)) worker ::
        .op (.join worker) result ::
        (failure ++ [.op (.shift compiler .endRun) ended, answering callback result])) := by
    refine ⟨[.op (.setChanges compiler ChangeSet.empty) ()], [], failure,
      [.op (.shift compiler .endRun) ended], [], rfl, ?_, allQuiet_nil,
      tellsFailure_of_play tells, ?_, allQuiet_nil⟩
    · exact .cons id allQuiet_nil
    · exact .cons id allQuiet_nil
  refine ⟨worker, result, _, ?_, ⟨_, last, ending, rfl, head, fires⟩⟩
  simp [answering]

/-- The changes behind a watch run are handed to its session, and the input forgets what it
has kept. -/
def prepareChanges (driver : Driver S) : Prog S Unit :=
  if !driver.pendingChanges.isEmpty then do
    Prog.invoke (.purge (← Prog.look driver.compiler).input)
    Prog.perform (.setLastChange driver.session driver.pendingChanges)
  else pure ()

/-- A watch run after its preparations. -/
def watchRest (driver : Driver S) : Prog S (Option Compilation × Driver S) := do
  Prog.perform (.setChanges driver.compiler driver.pendingChanges)
  let _ ← Prog.perform (.shift driver.compiler .beginWatchRun)
  let task ← Prog.perform (.spawn (.watchPhases driver.compiler))
  let result ← Prog.perform (.join task)
  let _ ← Prog.perform (.shift driver.compiler .endWatchRun)
  tellFailure driver.compiler result
  Prog.invoke (.handle driver.handler result)
  notifyAll driver.pendingCallbacks
  return (result.toOption, { driver with
    pendingChanges := ChangeSet.empty
    pendingCallbacks := []
    runRequested := false })

theorem watchRun_eq (driver : Driver S) :
    watchRun driver = (do
      Prog.perform (.acquire driver.compiler)
      prepareChanges driver
      watchRest driver) := by
  rw [watchRun]
  refine bind_congr fun _ => ?_
  by_cases empty : driver.pendingChanges.isEmpty = true
  · simp only [prepareChanges, empty, Bool.not_true, Bool.false_eq_true, if_false, pure_bind]
    rfl
  · rw [Bool.not_eq_true] at empty
    simp only [prepareChanges, empty, Bool.not_false, if_true, bind_assoc]
    rfl

theorem quiet_prepareChanges {driver : Driver S} : QuietProg (prepareChanges driver) := by
  rw [prepareChanges]
  split
  · refine (Prog.Within.look id).bind fun record => ?_
    exact (Prog.Within.invoke id).bind fun _ => .perform id
  · exact .pure _

/-- A watch run, from its beginning to the callbacks that waited for it. -/
theorem head_of_watchRun {driver : Driver S} {deeds : List (Deed S)}
    {value : Option Compilation × Driver S} (play : (watchRun driver).Play deeds value) :
    ∃ worker result head, deeds = .op (.acquire driver.compiler) () :: head ∧
      RunHead .watch driver.compiler (handling driver.handler) worker result head ∧
      value.1 = result.toOption ∧ value.2.compiler = driver.compiler ∧
      value.2.handler = driver.handler := by
  rw [watchRun_eq] at play
  obtain ⟨_, _, begun, rfl⟩ := Prog.play_perform_bind.mp play
  obtain ⟨early, _, _, prepared, body, rfl⟩ := Prog.play_bind.mp begun
  obtain ⟨_, _, changed, rfl⟩ := Prog.play_perform_bind.mp body
  obtain ⟨shift, _, shifted, rfl⟩ := Prog.play_perform_bind.mp changed
  obtain ⟨worker, _, spawned, rfl⟩ := Prog.play_perform_bind.mp shifted
  obtain ⟨result, _, joined, rfl⟩ := Prog.play_perform_bind.mp spawned
  obtain ⟨ended, _, left, rfl⟩ := Prog.play_perform_bind.mp joined
  obtain ⟨failure, _, _, tells, told, rfl⟩ := Prog.play_bind.mp left
  obtain ⟨_, _, handled, rfl⟩ := Prog.play_invoke_bind.mp told
  obtain ⟨callbacks, _, _, notified, returned, rfl⟩ := Prog.play_bind.mp handled
  obtain ⟨rfl, rfl⟩ := Prog.play_pure.mp returned
  refine ⟨worker, result, _, rfl, ?_, rfl, rfl, rfl⟩
  refine ⟨early ++ [.op (.setChanges driver.compiler driver.pendingChanges) (),
    .op (.shift driver.compiler .beginWatchRun) shift],
    [.op (.shift driver.compiler .endWatchRun) ended], failure, [], callbacks, ?_, ?_, ?_,
    tellsFailure_of_play tells, allQuiet_nil, allQuiet_of_play (quiet_session.within_notifyAll _) notified⟩
  · simp [phasesJob, handling]
  · exact (allQuiet_of_play quiet_prepareChanges prepared).append
      (.cons id (.cons id allQuiet_nil))
  · exact .cons id allQuiet_nil

end Bundler.Compiler
