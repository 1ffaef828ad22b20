import Bundler.Proofs.Compiler.Rights

/-!
# Rights of jobs

A job begins with rights on one compiler: a single run owns it, a worker does the phases of
a run of it, and a driver owns it for its session and has a run under way after one of its
runs. `program_obeys` says that the program of every job obeys its rights and ends with those
of the job that it goes on as, so that a task keeps to its rights for as long as it goes on.
-/

namespace Bundler.Compiler

variable {S : Setting} {rights : Rights} {compiler : CompilerId}

/-- The rights that a job begins with. -/
def jobRights : Job S → Rights
  | .run compiler _ => .only compiler { owns := some .single }
  | .phases compiler => .only compiler { works := true }
  | .watchPhases compiler => .only compiler { works := true }
  | .drive (.drainingAfter _) driver => .only driver.compiler { owns := some .watch, gate := .held }
  | .drive _ driver => .only driver.compiler { owns := some .watch }

/-- The rights of a task that goes on, or is over. -/
def nextRights : Next S → Rights
  | none => .nothing
  | some job => jobRights job

/-! ## Parts of jobs that need no rights -/

theorem tell_keeps {occasion : Occasion} (told : OfRun occasion → (rights compiler).InRun) :
    (tell compiler occasion : Prog S Unit).Keeps rights :=
  Prog.Within.keeps (within_tell trivial fun _ => told)

theorem tellInvalid_keeps (paths : List Path) :
    (tellInvalid compiler paths : Prog S Unit).Keeps rights := by
  induction paths with
  | nil => exact .done rfl
  | cons path rest ih =>
      rw [tellInvalid]
      exact (tell_keeps False.elim).bind fun _ => ih

theorem notifyAll_keeps (callbacks : List S.Callback) : (notifyAll callbacks).Keeps rights := by
  induction callbacks with
  | nil => exact .done rfl
  | cons callback rest ih =>
      rw [notifyAll]
      exact .invoke trivial fun _ => ih

theorem tellFailure_keeps (during : (rights compiler).InRun) (result : RunResult) :
    (tellFailure compiler result : Prog S Unit).Keeps rights :=
  (allowsPhases_of_inRun during).within_tellFailure.keeps

theorem prepareChanges_keeps (driver : Driver S) : (prepareChanges driver).Keeps rights := by
  rw [prepareChanges]
  split
  · refine .perform trivial fun record _ => ?_
    exact .invoke trivial fun _ => .op trivial fun _ _ => .done rfl
  · exact .done rfl

/-- A task that has a worker do the phases goes on with the run under way. -/
theorem delegates_obeys {β : Type} {ending : β → Rights} {owns : Option RunKind}
    {next : (worker : TaskId) → (Op.join worker : Op S).Reply → Prog S β} (kind : RunKind)
    (rest : ∀ worker result,
      (next worker result).Obeys ending (.only compiler { owns, gate := .held })) :
    Prog.Obeys ending (.only compiler { owns, gate := .held }) (do
      let worker ← Prog.perform (.spawn (phasesJob kind compiler))
      let result ← Prog.perform (.join worker)
      next worker result) := by
  have lent : ∀ worker : TaskId,
      Rights.after (.only compiler { owns, gate := .held })
        (.spawn (phasesJob kind compiler) : Op S) worker =
      .only compiler { owns, gate := .lent worker } := by
    intro worker
    cases kind <;> simp [phasesJob, Rights.after]
  refine .perform (by cases kind <;> simp [phasesJob, Rights.Allows]) fun worker _ => ?_
  rw [lent worker]
  refine .perform trivial fun result _ => ?_
  rw [Rights.after_join]
  exact rest worker result

/-! ## The turns of a driver -/

variable {driver : Driver S} {share : Share}

/-- A program that gives back a driver of the same compiler, with the same rights on it. -/
abbrev KeepsDriver (share : Share) (driver : Driver S) (program : Prog S (Driver S)) : Prop :=
  program.Obeys (fun other => Rights.only other.compiler share) (.only driver.compiler share)

theorem onChanges_keeps (changes : ChangeSet) :
    KeepsDriver share driver (onChanges driver changes) := by
  rw [onChanges]
  split
  · exact .done rfl
  · exact (tellInvalid_keeps _).bind fun _ => .done rfl

theorem awaitEvent_keeps : KeepsDriver share driver (awaitEvent driver) := by
  rw [awaitEvent]
  split
  · exact .done rfl
  · refine .perform trivial fun wake _ => ?_
    cases wake with
    | signal signal => exact .done (by rw [(sameSession_onSignal driver signal).1]; rfl)
    | changes changes => exact onChanges_keeps changes
    | gone => exact .done rfl

theorem resubscribe_keeps (compilation : Compilation) :
    KeepsDriver share driver (resubscribe driver compilation) := by
  rw [resubscribe]
  refine .perform trivial fun record _ => .invoke trivial fun reply => ?_
  cases reply with
  | none => exact .done rfl
  | some subscription =>
      cases driver.subscription with
      | none => exact .done rfl
      | some old => exact .invoke trivial fun _ => .done rfl

/-- A close gives the compiler away, and keeps the run that is under way. -/
theorem closeNow_obeys {gate : Gate} :
    (closeNow driver).Obeys (fun other => Rights.only other.compiler { gate })
      (.only driver.compiler { owns := some .watch, gate }) := by
  have shuts : Prog.Obeys (fun other => Rights.only other.compiler { gate })
      (.only driver.compiler { owns := some .watch, gate }) (do
        let left ← Prog.perform (.shut driver.session)
        let driver := left.foldl onSignal driver
        let _ ← Prog.perform (.shift driver.compiler .endWatch)
        tell driver.compiler .watchClose
        notifyAll driver.closeCallbacks
        notifyAll driver.pendingCallbacks
        return { driver with subscription := none, closeCallbacks := [], pendingCallbacks := [] }) := by
    refine .perform trivial fun left _ => ?_
    have same := (sameSession_foldl_onSignal left driver).1
    refine .perform (by simp [Rights.Allows, Rights.after, same]) fun _ _ => ?_
    refine (tell_keeps False.elim).bind fun _ => ?_
    refine (notifyAll_keeps _).bind fun _ => ?_
    refine (notifyAll_keeps _).bind fun _ => .done ?_
    simp [Rights.after, same]
  rw [closeNow]
  cases driver.subscription with
  | none => exact shuts
  | some subscription => exact .invoke trivial fun _ => shuts

/-- A watch run leaves the driver with the run under way. -/
theorem watchRun_obeys :
    (watchRun driver).Obeys
      (fun value => Rights.only value.2.compiler { owns := some .watch, gate := .held })
      (.only driver.compiler { owns := some .watch }) := by
  rw [watchRun_eq]
  refine .perform (by simp [Rights.Allows]) fun _ _ => ?_
  simp only [Rights.after, Rights.only_setGate]
  refine (prepareChanges_keeps driver).bind fun _ => ?_
  refine .perform trivial fun _ _ => ?_
  refine .perform (by simp [Rights.Allows, Rights.after]) fun _ _ => ?_
  simp only [Rights.after]
  refine delegates_obeys .watch fun _ result => ?_
  refine .perform (by simp [Rights.Allows]) fun _ _ => ?_
  simp only [Rights.after]
  refine (tellFailure_keeps (.inl (by simp)) result).bind fun _ => ?_
  refine .invoke trivial fun _ => ?_
  exact (notifyAll_keeps _).bind fun _ => .done rfl

theorem retire_obeys : (retire driver).Obeys nextRights .nothing :=
  .perform trivial fun _ _ => .done rfl

theorem decideNext_obeys :
    (decideNext driver).Obeys nextRights (.only driver.compiler { owns := some .watch }) := by
  rw [decideNext]
  split
  · refine closeNow_obeys.bind fun closed => ?_
    rw [Rights.only_empty]
    exact retire_obeys
  · split
    · refine watchRun_obeys.bind fun ran => ?_
      refine .perform trivial fun taken _ => .done ?_
      have same := (sameSession_foldl_onSignal taken.1 ran.2).1
      simp [Rights.after, nextRights, jobRights, same]
    · exact .done rfl

/-- The observers of `after_done` are called, and the run is over. -/
theorem afterDone_obeys {finished : Option Compilation} (closing : Bool) :
    Prog.Obeys nextRights
      (.only driver.compiler { owns := if closing then none else some .watch, gate := .held }) (do
        tell driver.compiler (.afterDone finished)
        Prog.perform (.release driver.compiler)
        if closing then retire driver else return some (.drive .waiting driver)) := by
  refine (tell_keeps fun _ => .inl (by simp)).bind fun _ => ?_
  refine .perform (by simp [Rights.Allows]) fun _ _ => ?_
  simp only [Rights.after, Rights.only_setGate]
  cases closing with
  | true =>
      simp only [if_true, Rights.only_empty]
      exact retire_obeys
  | false => exact .done rfl

theorem endRun_obeys (finished : Option Compilation) :
    (endRun finished driver).Obeys nextRights
      (.only driver.compiler { owns := some .watch, gate := .held }) := by
  simp only [endRun]
  split
  · exact closeNow_obeys.bind fun closed => afterDone_obeys true
  · cases finished with
    | none => exact afterDone_obeys false
    | some compilation =>
        exact (resubscribe_keeps compilation).bind fun _ => afterDone_obeys false

theorem drive_obeys (stage : DriverStage) :
    (drive stage driver).Obeys nextRights (jobRights (.drive stage driver)) := by
  cases stage with
  | waiting =>
      refine awaitEvent_keeps.bind fun woken => ?_
      refine .perform trivial fun taken _ => .done ?_
      have same := (sameSession_foldl_onSignal taken.1 woken).1
      simp [Rights.after, nextRights, jobRights, same]
  | draining =>
      refine .perform trivial fun taken _ => ?_
      cases taken with
      | some changes => exact (onChanges_keeps changes).bind fun _ => .done rfl
      | none => exact decideNext_obeys
  | drainingAfter finished =>
      refine .perform trivial fun taken _ => ?_
      cases taken with
      | some changes => exact (onChanges_keeps changes).bind fun _ => .done rfl
      | none => exact endRun_obeys finished

/-! ## All jobs -/

theorem runToEnd_obeys (callback : S.Callback) :
    (runToEnd compiler callback).Obeys (fun _ => .nothing)
      (.only compiler { owns := some .single }) := by
  refine .perform (by simp [Rights.Allows]) fun _ _ => ?_
  refine .perform trivial fun _ _ => ?_
  simp only [Rights.after, Rights.only_setGate]
  refine delegates_obeys .single fun _ result => ?_
  refine (tellFailure_keeps (.inl (by simp)) result).bind fun _ => ?_
  refine .perform (by simp [Rights.Allows]) fun _ _ => ?_
  refine .invoke trivial fun _ => ?_
  refine (tell_keeps fun _ => .inl (by simp [Rights.after])).bind fun _ => ?_
  exact .op (by simp [Rights.Allows, Rights.after]) fun _ _ => .done (by simp [Rights.after])

theorem reporting_obeys {phases : Phase S Compilation}
    (keeps : phases.run.Keeps (.only compiler { works := true })) :
    (reporting phases).Obeys nextRights (.only compiler { works := true }) := by
  refine keeps.bind fun result => .perform trivial fun _ _ => .done ?_
  rw [Rights.after_report]
  rfl

theorem program_obeys (job : Job S) : (program job).Obeys nextRights (jobRights job) := by
  cases job with
  | run compiler callback => exact (runToEnd_obeys callback).bind fun _ => .done rfl
  | phases compiler => exact reporting_obeys (allowsPhases_of_worker compiler).within_phases.keeps
  | watchPhases compiler =>
      exact reporting_obeys (allowsPhases_of_worker compiler).within_watchPhases.keeps
  | drive stage driver => exact drive_obeys stage

end Bundler.Compiler
