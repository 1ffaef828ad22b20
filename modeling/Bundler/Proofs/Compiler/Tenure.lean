import Bundler.Proofs.Compiler.SessionConduct
import Mathlib.Logic.Function.Basic

/-!
# Who has a compiler

The tenure of a task is the part of the state of each compiler that is there on account of the
task. It begins with an accepted `beginRun` or `beginWatch`, is handed on to the task that is
spawned for the run or the session, and ends with `endRun` or `endWatch`. `tenancy` is the
discipline that says so, and every task keeps to it (`tenancy_governs`). A task that panics
keeps what it has for good, but it cannot panic while a watch run is under way on its account.
-/

namespace Bundler

variable {S : Setting} {E : Environment S} {α β : Type}

/-- What a task has of the state of each compiler; `idle` is nothing. -/
abbrev Tenure := CompilerId → RunState

namespace Tenure

/-- The tenure of a task that has no compiler. -/
def free : Tenure := fun _ => .idle

/-- The tenure of a task that has one compiler. -/
def only (compiler : CompilerId) (state : RunState) : Tenure := Function.update free compiler state

/-- A transition fits the tenure, or begins a tenure. -/
def Allows (tenure : Tenure) : Op S → Prop
  | .shift compiler transition =>
    transition = .beginRun ∨ transition = .beginWatch ∨
      ((tenure compiler).next? transition).isSome = true
  | .spawn (.run compiler _) => tenure compiler = .running
  | .spawn (.drive _ driver) => tenure driver.compiler = .watching false
  | .createCompiler record => record.state = .idle
  | _ => True

/-- A compiler that the task has is in the state of its tenure. -/
def Expects (tenure : Tenure) : (operation : Op S) → operation.Reply → Prop
  | .shift compiler transition, accepted =>
    tenure compiler ≠ .idle → accepted = ((tenure compiler).next? transition).isSome
  | _, _ => True

def after (tenure : Tenure) : (operation : Op S) → operation.Reply → Tenure
  | .shift compiler transition, true =>
    Function.update tenure compiler ((tenure compiler).after transition)
  | .spawn (.run compiler _), _ => Function.update tenure compiler .idle
  | .spawn (.drive _ driver), _ => Function.update tenure driver.compiler .idle
  | _, _ => tenure

/-- What a job begins with. -/
def entry : Job S → Tenure
  | .run compiler _ => only compiler .running
  | .drive _ driver => only driver.compiler (.watching false)
  | _ => free

/-- No watch run is under way on account of the task. -/
def Still (tenure : Tenure) : Prop := ∀ compiler, tenure compiler ≠ .watching true

end Tenure

/-- The discipline of tenures. Code outside is called only while no watch run is under way on
account of the task: the phases of a watch run are a task of their own. -/
def tenancy (S : Setting) : Discipline S where
  Status := Tenure
  idle := Tenure.free
  entry := Tenure.entry
  fits job tenure := tenure = Tenure.entry job
  ends tenure := tenure = Tenure.free
  allows := Tenure.Allows
  expects := Tenure.Expects
  after := Tenure.after
  allowsCall tenure _ := tenure.Still
  during tenure _ := tenure
  mayPanic := Tenure.Still

namespace Tenure

variable {tenure : Tenure} {compiler : CompilerId}

/-- An operation that is open to visitors leaves all tenures alone. -/
theorem opens (tenure : Tenure) (operation : Op S) (allowed : operation.Open) :
    tenure.Allows operation ∧ ∀ reply, tenure.after operation reply = tenure := by
  cases operation with
  | createCompiler record => exact ⟨allowed.1, fun _ => rfl⟩
  | look | setParent | setInput | setOutput | setWatcher | register | newCompilation | lookCache
  | setCache | retain | lookSession | dropHandle | deliver => exact ⟨trivial, fun _ => rfl⟩
  | _ => exact allowed.elim

theorem still_free : free.Still := nofun

/-- Giving the only compiler back leaves nothing. -/
theorem only_idle (compiler : CompilerId) (state : RunState) :
    Function.update (only compiler state) compiler .idle = free := by
  rw [only, Function.update_idem]
  exact Function.update_eq_self compiler free

theorem Still.update (still : tenure.Still) {state : RunState} (other : state ≠ .watching true) :
    Tenure.Still (Function.update tenure compiler state) := by
  intro id
  by_cases same : id = compiler
  · rw [same, Function.update_self]
    exact other
  · rw [Function.update_of_ne same]
    exact still id

end Tenure

namespace Compiler

variable {tenure : Tenure} {compiler : CompilerId}

/-- A program that makes only operations which are open to visitors. -/
theorem minds_tenure {program : Prog S α} {calls : Call S → Prop} (still : tenure.Still)
    (within : program.Within Op.Open calls) : program.Minds (tenancy S) tenure :=
  .of_within within tenure.opens fun _ _ => ⟨still, rfl⟩

theorem allowsPhases_open (compiler : CompilerId) :
    AllowsPhases compiler (Op.Open (S := S)) fun _ => True where
  look := trivial
  creating := trivial
  retaining _ := trivial
  observing _ _ _ := trivial
  adjusting _ _ _ := trivial
  deciding _ _ := trivial
  building _ _ := trivial
  making _ _ := trivial
  writing _ _ _ := trivial

/-- An operation that leads to another tenure. -/
theorem tenure_move {operation : Op S} {next : operation.Reply → Prog S β}
    {ending : β → Tenure → Prop} (left : operation.Reply → Tenure)
    (allowed : tenure.Allows operation) (moved : ∀ reply, tenure.after operation reply = left reply)
    (rest : ∀ reply, tenure.Expects operation reply →
      (next reply).Heeds (tenancy S) ending (left reply)) :
    (Prog.perform operation >>= next).Heeds (tenancy S) ending tenure := by
  refine .perform allowed fun reply expected => ?_
  rw [show (tenancy S).after tenure operation reply = left reply from moved reply]
  exact rest reply expected

/-- An operation that leaves the tenure alone. -/
theorem tenure_stay {operation : Op S} {next : operation.Reply → Prog S β}
    {ending : β → Tenure → Prop} (allowed : tenure.Allows operation)
    (kept : ∀ reply, tenure.after operation reply = tenure)
    (rest : ∀ reply, (next reply).Heeds (tenancy S) ending tenure) :
    (Prog.perform operation >>= next).Heeds (tenancy S) ending tenure :=
  tenure_move (fun _ => tenure) allowed kept fun reply _ => rest reply

/-- Telling of an occasion. -/
theorem tell_tenure (still : tenure.Still) (occasion : Occasion) :
    (tell compiler occasion : Prog S Unit).Minds (tenancy S) tenure := by
  have told : (tell compiler occasion : Prog S Unit).Within Op.Open fun _ => True :=
    within_tell trivial fun _ => trivial
  exact minds_tenure still told

theorem tellFailure_tenure (still : tenure.Still) (result : RunResult) :
    (tellFailure compiler result : Prog S Unit).Minds (tenancy S) tenure := by
  cases result with
  | ok value => exact .done rfl
  | error error => exact tell_tenure still _

/-! ## What visitors do -/

section Visitors

/-- A run begins only on a compiler that the task does not have. -/
theorem eq_idle_of_begun {transition : Transition}
    (begins : transition = .beginRun ∨ transition = .beginWatch)
    (expected : tenure.Expects (.shift compiler transition : Op S) true) :
    tenure compiler = .idle := by
  by_contra taken
  exact taken ((RunState.begin_iff_idle _ transition begins).1 (expected taken).symm)

theorem run_tenure (still : tenure.Still) (callback : S.Callback) :
    (run compiler callback).Minds (tenancy S) tenure := by
  refine .perform (.inl rfl) fun accepted expected => ?_
  cases accepted with
  | false => exact .call still fun _ => .done rfl
  | true =>
    have unheld : tenure compiler = .idle := eq_idle_of_begun (.inl rfl) expected
    refine .perform ?_ fun task _ => .done ?_
    · change Function.update tenure compiler _ compiler = _
      rw [Function.update_self, unheld]
      rfl
    · change Function.update (Function.update tenure compiler _) compiler _ = _
      rw [Function.update_idem, ← unheld, Function.update_eq_self]

/-- A task that starts a session hands its tenure on to the driver. -/
theorem watch_tenure (options : WatchOptions) (handler : S.Handler) :
    (watch compiler options handler).Minds (tenancy S) tenure := by
  refine .perform (.inr (.inl rfl)) fun accepted expected => ?_
  cases accepted with
  | false => exact .done rfl
  | true =>
    have unheld : tenure compiler = .idle := eq_idle_of_begun (.inr rfl) expected
    refine .perform trivial fun session _ => .perform ?_ fun task _ => .done ?_
    · change Function.update tenure compiler _ compiler = _
      rw [Function.update_self, unheld]
      rfl
    · change Function.update (Function.update tenure compiler _) compiler _ = _
      rw [Function.update_idem, ← unheld, Function.update_eq_self]

/-- A transition of a compiler that the task has is accepted, if it fits the tenure. -/
theorem tenure_shift {transition : Transition} {state left : RunState} {next : Bool → Prog S β}
    {ending : β → Tenure → Prop} (held : tenure compiler = state) (busy : state ≠ .idle)
    (fits : state.next? transition = some left)
    (rest : (next true).Heeds (tenancy S) ending (Function.update tenure compiler left)) :
    (Prog.perform (.shift compiler transition) >>= next).Heeds (tenancy S) ending tenure := by
  refine .perform (.inr (.inr ?_)) fun accepted expected => ?_
  · rw [held, fits]
    rfl
  · have answer := expected (by rwa [held])
    rw [held, fits] at answer
    obtain rfl : accepted = true := answer
    change (next true).Heeds (tenancy S) ending (Function.update tenure compiler _)
    rwa [held, RunState.after, fits, Option.getD_some]

theorem runAsChild_tenure (still : tenure.Still) :
    (runAsChild compiler : Prog S RunResult).Minds (tenancy S) tenure := by
  refine .perform (.inl rfl) fun accepted expected => ?_
  cases accepted with
  | false => exact .done rfl
  | true =>
    have unheld : tenure compiler = .idle := eq_idle_of_begun (.inl rfl) expected
    have begun : tenure.after (.shift compiler .beginRun : Op S) true =
        Function.update tenure compiler .running := by
      change Function.update tenure compiler _ = _
      rw [unheld]
      rfl
    rw [show (tenancy S).after tenure (.shift compiler .beginRun) true = _ from begun]
    have working : Tenure.Still (Function.update tenure compiler .running) := still.update nofun
    refine tenure_stay trivial (fun _ => rfl) fun _ => ?_
    refine .after_minds (minds_tenure working (allowsPhases_open compiler).within_compile)
      fun result => ?_
    refine .after_minds (tellFailure_tenure working result) fun _ => ?_
    refine tenure_shift (Function.update_self ..) nofun rfl ?_
    rw [Function.update_idem, ← unheld, Function.update_eq_self]
    exact .perform trivial fun _ _ => .done rfl

theorem send_tenure (still : tenure.Still) (session : SessionId) (signal : Signal S) :
    (do if !(← Prog.perform (.send session signal)) then
          Prog.invoke (.notify signal.callback) : Prog S Unit).Minds (tenancy S) tenure := by
  refine .perform trivial fun accepted _ => ?_
  cases accepted with
  | true => exact .done rfl
  | false => exact .call still fun _ => .done rfl

theorem invalidate_tenure (still : tenure.Still) (session : SessionId) (callback : S.Callback) :
    (invalidate session callback).Minds (tenancy S) tenure := by
  rw [invalidate]
  refine .perform trivial fun seen _ => ?_
  have sends := send_tenure still session (.invalidate callback)
  dsimp only
  split
  · exact .after_minds (tell_tenure still _) fun _ => sends
  · exact sends

end Visitors

/-- Visitors leave the tenure of their task as they find it. -/
theorem visitor_tenure {program : Prog S α} {panics : Prop} (visitor : program.Visitor panics)
    (still : tenure.Still) : program.Minds (tenancy S) tenure := by
  induction visitor with
  | done value => exact .done rfl
  | op allowed _ ih =>
    obtain ⟨permitted, kept⟩ := tenure.opens _ allowed
    exact tenure_stay permitted kept ih
  | call _ _ ih => exact .call still ih
  | request _ ih => exact .request ih
  | run _ ih => exact .after_minds (run_tenure still _) ih
  | watch _ ih => exact .after_minds (watch_tenure _ _) ih
  | runAsChild _ ih => exact .after_minds (runAsChild_tenure still) ih
  | invalidate _ ih => exact .after_minds (invalidate_tenure still _ _) ih
  | close _ ih => exact .after_minds (send_tenure still _ (.close _)) ih
  | panic => exact .panic still

/-! ## The programs of jobs -/

section Jobs

variable {driver : Driver S}

/-- A single run gives its tenure back before its callback is called. -/
theorem runToEnd_tenure (callback : S.Callback) :
    (runToEnd compiler callback).Heeds (tenancy S) (fun _ left => left = Tenure.free)
      (Tenure.only compiler .running) := by
  have working : Tenure.Still (Tenure.only compiler .running) := Tenure.still_free.update nofun
  refine tenure_stay trivial (fun _ => rfl) fun _ => ?_
  refine tenure_stay trivial (fun _ => rfl) fun _ => ?_
  refine tenure_stay trivial (fun _ => rfl) fun _ => ?_
  refine tenure_stay trivial (fun _ => rfl) fun result => ?_
  refine .after_minds (tellFailure_tenure working result) fun _ => ?_
  refine tenure_shift (Function.update_self ..) nofun rfl ?_
  rw [Tenure.only_idle]
  refine .invoke Tenure.still_free fun _ => ?_
  refine .after_minds (tell_tenure Tenure.still_free _) fun _ => ?_
  exact tenure_stay trivial (fun _ => rfl) fun _ => .done rfl

theorem reporting_tenure {phases : Phase S Compilation}
    (minds : phases.run.Minds (tenancy S) Tenure.free) :
    (reporting phases).Heeds (tenancy S) (tenancy S).goesOn Tenure.free :=
  .after_minds minds fun _ => tenure_stay trivial (fun _ => rfl) fun _ => .done rfl

/-- The tenure of a driver while no run of its session is under way. -/
def watching (compiler : CompilerId) : Tenure := Tenure.only compiler (.watching false)

theorem still_watching (compiler : CompilerId) : (watching compiler).Still :=
  Tenure.still_free.update nofun

theorem tellInvalid_tenure (still : tenure.Still) :
    ∀ paths : List Path, (tellInvalid compiler paths : Prog S Unit).Minds (tenancy S) tenure
  | [] => .done rfl
  | _ :: rest =>
    .after_minds (tell_tenure still _) fun _ => tellInvalid_tenure still rest

theorem notifyAll_tenure (still : tenure.Still) :
    ∀ callbacks : List S.Callback, (notifyAll callbacks).Minds (tenancy S) tenure
  | [] => .done rfl
  | _ :: rest => .call still fun _ => notifyAll_tenure still rest

/-- What a part of a driver's turn keeps: the compiler and the tenure. -/
abbrev KeepsTenure (tenure : Tenure) (driver : Driver S) (program : Prog S (Driver S)) : Prop :=
  program.Heeds (tenancy S)
    (fun later left => later.compiler = driver.compiler ∧ left = tenure) tenure

theorem onChanges_tenure (still : tenure.Still) (changes : ChangeSet) :
    KeepsTenure tenure driver (onChanges driver changes) := by
  rw [onChanges]
  split
  · exact .done ⟨rfl, rfl⟩
  · exact .after_minds (tellInvalid_tenure still _) fun _ => .done ⟨rfl, rfl⟩

theorem awaitEvent_tenure (still : tenure.Still) : KeepsTenure tenure driver (awaitEvent driver) := by
  rw [awaitEvent]
  split
  · exact .done ⟨rfl, rfl⟩
  · refine tenure_stay trivial (fun _ => rfl) fun wake => ?_
    cases wake with
    | signal signal => exact .done ⟨(sameSession_onSignal driver signal).1, rfl⟩
    | changes changes => exact onChanges_tenure still changes
    | gone => exact .done ⟨rfl, rfl⟩

theorem resubscribe_tenure (still : tenure.Still) (compilation : Compilation) :
    KeepsTenure tenure driver (resubscribe driver compilation) := by
  rw [resubscribe]
  refine tenure_stay trivial (fun _ => rfl) fun record => .call still fun reply => ?_
  cases reply with
  | none => exact .done ⟨rfl, rfl⟩
  | some subscription =>
    cases driver.subscription with
    | none => exact .done ⟨rfl, rfl⟩
    | some old => exact .call still fun _ => .done ⟨rfl, rfl⟩

/-- The close sequence gives the tenure of the driver back before `watch_close` is told. -/
theorem closeNow_tenure :
    (closeNow driver).Heeds (tenancy S)
      (fun later left => later.compiler = driver.compiler ∧ left = Tenure.free)
      (watching driver.compiler) := by
  have shuts : (do
      let left ← Prog.perform (.shut driver.session)
      let driver := left.foldl onSignal driver
      let _ ← Prog.perform (.shift driver.compiler .endWatch)
      tell driver.compiler .watchClose
      notifyAll driver.closeCallbacks
      notifyAll driver.pendingCallbacks
      return { driver with subscription := none, closeCallbacks := [], pendingCallbacks := [] } :
        Prog S (Driver S)).Heeds (tenancy S)
      (fun later left => later.compiler = driver.compiler ∧ left = Tenure.free)
      (watching driver.compiler) := by
    refine tenure_stay trivial (fun _ => rfl) fun left => ?_
    dsimp only
    rw [(sameSession_foldl_onSignal left driver).1]
    refine tenure_shift (Function.update_self ..) nofun rfl ?_
    rw [watching, Tenure.only_idle]
    refine .after_minds (tell_tenure Tenure.still_free _) fun _ => ?_
    refine .after_minds (notifyAll_tenure Tenure.still_free _) fun _ => ?_
    refine .after_minds (notifyAll_tenure Tenure.still_free _) fun _ => ?_
    exact .done ⟨rfl, rfl⟩
  rw [closeNow]
  cases driver.subscription with
  | none => exact shuts
  | some subscription => exact .call (still_watching _) fun _ => shuts

theorem prepareChanges_tenure (still : tenure.Still) :
    (prepareChanges driver).Minds (tenancy S) tenure := by
  rw [prepareChanges]
  split
  · refine tenure_stay trivial (fun _ => rfl) fun record => ?_
    exact .call still fun _ => tenure_stay trivial (fun _ => rfl) fun _ => .done rfl
  · exact .done rfl

/-- A watch run is under way from its beginning to the end of its phases, and no code outside
is called by the driver meanwhile. -/
theorem watchRun_tenure :
    (watchRun driver).Heeds (tenancy S)
      (fun value left => value.2.compiler = driver.compiler ∧ left = watching driver.compiler)
      (watching driver.compiler) := by
  have still := still_watching driver.compiler
  rw [watchRun_eq]
  refine tenure_stay trivial (fun _ => rfl) fun _ => ?_
  refine .after_minds (prepareChanges_tenure still) fun _ => ?_
  rw [watchRest]
  refine tenure_stay trivial (fun _ => rfl) fun _ => ?_
  refine tenure_shift (Function.update_self ..) nofun rfl ?_
  rw [watching, Tenure.only, Function.update_idem]
  refine tenure_stay trivial (fun _ => rfl) fun worker => ?_
  refine tenure_stay trivial (fun _ => rfl) fun result => ?_
  refine tenure_shift (Function.update_self ..) nofun rfl ?_
  rw [Function.update_idem]
  refine .after_minds (tellFailure_tenure still result) fun _ => ?_
  refine .invoke still fun _ => ?_
  refine .after_minds (notifyAll_tenure still _) fun _ => ?_
  exact .done ⟨rfl, rfl⟩

theorem retire_tenure :
    (retire driver).Heeds (tenancy S) (tenancy S).goesOn Tenure.free :=
  tenure_stay trivial (fun _ => rfl) fun _ => .done rfl

theorem drains_tenure (signals : List (Signal S)) (gone : Bool) (stage : DriverStage) :
    (tenancy S).goesOn (some (.drive stage { signals.foldl onSignal driver with
      closing := (signals.foldl onSignal driver).closing || gone })) (watching driver.compiler) :=
  congrArg watching (sameSession_foldl_onSignal signals driver).1.symm

theorem decideNext_tenure :
    (decideNext driver).Heeds (tenancy S) (tenancy S).goesOn (watching driver.compiler) := by
  rw [decideNext]
  split
  · refine closeNow_tenure.bind ?_
    rintro later _ ⟨-, rfl⟩
    exact retire_tenure
  · split
    · refine watchRun_tenure.bind ?_
      rintro ⟨finished, later⟩ _ ⟨compiler, rfl⟩
      refine tenure_stay trivial (fun _ => rfl) fun taken => .done ?_
      rw [← compiler]
      exact drains_tenure taken.1 taken.2 _
    · exact .done rfl

theorem endRun_tenure (finished : Option Compilation) :
    (endRun finished driver).Heeds (tenancy S) (tenancy S).goesOn (watching driver.compiler) := by
  have still := still_watching driver.compiler
  by_cases closing : driver.closing = true
  · simp only [endRun, closing, if_true]
    refine closeNow_tenure.bind ?_
    rintro later _ ⟨-, rfl⟩
    refine .after_minds (tell_tenure Tenure.still_free _) fun _ => ?_
    exact tenure_stay trivial (fun _ => rfl) fun _ => retire_tenure
  · rw [Bool.not_eq_true] at closing
    have ends : ∀ later : Driver S, later.compiler = driver.compiler →
        Prog.Heeds (tenancy S) (tenancy S).goesOn (watching driver.compiler) (do
          tell later.compiler (.afterDone finished)
          Prog.perform (.release later.compiler)
          return some (.drive .waiting later)) := by
      intro later compiler
      refine .after_minds (tell_tenure still _) fun _ => ?_
      refine tenure_stay trivial (fun _ => rfl) fun _ => .done ?_
      rw [← compiler]
      rfl
    simp only [endRun, closing, Bool.false_eq_true, if_false]
    cases finished with
    | none => exact ends driver rfl
    | some compilation =>
      refine (resubscribe_tenure still compilation).bind ?_
      rintro later _ ⟨compiler, rfl⟩
      exact ends later compiler

theorem drive_tenure (stage : DriverStage) :
    (drive stage driver).Heeds (tenancy S) (tenancy S).goesOn (watching driver.compiler) := by
  have still := still_watching driver.compiler
  cases stage with
  | waiting =>
    refine (awaitEvent_tenure still).bind ?_
    rintro later _ ⟨compiler, rfl⟩
    refine tenure_stay trivial (fun _ => rfl) fun taken => .done ?_
    rw [← compiler]
    exact drains_tenure taken.1 taken.2 _
  | draining =>
    refine tenure_stay trivial (fun _ => rfl) fun reply => ?_
    cases reply with
    | none => exact decideNext_tenure
    | some changes =>
      refine (onChanges_tenure still changes).bind ?_
      rintro later _ ⟨compiler, rfl⟩
      exact .done (congrArg watching compiler.symm)
  | drainingAfter finished =>
    refine tenure_stay trivial (fun _ => rfl) fun reply => ?_
    cases reply with
    | none => exact endRun_tenure finished
    | some changes =>
      refine (onChanges_tenure still changes).bind ?_
      rintro later _ ⟨compiler, rfl⟩
      exact .done (congrArg watching compiler.symm)

end Jobs

end Compiler

/-- Every task keeps to its tenure, whatever the visitors do. -/
theorem tenancy_governs {panics : Prop} (hosts : E.Hosts panics) : (tenancy S).Governs E where
  code outside _ still := Compiler.visitor_tenure (hosts outside) still
  jobs job tenure fits := by
    obtain rfl : tenure = Tenure.entry job := fits
    cases job with
    | run compiler callback =>
      exact (Compiler.runToEnd_tenure callback).bind fun _ _ ends => .done ends
    | phases compiler =>
      exact Compiler.reporting_tenure (Compiler.minds_tenure Tenure.still_free
        (Compiler.allowsPhases_open compiler).within_phases)
    | watchPhases compiler =>
      exact Compiler.reporting_tenure (Compiler.minds_tenure Tenure.still_free
        (Compiler.allowsPhases_open compiler).within_watchPhases)
    | drive stage driver => exact Compiler.drive_tenure stage
  spawns _ _ _ := rfl

end Bundler
