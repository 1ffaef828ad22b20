import Bundler.Proofs.Compiler.Play

/-!
# What programs may do

`Prog.Within` says that a program makes only some operations and only some calls, that
it asks nothing else of the code outside, and that it does not panic. Such a program
can always be played to its end, whatever answers it gets. The functions of this file
go through the programs of compilers, and say for each what it needs.
-/

namespace Bundler

variable {S : Setting} {α β : Type} {ops : Op S → Prop} {calls : Call S → Prop}

/-- A program makes only these operations and calls, no requests, and never panics. -/
inductive Prog.Within (ops : Op S → Prop) (calls : Call S → Prop) : Prog S α → Prop where
  | done (value : α) : Within ops calls (.done value)
  | op {operation : Op S} {next : operation.Reply → Prog S α} (allowed : ops operation)
      (rest : ∀ reply, Within ops calls (next reply)) : Within ops calls (.op operation next)
  | call {outside : Call S} {next : outside.Reply → Prog S α} (allowed : calls outside)
      (rest : ∀ reply, Within ops calls (next reply)) : Within ops calls (.call outside next)

/-- A deed that makes one of these operations or calls. -/
def Deed.Within (ops : Op S → Prop) (calls : Call S → Prop) : Deed S → Prop
  | .op operation _ => ops operation
  | .call outside _ => calls outside
  | .request _ _ => False

namespace Prog

/-- Every operation can be answered. -/
theorem nonempty_reply (operation : Op S) : Nonempty operation.Reply := by
  cases operation with
  | look => exact ⟨{ options := Options.forContext (.of "") }⟩
  | lookSession => exact ⟨{ compiler := 0 }⟩
  | join => exact ⟨.error .panicked⟩
  | await => exact ⟨.gone⟩
  | _ => exact ⟨default⟩

/-- Every call can be answered. -/
theorem nonempty_answer (outside : Call S) : Nonempty outside.Reply := by
  cases outside with
  | adjust => exact ⟨(.ok (), default)⟩
  | build => exact ⟨(.ok (), default)⟩
  | observe => exact ⟨.ok ()⟩
  | decide => exact ⟨.ok none⟩
  | read => exact ⟨.error .notText⟩
  | mkdir => exact ⟨.ok ()⟩
  | write => exact ⟨.ok ()⟩
  | _ => exact ⟨default⟩

namespace Within

variable {program : Prog S α} {deeds : List (Deed S)}

theorem bind {next : α → Prog S β} (first : Within ops calls program)
    (rest : ∀ value, Within ops calls (next value)) :
    Within ops calls (program >>= next) := by
  change Within ops calls (program.bind next)
  induction first with
  | done value => exact rest value
  | op allowed _ ih => exact .op allowed ih
  | call allowed _ ih => exact .call allowed ih

theorem pure (value : α) : Within ops calls (Pure.pure value : Prog S α) := .done value

theorem perform {operation : Op S} (allowed : ops operation) :
    Within ops calls (Prog.perform operation) := .op allowed .done

theorem look {compiler : CompilerId} (allowed : ops (.look compiler)) :
    Within ops calls (Prog.look compiler) := perform allowed

theorem invoke {outside : Call S} (allowed : calls outside) :
    Within ops calls (Prog.invoke outside) := .call allowed .done

theorem phase {first : Phase S α} {next : α → Phase S β} (before : Within ops calls first.run)
    (after : ∀ value, Within ops calls (next value).run) :
    Within ops calls (first >>= next).run := by
  rw [ExceptT.run_bind]
  refine before.bind fun value => ?_
  cases value with
  | error error => exact .pure _
  | ok value => exact after value

theorem lift {step : Prog S α} (steps : Within ops calls step) :
    Within ops calls (liftM step : Phase S α).run := by
  change Within ops calls (step >>= fun value => Pure.pure (Except.ok value))
  exact steps.bind fun _ => .pure _

theorem mono {moreOps : Op S → Prop} {moreCalls : Call S → Prop}
    (within : Within ops calls program) (included : ∀ operation, ops operation → moreOps operation)
    (calling : ∀ outside, calls outside → moreCalls outside) :
    Within moreOps moreCalls program := by
  induction within with
  | done value => exact .done value
  | op allowed _ ih => exact .op (included _ allowed) ih
  | call allowed _ ih => exact .call (calling _ allowed) ih

theorem path {left : Prog S α} (within : Within ops calls program)
    (path : Path program deeds left) :
    Within ops calls left ∧ ∀ deed ∈ deeds, deed.Within ops calls := by
  induction path with
  | start program => exact ⟨within, by simp⟩
  | op path ih =>
      cases within with
      | op allowed rest =>
          obtain ⟨left, deeds⟩ := ih (rest _)
          refine ⟨left, fun deed member => ?_⟩
          rcases List.mem_cons.mp member with rfl | member
          · exact allowed
          · exact deeds deed member
  | call path ih =>
      cases within with
      | call allowed rest =>
          obtain ⟨left, deeds⟩ := ih (rest _)
          refine ⟨left, fun deed member => ?_⟩
          rcases List.mem_cons.mp member with rfl | member
          · exact allowed
          · exact deeds deed member
  | request path ih => cases within

theorem play {value : α} (within : Within ops calls program) (play : Play program deeds value) :
    ∀ deed ∈ deeds, deed.Within ops calls :=
  (within.path play.path).2

/-- A program that asks nothing of the code outside but calls comes to an end. -/
theorem exists_play (within : Within ops calls program) :
    ∃ deeds value, Play program deeds value := by
  induction within with
  | done value => exact ⟨[], value, .done value⟩
  | op _ _ ih =>
      obtain ⟨reply⟩ := nonempty_reply _
      obtain ⟨deeds, value, play⟩ := ih reply
      exact ⟨_, value, .op play⟩
  | call _ _ ih =>
      obtain ⟨reply⟩ := nonempty_answer _
      obtain ⟨deeds, value, play⟩ := ih reply
      exact ⟨_, value, .call play⟩

end Within

end Prog

/-! ## The programs of compilers -/

namespace Compiler

variable {compiler : CompilerId}

theorem within_observeAll {occasion : Occasion} {hook : String}
    (observing : ∀ observer, calls (.observe compiler observer occasion)) :
    ∀ taps : List (Tap (Watcher S)),
      (Hook.observeAll hook (observeOne compiler occasion) taps).Within ops calls
  | [] => .pure _
  | tap :: rest => by
    rw [Hook.observeAll]
    refine .bind ?_ fun reply => ?_
    · cases tap.observer with
      | outside observer => exact .invoke (observing observer)
      | noEmitOnErrors => exact .pure _
    · cases reply with
      | ok value => exact within_observeAll observing rest
      | error reason => exact .pure _

/-- An occasion needs a look at the compiler, and its observers. -/
theorem within_observe {occasion : Occasion} (look : ops (.look compiler))
    (observing : ∀ observer, calls (.observe compiler observer occasion)) :
    (observe compiler occasion : Prog S _).Within ops calls :=
  (Prog.Within.look look).bind fun _ => within_observeAll observing _

theorem within_tell {occasion : Occasion} (look : ops (.look compiler))
    (observing : ∀ observer, calls (.observe compiler observer occasion)) :
    (tell compiler occasion : Prog S Unit).Within ops calls :=
  (within_observe look observing).bind fun _ => .pure _

theorem within_adjustAll {adjustment : Adjustment} {hook : String}
    (adjusting : ∀ observer compilation,
      calls (.adjust compiler observer adjustment compilation)) :
    ∀ (taps : List (Tap (Watcher S))) (compilation : Compilation),
      (Hook.adjustAll hook (adjustOne compiler adjustment) taps compilation).Within ops calls
  | [], _ => .pure _
  | tap :: rest, compilation => by
    rw [Hook.adjustAll]
    refine .bind ?_ fun reply => ?_
    · cases tap.observer with
      | outside observer => exact .invoke (adjusting observer compilation)
      | noEmitOnErrors => exact .pure _
    · obtain ⟨answer, value⟩ := reply
      cases answer with
      | ok _ => exact within_adjustAll adjusting rest value
      | error reason => exact .pure _

theorem within_adjust {adjustment : Adjustment} {compilation : Compilation}
    (look : ops (.look compiler))
    (adjusting : ∀ observer compilation,
      calls (.adjust compiler observer adjustment compilation)) :
    (adjust compiler adjustment compilation : Prog S _).Within ops calls :=
  (Prog.Within.look look).bind fun _ => within_adjustAll adjusting _ _

theorem within_decideAll {compilation : Compilation} {hook : String}
    (deciding : ∀ observer, calls (.decide compiler observer compilation)) :
    ∀ taps : List (Tap (Watcher S)),
      (Hook.decideAll hook (decideOne compiler compilation) taps).Within ops calls
  | [] => .pure _
  | tap :: rest => by
    rw [Hook.decideAll]
    refine .bind ?_ fun reply => ?_
    · cases tap.observer with
      | outside observer => exact .invoke (deciding observer)
      | noEmitOnErrors => exact .pure _
    · match reply with
      | .ok none => exact within_decideAll deciding rest
      | .ok (some decision) => exact .pure _
      | .error reason => exact .pure _

theorem within_wantsOutput {compilation : Compilation} (look : ops (.look compiler))
    (deciding : ∀ observer, calls (.decide compiler observer compilation)) :
    (wantsOutput compiler compilation : Prog S _).Within ops calls :=
  (Prog.Within.look look).bind fun _ => (within_decideAll deciding _).bind fun _ => .pure _

theorem within_proceed {step : Prog S (Except RunError Unit × α)}
    (steps : step.Within ops calls) : (proceed step).run.Within ops calls := by
  refine (Prog.Within.lift steps).phase fun reply => ?_
  obtain ⟨answer, value⟩ := reply
  cases answer <;> exact .pure _

theorem within_mkdirp {output : StorageId} (making : ∀ path, calls (.mkdir output path)) :
    ∀ (count : Nat) (path : Path),
      (mkdirp (fun path => (Prog.invoke (.mkdir output path) : Prog S _)) count path).Within
        ops calls
  | 0, path => (Prog.Within.invoke (making path)).bind fun _ => .pure _
  | count + 1, path => by
    rw [mkdirp]
    refine (Prog.Within.invoke (making path)).bind fun attempt => ?_
    cases missingAbove? path attempt with
    | none => exact .pure _
    | some parent =>
        refine (within_mkdirp making count parent).bind fun reply => ?_
        cases reply with
        | error fault => exact .pure _
        | ok value => exact (Prog.Within.invoke (making path)).bind fun _ => .pure _

theorem within_emitOne {output : StorageId} {base : Path} {name : String} {content : ByteArray}
    (making : ∀ path, calls (.mkdir output path))
    (writing : ∀ path content, calls (.write output path content)) :
    ((emitter compiler output).emitOne base name content : Prog S _).Within ops calls := by
  have prepared : ∀ path, ((emitter compiler output).prepare path : Prog S _).Within ops calls :=
    fun path => (within_mkdirp making _ path).bind fun _ => .pure _
  have written : ∀ target, ((emitter compiler output).write target content >>=
      fun reply => pure (Emitter.failingAt target reply) : Prog S _).Within ops calls :=
    fun _ => (Prog.Within.invoke (writing _ _)).bind fun _ => .pure _
  rw [Emitter.emitOne]
  split
  · split
    · exact (Prog.Within.pure _).bind (Except.rec (fun _ => .pure _) fun _ => written _)
    · exact (prepared _).bind (Except.rec (fun _ => .pure _) fun _ => written _)
  · exact (Prog.Within.pure _).bind (Except.rec (fun _ => .pure _) fun _ => written _)

/-- An occasion that a run tells of. The others are told by sessions. -/
def OfRun : Occasion → Prop
  | .invalid _ => False
  | .watchClose => False
  | _ => True

/-- What the phases of a run need. -/
structure AllowsPhases (compiler : CompilerId) (ops : Op S → Prop) (calls : Call S → Prop) :
    Prop where
  look : ops (.look compiler)
  creating : ops (.newCompilation compiler)
  retaining : ∀ modules, ops (.retain modules)
  observing : ∀ observer occasion, OfRun occasion → calls (.observe compiler observer occasion)
  adjusting : ∀ observer adjustment compilation,
    calls (.adjust compiler observer adjustment compilation)
  deciding : ∀ observer compilation, calls (.decide compiler observer compilation)
  building : ∀ input compilation, calls (.build compiler input compilation)
  making : ∀ output path, calls (.mkdir output path)
  writing : ∀ output path content, calls (.write output path content)

namespace AllowsPhases

variable (allows : AllowsPhases compiler ops calls)
include allows

theorem within_tells {occasion : Occasion} (told : OfRun occasion) :
    (observe compiler occasion : Prog S _).Within ops calls :=
  within_observe allows.look fun observer => allows.observing observer occasion told

theorem within_adjusts {adjustment : Adjustment} {compilation : Compilation} :
    (proceed (adjust compiler adjustment compilation) : Phase S _).run.Within ops calls :=
  within_proceed (within_adjust allows.look fun observer => allows.adjusting observer adjustment)

theorem within_emitNamed {output : StorageId} {base : Path} :
    ∀ (names : List String) (compilation : Compilation),
      ((emitter compiler output).emitNamed base names compilation : Prog S _).Within ops calls
  | [], _ => .pure _
  | name :: names, compilation => by
    rw [Emitter.emitNamed]
    cases compilation.assets.get? name with
    | none => exact within_emitNamed names compilation
    | some asset =>
        refine (within_emitOne (allows.making output) (allows.writing output)).bind
          fun reply => ?_
        cases reply with
        | error error => exact .pure _
        | ok value =>
            refine Prog.Within.bind (allows.within_tells trivial) fun reply => ?_
            cases reply with
            | error error => exact .pure _
            | ok value => exact within_emitNamed names _

theorem within_emitAll {output : StorageId} {base : Path} {compilation : Compilation} :
    ((emitter compiler output).emitAll base compilation : Prog S _).Within ops calls := by
  refine Prog.Within.bind ?_ fun reply => ?_
  · exact (within_mkdirp (allows.making output) _ base).bind fun _ => .pure _
  · cases reply with
    | error error => exact .pure _
    | ok value => exact allows.within_emitNamed _ _

theorem within_compile : (compile compiler : Phase S _).run.Within ops calls := by
  refine .phase (.lift (.perform allows.creating)) fun _ => ?_
  refine .phase allows.within_adjusts fun _ => ?_
  refine .phase allows.within_adjusts fun compilation => ?_
  refine .phase (.lift (.look allows.look)) fun record => ?_
  refine .phase (within_proceed (.invoke (allows.building _ _))) fun built => ?_
  refine .phase (.lift (.look allows.look)) fun later => ?_
  have ends : (do
      ExceptT.mk (observe compiler (.afterCompile built))
      return built : Phase S Compilation).run.Within ops calls :=
    .phase (allows.within_tells trivial) fun _ => .pure _
  split
  · exact .phase (.lift (.perform (allows.retaining _))) fun _ => ends
  · exact ends

theorem within_emit {compilation : Compilation} :
    (emit compiler compilation : Phase S _).run.Within ops calls := by
  refine .phase allows.within_adjusts fun _ => ?_
  refine .phase (.lift (.look allows.look)) fun _ => ?_
  refine .phase (within_proceed allows.within_emitAll) fun _ => ?_
  exact .phase (allows.within_tells trivial) fun _ => .pure _

theorem within_conclude {compilation : Compilation} :
    (conclude compiler compilation : Phase S _).run.Within ops calls := by
  rw [conclude]
  cases bailError? compilation with
  | some error => exact .pure _
  | none =>
      refine .phase (within_wantsOutput allows.look (allows.deciding · compilation))
        fun wanted => ?_
      have ends : ∀ finished, (do
          ExceptT.mk (observe compiler (.done finished))
          return finished : Phase S Compilation).run.Within ops calls :=
        fun finished => .phase (allows.within_tells trivial) fun _ => .pure _
      cases wanted with
      | false => exact .phase (.pure _) ends
      | true => exact .phase allows.within_emit ends

theorem within_phases : (phases compiler : Phase S _).run.Within ops calls :=
  .phase (allows.within_tells trivial) fun _ => .phase (allows.within_tells trivial) fun _ =>
    .phase allows.within_compile fun _ => allows.within_conclude

theorem within_watchPhases : (watchPhases compiler : Phase S _).run.Within ops calls :=
  .phase (allows.within_tells trivial) fun _ =>
    .phase allows.within_compile fun _ => allows.within_conclude

theorem within_tellFailure {result : RunResult} :
    (tellFailure compiler result : Prog S Unit).Within ops calls := by
  cases result with
  | ok value => exact .pure _
  | error error =>
      have told : OfRun (.failed error) := trivial
      exact (allows.within_tells told).bind fun _ => .pure _

end AllowsPhases

/-- What a driver needs when no run of its own is under way. -/
structure AllowsSession (ops : Op S → Prop) (calls : Call S → Prop) : Prop where
  look : ∀ compiler, ops (.look compiler)
  awaiting : ∀ session, ops (.await session)
  shutting : ∀ session, ops (.shut session)
  leaving : ∀ compiler, ops (.shift compiler .endWatch)
  telling : ∀ compiler observer occasion, ¬ OfRun occasion →
    calls (.observe compiler observer occasion)
  notifying : ∀ callback, calls (.notify callback)
  subscribing : ∀ watcher session request, calls (.subscribe watcher session request)
  unsubscribing : ∀ subscription, calls (.unsubscribe subscription)

namespace AllowsSession

variable {driver : Driver S} (allows : AllowsSession ops calls)
include allows

theorem within_tellInvalid :
    ∀ paths : List Path, (tellInvalid compiler paths : Prog S Unit).Within ops calls
  | [] => .pure _
  | path :: rest => by
    rw [tellInvalid]
    refine Prog.Within.bind ?_ fun _ => within_tellInvalid rest
    exact within_tell (allows.look compiler) fun observer => allows.telling _ observer _ id

theorem within_notifyAll :
    ∀ callbacks : List S.Callback, (notifyAll callbacks).Within ops calls
  | [] => .pure _
  | callback :: rest => by
    rw [notifyAll]
    exact (Prog.Within.invoke (allows.notifying callback)).bind fun _ => within_notifyAll rest

theorem within_onChanges {changes : ChangeSet} :
    (onChanges driver changes).Within ops calls := by
  rw [onChanges]
  split
  · exact .pure _
  · exact (allows.within_tellInvalid _).bind fun _ => .pure _

theorem within_awaitEvent : (awaitEvent driver).Within ops calls := by
  rw [awaitEvent]
  split
  · exact .pure _
  · refine (Prog.Within.perform (allows.awaiting _)).bind fun wake => ?_
    cases wake with
    | signal signal => exact .pure _
    | changes changes => exact allows.within_onChanges
    | gone => exact .pure _

theorem within_closeNow : (closeNow driver).Within ops calls := by
  have shuts : Prog.Within ops calls (do
      let left ← Prog.perform (.shut driver.session)
      let driver := left.foldl onSignal driver
      let _ ← Prog.perform (.shift driver.compiler .endWatch)
      tell driver.compiler .watchClose
      notifyAll driver.closeCallbacks
      notifyAll driver.pendingCallbacks
      return { driver with subscription := none, closeCallbacks := [], pendingCallbacks := [] }) := by
    refine (Prog.Within.perform (allows.shutting _)).bind fun left => ?_
    refine (Prog.Within.perform (allows.leaving _)).bind fun _ => ?_
    refine Prog.Within.bind ?_ fun _ => ?_
    · exact within_tell (allows.look _) fun observer => allows.telling _ observer _ id
    · refine (allows.within_notifyAll _).bind fun _ => ?_
      exact (allows.within_notifyAll _).bind fun _ => .pure _
  rw [closeNow]
  cases driver.subscription with
  | none => exact shuts
  | some subscription => exact (Prog.Within.invoke (allows.unsubscribing _)).bind fun _ => shuts

theorem within_resubscribe {compilation : Compilation} :
    (resubscribe driver compilation).Within ops calls := by
  rw [resubscribe]
  refine (Prog.Within.look (allows.look _)).bind fun record => ?_
  refine (Prog.Within.invoke (allows.subscribing _ _ _)).bind fun reply => ?_
  cases reply with
  | none => exact .pure _
  | some subscription =>
      cases driver.subscription with
      | none => exact .pure _
      | some old => exact (Prog.Within.invoke (allows.unsubscribing _)).bind fun _ => .pure _

end AllowsSession

end Compiler

end Bundler
