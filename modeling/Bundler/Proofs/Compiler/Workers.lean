import Bundler.Proofs.Compiler.Visitors
import Bundler.Proofs.Compiler.TaskHistory
import Bundler.Proofs.Compiler.Holders
import Bundler.Proofs.Compiler.RunLifeCycle

/-!
# Workers of watch runs

A driver begins a watch run in one way: it gets the compiler, has the input forgotten if there
are changes, notes the changes, and sets a worker to the phases. From then on it does nothing
until it takes the result of the worker. So whatever a worker does falls into a stretch in which
its driver has just set it going: `Machine.Trace.worker_during`.
-/

namespace Bundler

variable {S : Setting} {E : Environment S} {α β : Type}

/-! ## Operations that are left to jobs -/

namespace Prog

/-- A program that never makes an operation of some kind. It may panic. -/
inductive Shuns (bad : Op S → Prop) : Prog S α → Prop where
  | done (value : α) : Shuns bad (.done value)
  | op {operation : Op S} {next : operation.Reply → Prog S α} (allowed : ¬ bad operation)
      (rest : ∀ reply, Shuns bad (next reply)) : Shuns bad (.op operation next)
  | call {outside : Call S} {next : outside.Reply → Prog S α}
      (rest : ∀ reply, Shuns bad (next reply)) : Shuns bad (.call outside next)
  | request {wish : S.Request} {next : S.Answer wish → Prog S α}
      (rest : ∀ answer, Shuns bad (next answer)) : Shuns bad (.request wish next)
  | panic : Shuns bad .panic

variable {bad : Op S → Prop} {program : Prog S α}

theorem Shuns.bind {next : α → Prog S β} (first : program.Shuns bad)
    (rest : ∀ value, (next value).Shuns bad) : (program >>= next).Shuns bad := by
  change (program.bind next).Shuns bad
  induction first with
  | done value => exact rest value
  | op allowed _ ih => exact .op allowed ih
  | call _ ih => exact .call ih
  | request _ ih => exact .request ih
  | panic => exact .panic

theorem Within.shuns {ops : Op S → Prop} {calls : Call S → Prop} (within : program.Within ops calls)
    (good : ∀ operation, ops operation → ¬ bad operation) : program.Shuns bad := by
  induction within with
  | done value => exact .done value
  | op allowed _ ih => exact .op (good _ allowed) ih
  | call _ _ ih => exact .call ih

theorem Shuns.follows {left : Prog S α} {events : List (Event S)}
    (answers : ∀ outside, (E.answer outside).Shuns bad) (shuns : program.Shuns bad)
    (follows : Follows E program events left) :
    ∀ operation reply, .op operation reply ∈ events → ¬ bad operation := by
  induction follows with
  | start program => simp
  | op _ ih =>
      cases shuns with
      | op allowed rest =>
          intro operation reply member
          rcases List.mem_cons.mp member with same | member
          · cases same
            exact allowed
          · exact ih (rest _) operation reply member
  | call _ ih =>
      cases shuns with
      | call rest =>
          intro operation reply member
          rcases List.mem_cons.mp member with same | member
          · cases same
          · exact ih ((answers _).bind rest) operation reply member
  | request _ ih =>
      cases shuns with
      | request rest =>
          intro operation reply member
          rcases List.mem_cons.mp member with same | member
          · cases same
          · exact ih (rest _) operation reply member

end Prog

/-- An operation by which a run proceeds, and which code outside never makes. -/
def Op.Inner : Op S → Prop
  | .setChanges _ _ => True
  | .spawn (.watchPhases _) => True
  | .report _ => True
  | .join _ => True
  | _ => False

theorem Compiler.runAsChild_shuns (compiler : CompilerId) :
    (runAsChild compiler : Prog S RunResult).Shuns Op.Inner := by
  have allows : AllowsPhases compiler (fun operation : Op S => ¬ operation.Inner)
      fun _ => True :=
    { look := id, creating := id, retaining := fun _ => id, observing := fun _ _ _ => trivial
      adjusting := fun _ _ _ => trivial, deciding := fun _ _ => trivial
      building := fun _ _ => trivial, making := fun _ _ => trivial
      writing := fun _ _ _ => trivial }
  refine .op id fun accepted => ?_
  cases accepted with
  | false => exact .done _
  | true =>
      refine .op id fun _ => ?_
      refine (allows.within_compile.shuns fun _ => id).bind fun result => ?_
      refine (allows.within_tellFailure.shuns fun _ => id).bind fun _ => ?_
      exact .op id fun _ => .op id fun _ => .done _

/-- Code outside takes no part in how runs proceed. -/
theorem Prog.Visitor.shuns_inner {program : Prog S α} {panics : Prop}
    (visitor : program.Visitor panics) : program.Shuns Op.Inner := by
  have sends : ∀ (session : SessionId) (signal : Signal S),
      (do
        if !(← Prog.perform (.send session signal)) then
          Prog.invoke (.notify signal.callback) : Prog S Unit).Shuns Op.Inner := by
    intro session signal
    refine .op id fun taken => ?_
    cases taken with
    | false => exact .call fun _ => .done ()
    | true => exact .done ()
  induction visitor with
  | done value => exact .done value
  | @op operation next allowed _ ih =>
      refine .op (fun inner => ?_) ih
      cases operation <;> first | exact inner | exact allowed
  | call _ _ ih => exact .call ih
  | request _ ih => exact .request ih
  | run _ ih =>
      refine Shuns.bind (.op id fun accepted => ?_) ih
      cases accepted with
      | false => exact .call fun _ => .done _
      | true => exact .op id fun _ => .done _
  | watch _ ih =>
      refine Shuns.bind (.op id fun accepted => ?_) ih
      cases accepted with
      | false => exact .done _
      | true => exact .op id fun _ => .op id fun _ => .done _
  | runAsChild _ ih => exact (Compiler.runAsChild_shuns _).bind ih
  | @invalidate session callback next _ ih =>
      refine Shuns.bind (.op id fun seen => ?_) ih
      change Prog.Shuns Op.Inner (if seen.phase = .active then _ else _)
      split
      · have told : Prog.Within (fun operation => ¬ operation.Inner) (fun _ => True)
            (Compiler.tell seen.compiler (.invalid none) : Prog S Unit) :=
          Compiler.within_tell id fun _ => trivial
        exact (told.shuns fun _ => id).bind fun _ => sends session (.invalidate callback)
      · exact sends session (.invalidate callback)
  | @close session callback next _ ih => exact (sends session (.close callback)).bind ih
  | panic => exact .panic

/-! ## How runs begin -/

/-- An operation by which a driver begins a watch run. -/
def Op.Starts : Op S → Prop
  | .setChanges _ _ => True
  | .spawn (.watchPhases _) => True
  | _ => False

theorem Op.Starts.inner {operation : Op S} (starts : operation.Starts) : operation.Inner := by
  cases operation with
  | setChanges => trivial
  | spawn job =>
      cases job with
      | watchPhases => trivial
      | run | phases | drive => exact starts.elim
  | _ => exact starts.elim

/-- A deed that has no part in the beginning of a watch run. -/
abbrev Deed.Aside : Deed S → Prop := Deed.Within (fun operation => ¬ operation.Starts) fun _ => True

namespace Compiler

/-- What a driver does before a run takes its changes: it gets the compiler, and if there are
changes, it has the input forgotten and hands them to the session. -/
inductive Opens (compiler : CompilerId) : ChangeSet → List (Deed S) → Prop where
  | unchanged {changes} (empty : changes.isEmpty = true) :
      Opens compiler changes [.op (.acquire compiler) ()]
  | changed {changes record session} (full : changes.isEmpty = false) :
      Opens compiler changes [.op (.acquire compiler) (), .op (.look compiler) record,
        .call (.purge record.input) (), .op (.setLastChange session changes) ()]

theorem Opens.aside {compiler : CompilerId} {changes : ChangeSet} {opening : List (Deed S)}
    (opens : Opens compiler changes opening) : ∀ deed ∈ opening, deed.Aside := by
  intro deed member
  cases opens with
  | unchanged =>
      obtain rfl := List.mem_singleton.mp member
      exact id
  | changed =>
      simp only [List.mem_cons, List.not_mem_nil, or_false] at member
      rcases member with rfl | rfl | rfl | rfl
      · exact id
      · exact id
      · trivial
      · exact id

/-- Deeds of a driver in which every watch run begins in the same way. -/
inductive Launching (compiler : CompilerId) : List (Deed S) → Prop where
  | nothing : Launching compiler []
  | aside {deed rest} (other : deed.Aside) (later : Launching compiler rest) :
      Launching compiler (deed :: rest)
  | run {changes opening accepted worker result rest} (opens : Opens compiler changes opening)
      (later : Launching compiler rest) : Launching compiler
        (opening ++ (.op (.setChanges compiler changes) () ::
          .op (.shift compiler .beginWatchRun) accepted ::
          .op (.spawn (.watchPhases compiler)) worker :: .op (.join worker) result :: rest))

section Launching

variable {compiler : CompilerId} {deeds first rest before after : List (Deed S)}

theorem Launching.after_aside (aside : ∀ deed ∈ first, deed.Aside)
    (later : Launching compiler rest) : Launching compiler (first ++ rest) := by
  induction first with
  | nil => exact later
  | cons deed first ih =>
      refine .aside (aside deed List.mem_cons_self) (ih fun other member => ?_)
      exact aside other (List.mem_cons_of_mem deed member)

theorem Launching.append (launching : Launching compiler first)
    (later : Launching compiler rest) : Launching compiler (first ++ rest) := by
  induction launching with
  | nothing => exact later
  | aside other _ ih => exact .aside other ih
  | run opens _ ih =>
      rw [List.append_assoc]
      exact .run opens ih

/-- A deed that begins a run, with what is done before and after it. -/
inductive Launches (compiler : CompilerId) : List (Deed S) → Deed S → List (Deed S) → Prop where
  | changes (earlier) {opening changes after} (opens : Opens compiler changes opening) :
      Launches compiler (earlier ++ opening) (.op (.setChanges compiler changes) ()) after
  | worker (earlier) {opening changes accepted worker result after}
      (opens : Opens compiler changes opening) : Launches compiler
        (earlier ++ (opening ++ [.op (.setChanges compiler changes) (),
          .op (.shift compiler .beginWatchRun) accepted]))
        (.op (.spawn (.watchPhases compiler)) worker) (.op (.join worker) result :: after)

theorem Launches.later {deed : Deed S} (launches : Launches compiler before deed after)
    (first : List (Deed S)) : Launches compiler (first ++ before) deed after := by
  cases launches with
  | changes earlier opens =>
      rw [← List.append_assoc]
      exact .changes _ opens
  | worker earlier opens =>
      rw [← List.append_assoc]
      exact .worker _ opens

/-- A deed that begins a run is not one of those aside. -/
theorem append_eq_aside {deed : Deed S} (aside : ∀ deed ∈ first, deed.Aside)
    (starts : ¬ deed.Aside) (same : first ++ rest = before ++ deed :: after) :
    ∃ middle, before = first ++ middle ∧ rest = middle ++ deed :: after := by
  rcases List.append_eq_append_iff.mp same with ⟨middle, rfl, cut⟩ | ⟨middle, rfl, cut⟩
  · exact ⟨middle, rfl, cut⟩
  · cases middle with
    | nil => exact ⟨[], by simp, cut.symm⟩
    | cons other middle =>
        obtain ⟨rfl, -⟩ := List.cons.inj cut
        exact absurd (aside deed (by simp)) starts

/-- Whatever begins a run does so as a part of the one way to begin it. -/
theorem Launching.launches {deed : Deed S} (launching : Launching compiler deeds)
    (same : deeds = before ++ deed :: after) (starts : ¬ deed.Aside) :
    Launches compiler before deed after := by
  induction launching generalizing before with
  | nothing => simp at same
  | @aside other rest apart later ih =>
      have aside : ∀ deed ∈ [other], deed.Aside := by simpa using apart
      obtain ⟨middle, rfl, cut⟩ := append_eq_aside aside starts same
      exact (ih cut).later [other]
  | @run changes opening accepted worker result rest opens later ih =>
      obtain ⟨middle, rfl, cut⟩ := append_eq_aside opens.aside starts same
      rcases middle with _ | ⟨_, middle⟩
      · cases cut
        rw [List.append_nil]
        exact .changes [] opens
      rcases middle with _ | ⟨_, middle⟩
      · cases cut
        exact absurd (show Deed.Aside (.op (.shift compiler .beginWatchRun) accepted : Deed S) from id)
          starts
      rcases middle with _ | ⟨_, middle⟩
      · cases cut
        exact .worker [] opens
      rcases middle with _ | ⟨_, middle⟩
      · cases cut
        exact absurd (show Deed.Aside (.op (.join worker) result : Deed S) from id) starts
      · simp only [List.cons_append, List.cons.injEq] at cut
        obtain ⟨rfl, rfl, rfl, rfl, cut⟩ := cut
        have moved := (ih cut).later (opening ++ [.op (.setChanges compiler changes) (),
          .op (.shift compiler .beginWatchRun) accepted,
          .op (.spawn (.watchPhases compiler)) worker, .op (.join worker) result])
        rwa [List.append_assoc] at moved

end Launching

/-! ## The turns of a driver -/

section Turns

variable {driver : Driver S} {deeds : List (Deed S)} {stage : DriverStage} {next : Next S}

theorem allowsTurns_aside :
    AllowsTurns (fun operation : Op S => ¬ operation.Starts) fun _ => True where
  look _ := id
  awaiting _ := id
  shutting _ := id
  leaving _ := id
  telling _ _ _ _ := trivial
  notifying _ := trivial
  subscribing _ _ _ := trivial
  unsubscribing _ := trivial
  taking _ := ⟨id, id⟩
  retiring _ := id
  releasing _ := id
  observing _ _ _ := trivial

theorem launching_of_within {α : Type} {program : Prog S α} {value : α} {compiler : CompilerId}
    (within : program.Within (fun operation => ¬ operation.Starts) fun _ => True)
    (play : program.Play deeds value) : Launching compiler deeds := by
  rw [← List.append_nil deeds]
  exact .after_aside (within.play play) .nothing

/-- A watch run begins in the one way. -/
theorem launching_of_watchRun {ran : Option Compilation × Driver S}
    (play : (watchRun driver).Play deeds ran) : Launching driver.compiler deeds := by
  rw [watchRun_eq] at play
  obtain ⟨_, _, begun, rfl⟩ := Prog.play_perform_bind.mp play
  obtain ⟨early, _, _, prepared, body, rfl⟩ := Prog.play_bind.mp begun
  obtain ⟨_, _, changed, rfl⟩ := Prog.play_perform_bind.mp body
  obtain ⟨accepted, _, shifted, rfl⟩ := Prog.play_perform_bind.mp changed
  obtain ⟨worker, _, spawned, rfl⟩ := Prog.play_perform_bind.mp shifted
  obtain ⟨result, _, joined, rfl⟩ := Prog.play_perform_bind.mp spawned
  have opens : Opens driver.compiler driver.pendingChanges
      (.op (.acquire driver.compiler) () :: early) := by
    rw [prepareChanges] at prepared
    split at prepared
    · rename_i full
      obtain ⟨record, _, looked, rfl⟩ := Prog.play_look_bind.mp prepared
      obtain ⟨_, _, purged, rfl⟩ := Prog.play_invoke_bind.mp looked
      rw [Prog.play_perform.mp purged]
      exact .changed (by simpa using full)
    · rename_i empty
      rw [(Prog.play_pure.mp prepared).1]
      exact .unchanged (by simpa using empty)
  have tells : (tellFailure driver.compiler result : Prog S Unit).Within
      (fun operation => ¬ operation.Starts) fun _ => True := by
    cases result with
    | ok finished => exact .pure ()
    | error error => exact allowsTurns_aside.within_tells
  refine .run opens (launching_of_within ?_ joined)
  refine (Prog.Within.perform id).bind fun _ => tells.bind fun _ => ?_
  refine (Prog.Within.invoke trivial).bind fun _ => ?_
  exact (allowsTurns_aside.within_notifyAll _).bind fun _ => .pure _

theorem launching_of_decideNext (play : (decideNext driver).Play deeds next) :
    Launching driver.compiler deeds := by
  rw [decideNext] at play
  split at play
  · refine launching_of_within ?_ play
    exact allowsTurns_aside.within_closeNow.bind allowsTurns_aside.within_retire
  · split at play
    · obtain ⟨first, ran, _, runs, after, rfl⟩ := Prog.play_bind.mp play
      refine (launching_of_watchRun runs).append (launching_of_within ?_ after)
      exact (Prog.Within.perform id).bind fun _ => .pure _
    · exact launching_of_within (.pure _) play

theorem launching_of_turn (play : (drive stage driver).Play deeds next) :
    Launching driver.compiler deeds := by
  cases stage with
  | waiting => exact launching_of_within (allowsTurns_aside.within_waiting driver) play
  | drainingAfter finished =>
      exact launching_of_within (allowsTurns_aside.within_drainingAfter finished driver) play
  | draining =>
      obtain ⟨taken, _, went, rfl⟩ := Prog.play_perform_bind.mp play
      refine .aside id ?_
      cases taken with
      | some changes =>
          refine launching_of_within ?_ went
          exact allowsTurns_aside.within_onChanges.bind fun _ => .pure _
      | none => exact launching_of_decideNext went

/-- A driver ends, or goes on as a driver of the same session. -/
theorem turn_goes_on (play : (drive stage driver).Play deeds next) :
    next = none ∨
      ∃ following other, next = some (.drive following other) ∧ SameSession driver other := by
  cases stage with
  | waiting =>
      obtain ⟨-, other, rfl, same⟩ := turn_waiting play
      exact .inr ⟨_, other, rfl, same⟩
  | draining =>
      obtain ⟨taken, _, went, -⟩ := Prog.play_perform_bind.mp play
      cases taken with
      | some changes =>
          obtain ⟨other, changed, rfl⟩ := Prog.play_map.mp went
          exact .inr ⟨_, other, rfl, sameSession_onChanges changed⟩
      | none =>
          rcases turn_decideNext went with
            ⟨-, rfl | rfl⟩ | ⟨worker, result, head, other, -, -, rfl, same⟩
          · exact .inl rfl
          · exact .inr ⟨_, driver, rfl, sameSession_refl driver⟩
          · exact .inr ⟨_, other, rfl, same⟩
  | drainingAfter finished =>
      obtain ⟨taken, _, went, -⟩ := Prog.play_perform_bind.mp play
      cases taken with
      | some changes =>
          obtain ⟨other, changed, rfl⟩ := Prog.play_map.mp went
          exact .inr ⟨_, other, rfl, sameSession_onChanges changed⟩
      | none =>
          obtain ⟨_, _, _, _, -, -, -, -, goes⟩ := turn_endRun went
          exact goes.imp id fun ⟨other, goes, same⟩ => ⟨_, other, goes, same⟩

/-- Every run in the history of a driver begins in the one way, up to a run that has only begun
to do so. -/
theorem launching_of_course {left : Prog S (Next S)} (course : Course (.drive stage driver) deeds left) :
    ∃ more next, left.Play more next ∧ Launching driver.compiler (deeds ++ more) := by
  generalize start : Job.drive stage driver = job at course
  induction course generalizing stage driver with
  | within path =>
      obtain rfl := start.symm
      obtain ⟨more, next, play⟩ := ((ofJobs_drive stage driver).path path).1.exists_play
      exact ⟨more, next, play, launching_of_turn (path.play play)⟩
  | turn play later ih =>
      obtain rfl := start.symm
      rcases turn_goes_on play with ended | ⟨following, other, goes, same⟩
      · cases ended
      · obtain ⟨more, next, ends, launching⟩ := ih (Option.some.inj goes).symm
        rw [same.1] at launching
        refine ⟨more, next, ends, ?_⟩
        rw [List.append_assoc]
        exact (launching_of_turn play).append launching

end Turns

end Compiler

/-! ## The deeds of a task -/

section Deeds

variable {deeds : List (Deed S)} {first rest : List (Event S)} {operation : Op S}
  {reply : operation.Reply}

/-- Where an operation that is left to jobs is seen, a job made it. -/
theorem Expands.split_op {bad : Op S → Prop} (answers : ∀ outside, (E.answer outside).Shuns bad)
    (found : bad operation) (expands : Expands E deeds (first ++ .op operation reply :: rest)) :
    ∃ before after, deeds = before ++ .op operation reply :: after ∧
      Expands E before first ∧ Expands E after rest := by
  generalize whole : first ++ .op operation reply :: rest = events at expands
  induction expands generalizing first with
  | nothing => simp at whole
  | @op other answer deeds events expands ih =>
      cases first with
      | nil =>
          cases whole
          exact ⟨[], deeds, rfl, .nothing, expands⟩
      | cons event first =>
          obtain ⟨rfl, later⟩ := List.cons.inj whole
          obtain ⟨before, after, rfl, earlier, last⟩ := ih later
          exact ⟨_ :: before, after, rfl, .op earlier, last⟩
  | @call outside answer deeds inner events answered expands ih =>
      have silent : .op operation reply ∉ inner := fun member =>
        (answers outside).follows answers answered operation reply member found
      cases first with
      | nil => cases whole
      | cons event first =>
          obtain ⟨rfl, later⟩ := List.cons.inj whole
          -- The operation is not one of the code of the call, so it comes after it.
          obtain ⟨middle, rfl, cut⟩ : ∃ middle, first = inner ++ middle ∧
              middle ++ .op operation reply :: rest = events := by
            rcases List.append_eq_append_iff.mp later with
              ⟨middle, within, cut⟩ | ⟨middle, within, cut⟩
            · cases middle with
              | nil => exact ⟨[], by simpa using within.symm, by simpa using cut⟩
              | cons other middle =>
                  obtain ⟨rfl, -⟩ := List.cons.inj cut
                  exact absurd (by simp [within]) silent
            · exact ⟨middle, within, cut.symm⟩
          obtain ⟨before, after, rfl, earlier, last⟩ := ih cut
          exact ⟨_ :: before, after, rfl, .call answered earlier, last⟩
  | @request wish answer deeds events expands ih =>
      cases first with
      | nil => cases whole
      | cons event first =>
          obtain ⟨rfl, later⟩ := List.cons.inj whole
          obtain ⟨before, after, rfl, earlier, last⟩ := ih later
          exact ⟨_ :: before, after, rfl, .request earlier, last⟩

end Deeds

/-- What a task does at the end: it is between two calls, or code outside is under way. -/
inductive Trailing (E : Environment S) (left : Prog S (Compiler.Next S))
    (state : Option (Prog S (Compiler.Next S))) : List (Event S) → Prop where
  | between (stands : state = some left ∨ state = none ∧ left = .done none) : Trailing E left state []
  | calling {outside next inner code} (calls : left = .call outside next)
      (follows : (E.answer outside).Follows E inner code) :
      Trailing E left state (.call outside :: inner)

namespace Machine

variable {start machine : Machine E} {events : List (TaskId × Event S)} {spawner task : TaskId}
  {job : Job S}

/-- The events of a task come from the deeds of its job. -/
theorem Tidy.did (tidy : start.Tidy) (trace : start.Trace events machine)
    (spawned : (spawner, .op (.spawn job) task) ∈ events) :
    ∃ deeds left seen tail, Compiler.Course job deeds left ∧ Expands E deeds seen ∧
      eventsOf task events = seen ++ tail ∧ Trailing E left (machine.program? task) tail := by
  rcases tidy.history trace spawned with ⟨left, found, accounts⟩ | ⟨absent, deeds, broken, ended⟩
  · rw [found]
    rcases accounts.settled with ⟨deeds, course, expands⟩ |
      ⟨deeds, seen, outside, next, inner, code, course, expands, follows, same, -, -⟩
    · exact ⟨deeds, left, _, [], course, expands, by simp, .between (.inl rfl)⟩
    · exact ⟨deeds, _, seen, _, course, expands, same, .calling rfl follows⟩
  · rw [absent]
    generalize own : eventsOf task events = seen at ended
    cases ended with
    | finished course expands =>
        exact ⟨deeds, _, _, [], course, expands, by simp, .between (.inr ⟨rfl, rfl⟩)⟩
    | broken course expands panicked =>
        exact ⟨deeds, _, _, _, course, expands, rfl, .calling rfl panicked⟩

/-- An operation that is left to jobs, among the deeds of the job that made it. -/
theorem Tidy.did_op {bad : Op S → Prop} {operation : Op S} {reply : operation.Reply}
    {first rest : List (Event S)} (tidy : start.Tidy) (trace : start.Trace events machine)
    (spawned : (spawner, .op (.spawn job) task) ∈ events)
    (answers : ∀ outside, (E.answer outside).Shuns bad)
    (own : eventsOf task events = first ++ .op operation reply :: rest) (found : bad operation) :
    ∃ before after left more tail,
      Compiler.Course job (before ++ .op operation reply :: after) left ∧
      Expands E before first ∧ Expands E after more ∧ rest = more ++ tail ∧
      Trailing E left (machine.program? task) tail := by
  obtain ⟨deeds, left, seen, tail, course, expands, same, ending⟩ := tidy.did trace spawned
  rw [own] at same
  have silent : .op operation reply ∉ tail := by
    intro member
    cases ending with
    | between => cases member
    | calling calls follows =>
        rcases List.mem_cons.mp member with other | member
        · cases other
        · exact (answers _).follows answers follows operation reply member found
  -- The operation is not one of a call under way.
  obtain ⟨more, rfl, rfl⟩ : ∃ more, rest = more ++ tail ∧
      seen = first ++ .op operation reply :: more := by
    rcases List.append_eq_append_iff.mp same with ⟨middle, within, cut⟩ | ⟨middle, within, cut⟩
    · cases middle with
      | nil => exact absurd (by simp [← (show _ = tail from cut)]) silent
      | cons other middle =>
          obtain ⟨rfl, rfl⟩ := List.cons.inj cut
          exact ⟨middle, rfl, within⟩
    · exact absurd (by simp [cut]) silent
  obtain ⟨before, after, rfl, earlier, later⟩ := expands.split_op answers found
  exact ⟨before, after, left, more, tail, course, earlier, later, rfl, ending⟩

/-! ## Drivers and their workers -/

section Runs

variable {driver : Driver S} {stage : DriverStage} {compiler : CompilerId} {worker : TaskId}
  {panics : Prop}

/-- A task that has begun is not spawned any more. -/
theorem Tidy.unspawned (tidy : start.Tidy) (trace : start.Trace events machine)
    (old : task < start.world.nextTask) : (spawner, .op (.spawn job) task) ∉ events := by
  intro member
  obtain ⟨first, rest, rfl⟩ := List.append_of_mem member
  obtain ⟨before, after, reached, step, -⟩ := trace.split_at
  have named := ((tidy.trace reached).program?_spawned step).1
  exact absurd (named ▸ old) (Nat.not_lt.mpr reached.nextTask_le)

/-- A run of a driver takes its changes directly after its opening. -/
theorem Tidy.run_opened {changes : ChangeSet} {first rest : List (Event S)} (tidy : start.Tidy)
    (trace : start.Trace events machine) (hosts : E.Hosts panics)
    (driven : (spawner, .op (.spawn (.drive stage driver)) task) ∈ events)
    (own : eventsOf task events = first ++ .op (.setChanges compiler changes) () :: rest) :
    ∃ earlier opening seen, first = earlier ++ seen ∧
      Compiler.Opens driver.compiler changes opening ∧ Expands E opening seen := by
  obtain ⟨before, after, left, more, tail, course, expands, -, -, -⟩ :=
    tidy.did_op trace driven (fun outside => (hosts outside).shuns_inner) own trivial
  obtain ⟨beyond, next, -, launching⟩ := Compiler.launching_of_course course
  rw [List.append_assoc, List.cons_append] at launching
  cases launching.launches rfl fun aside => aside trivial with
  | changes earlier opens =>
      obtain ⟨past, seen, rfl, -, opened⟩ := expands.of_append
      exact ⟨past, _, seen, rfl, opens, opened⟩

/-- A task that has left a result has reported one, or is over. -/
theorem Tidy.result_left {result : RunResult} (tidy : start.Tidy)
    (nothing : start.world.results.get? task = none) (trace : start.Trace events machine)
    (left : machine.world.results.get? task = some result) :
    (∃ reported, (task, .op (.report reported) ()) ∈ events) ∨
      machine.program? task = none ∧ task < machine.world.nextTask := by
  induction trace with
  | start =>
      rw [nothing] at left
      cases left
  | @seen events machine id event after before step ih =>
      by_cases self : task = id
      · obtain rfl := self
        obtain ⟨program, runs⟩ := step.runs
        have earlier : machine.world.results.get? task = some result →
            ∃ reported, (task, .op (.report reported) ()) ∈ events ++ [(task, event)] := by
          intro left
          rcases ih left with ⟨reported, member⟩ | ⟨absent, -⟩
          · exact ⟨reported, List.mem_append_left _ member⟩
          · cases runs.symm.trans absent
        cases step with
        | @op operation next reply world _ runs performed =>
            change world.results.get? task = some result at left
            rw [(World.perform_changes performed).results] at left
            cases operation with
            | report value => exact .inl ⟨value, List.mem_append_right _ List.mem_cons_self⟩
            | _ => exact .inl (earlier left)
        | call | request => exact .inl (earlier left)
      · rw [step.results_other self] at left
        rcases ih left with ⟨reported, member⟩ | ⟨absent, old⟩
        · exact .inl ⟨reported, List.mem_append_left _ member⟩
        · refine .inr ⟨?_, Nat.lt_of_lt_of_le old step.nextTask_le⟩
          rw [(tidy.trace before).program?_other step self old, absent]
  | @unseen events machine id after before step ih =>
      by_cases self : task = id
      · obtain rfl := self
        obtain ⟨program, runs⟩ := step.runs
        have earlier : machine.world.results.get? task = some result →
            ∃ reported, (task, .op (.report reported) ()) ∈ events := by
          intro left
          rcases ih left with reported | ⟨absent, -⟩
          · exact reported
          · cases runs.symm.trans absent
        cases step with
        | turn | finish => exact .inl (earlier left)
        | crash panicked =>
            refine .inr ⟨?_, ?_⟩
            · change (machine.remove task).program? task = none
              rw [program?_remove, if_pos rfl]
            · change task < (machine.world.crash task).nextTask
              rw [(crash_frame machine.world task).2]
              exact (tidy.trace before).below _ _ panicked
      · rw [step.results_other self] at left
        rcases ih left with reported | ⟨absent, old⟩
        · exact .inl reported
        · refine .inr ⟨?_, Nat.lt_of_lt_of_le old step.nextTask_le⟩
          rw [(tidy.trace before).program?_other step self old, absent]

/-- A result is never taken away. -/
theorem Step.results_kept {after : Machine E} {id : TaskId} {seen : Option (Event S)}
    (step : machine.Step id seen after) (left : (machine.world.results.get? task).isSome = true) :
    (after.world.results.get? task).isSome = true := by
  by_cases self : task = id
  · obtain rfl := self
    cases step with
    | @op operation next reply world _ runs performed =>
        change (world.results.get? task).isSome = true
        rw [(World.perform_changes performed).results]
        cases operation with
        | report value => simp [World.resultsAfter]
        | _ => exact left
    | crash =>
        change ((machine.world.crash task).results.get? task).isSome = true
        simp [World.crash_results]
    | call | request | turn | finish => exact left
  · rwa [step.results_other self]

/-- Who waited for a task has got a result that the task has left. -/
theorem Trace.result_of_joined {id : TaskId} {result : RunResult}
    (trace : start.Trace events machine) (joined : (id, .op (.join task) result) ∈ events) :
    (machine.world.results.get? task).isSome = true := by
  induction trace with
  | start => cases joined
  | seen before step ih =>
      rcases List.mem_append.mp joined with earlier | now
      · exact step.results_kept (ih earlier)
      · cases List.mem_singleton.mp now
        refine step.results_kept ?_
        cases step with
        | op runs performed =>
            rw [World.perform_join performed]
            rfl
  | unseen before step ih => exact step.results_kept (ih joined)

/-- A worker whose result was taken has nothing left to do. -/
theorem Trace.over_of_joined {id : TaskId} {result : RunResult}
    {program : Prog S (Compiler.Next S)} (trace : start.Trace events machine)
    (vacant : start.Vacant panics) (hosts : E.Hosts panics)
    (spawned : (spawner, .op (.spawn (.watchPhases compiler)) worker) ∈ events)
    (joined : (id, .op (.join worker) result) ∈ events)
    (runs : machine.program? worker = some program) : program = .done none := by
  obtain ⟨left, found⟩ := Option.isSome_iff_exists.mp (trace.result_of_joined joined)
  rcases vacant.tidy.result_left (vacant.noResults worker) trace found with
    ⟨reported, member⟩ | ⟨absent, -⟩
  · obtain ⟨first, rest, own⟩ := List.append_of_mem (mem_eventsOf.mpr member)
    obtain ⟨before, after, left, more, tail, course, -, -, -, ending⟩ :=
      vacant.tidy.did_op trace spawned (fun outside => (hosts outside).shuns_inner) own trivial
    have made : .op (.report reported) () ∈ before ++ .op (.report reported) () :: after := by simp
    obtain ⟨stages, -, rfl, -, -⟩ := Compiler.course_of_report
      (show Compiler.Course (Compiler.phasesJob .watch compiler) _ _ from course) made
    cases ending with
    | between stands =>
        rcases stands with found | ⟨absent, -⟩
        · exact Option.some.inj (runs.symm.trans found)
        · cases runs.symm.trans absent
    | calling calls => cases calls
  · cases runs.symm.trans absent

/-- As long as a worker has something to do, its driver has done nothing since it set the worker
going. -/
theorem Trace.worker_during {program : Prog S (Compiler.Next S)}
    (trace : start.Trace events machine) (vacant : start.Vacant panics) (hosts : E.Hosts panics)
    (driven : (spawner, .op (.spawn (.drive stage driver)) task) ∈ events)
    (spawned : (task, .op (.spawn (.watchPhases compiler)) worker) ∈ events)
    (runs : machine.program? worker = some program) (going : program ≠ .done none) :
    ∃ earlier opening seen changes accepted,
      eventsOf task events = earlier ++ seen ++ [.op (.setChanges driver.compiler changes) (),
        .op (.shift driver.compiler .beginWatchRun) accepted,
        .op (.spawn (.watchPhases compiler)) worker] ∧
      Compiler.Opens driver.compiler changes opening ∧ Expands E opening seen := by
  obtain ⟨first, rest, own⟩ := List.append_of_mem (mem_eventsOf.mpr spawned)
  obtain ⟨before, after, left, more, tail, course, expands, later, rfl, ending⟩ :=
    vacant.tidy.did_op trace driven (fun outside => (hosts outside).shuns_inner) own trivial
  obtain ⟨beyond, next, play, launching⟩ := Compiler.launching_of_course course
  rw [List.append_assoc, List.cons_append] at launching
  generalize follow : after ++ beyond = following at launching
  cases launching.launches rfl fun aside => aside trivial with
  | @worker earlier opening changes accepted _ result _ opens =>
      cases later with
      | nothing =>
          -- The driver waits for the worker, so it is not in the middle of a call.
          obtain rfl : tail = [] := by
            cases ending with
            | between => rfl
            | calling calls =>
                obtain rfl := calls
                cases play with
                | call => cases follow
          obtain ⟨past, between, rfl, -, starts⟩ := expands.of_append
          obtain ⟨seen, launch, rfl, opened, launched⟩ := starts.of_append
          cases launched with
          | op launched =>
              cases launched with
              | op launched =>
                  cases launched
                  refine ⟨past, opening, seen, changes, accepted, ?_, opens, opened⟩
                  simp [own]
      | op =>
          cases follow
          have joined : (task, .op (.join worker) result) ∈ events := by
            rw [← mem_eventsOf, own]
            simp
          exact absurd (trace.over_of_joined vacant hosts spawned joined runs) going
      | call | request => cases follow

end Runs

end Machine

end Bundler
