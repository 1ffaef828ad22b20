import Bundler.Proofs.Compiler.SessionProtocol

/-!
# Callbacks that are turned away

A session that takes no signals turns a signal away, and whoever sent it calls the callback of
the signal at once. `Prog.Prompt` says so of a program, and that it calls no other callbacks
unless it is free to, as the program of a driver is. Code of visitors is prompt and never free.
So in every execution a callback that was turned away is called next by the task that sent it,
and a callback that somebody else than a driver calls was turned away just before.
-/

namespace Bundler

variable {S : Setting} {E : Environment S} {α β : Type}

/-- The callback of a signal that was turned away. -/
def Event.turnedAway? : Event S → Option S.Callback
  | .op (.send _ signal) false => some signal.callback
  | _ => none

/-- The last of some events turned a signal with this callback away. -/
def TurnedAway (events : List (Event S)) (callback : S.Callback) : Prop :=
  ∃ earlier session signal, events = earlier ++ [.op (.send session signal) false] ∧
    signal.callback = callback

/-- The callback that has to be called next after some events. -/
def owed (owing : Option S.Callback) (events : List (Event S)) : Option S.Callback :=
  events.foldl (fun _ event => event.turnedAway?) owing

section Owed

variable {owing : Option S.Callback} {events : List (Event S)} {callback : S.Callback}

@[simp]
theorem owed_nil : owed owing ([] : List (Event S)) = owing := rfl

@[simp]
theorem owed_cons (event : Event S) :
    owed owing (event :: events) = owed event.turnedAway? events := rfl

@[simp]
theorem owed_concat (event : Event S) : owed owing (events ++ [event]) = event.turnedAway? := by
  simp [owed]

/-- A callback is owed only when it was turned away just before. -/
theorem turnedAway_of_owed (owes : owed none events = some callback) :
    TurnedAway events callback := by
  rcases List.eq_nil_or_concat events with rfl | ⟨earlier, event, rfl⟩
  · cases owes
  · rw [List.concat_eq_append] at owes ⊢
    rw [owed_concat] at owes
    cases event with
    | op operation reply =>
        cases operation with
        | send session signal =>
            cases reply with
            | true => cases owes
            | false => exact ⟨earlier, session, signal, rfl, Option.some.inj owes⟩
        | _ => cases owes
    | call | request => cases owes

end Owed

/-- Only a signal is turned away. -/
theorem turnedAway?_eq_none {operation : Op S} (plain : operation.Plain) (reply : operation.Reply) :
    (Event.op operation reply).turnedAway? = none := by
  cases operation with
  | send session signal => exact absurd rfl (plain session signal)
  | _ => rfl

/-! ## Programs -/

namespace Prog

/-- A program that makes only some operations, and calls the callback that is owed. It calls
other callbacks only if it is free to. -/
inductive Prompt (ops : Op S → Prop) (free : Prop) (ending : α → Prop) :
    Option S.Callback → Prog S α → Prop where
  | done {value} (ends : ending value) : Prompt ops free ending none (.done value)
  | op {operation next} (allowed : ops operation)
      (rest : ∀ reply, Prompt ops free ending (Event.op operation reply).turnedAway? (next reply)) :
      Prompt ops free ending none (.op operation next)
  | makeUp {callback next} (rest : ∀ reply, Prompt ops free ending none (next reply)) :
      Prompt ops free ending (some callback) (.call (.notify callback) next)
  | call {outside next} (entitled : outside.Plain ∨ free)
      (rest : ∀ reply, Prompt ops free ending none (next reply)) :
      Prompt ops free ending none (.call outside next)
  | request {wish next} (rest : ∀ answer, Prompt ops free ending none (next answer)) :
      Prompt ops free ending none (.request wish next)
  | panic : Prompt ops free ending none .panic

section Prompt

variable {ops moreOps : Op S → Prop} {free freer : Prop} {middle : α → Prop} {ending : β → Prop}
  {owing : Option S.Callback}

theorem Prompt.bind {program : Prog S α} {next : α → Prog S β}
    (first : program.Prompt ops free middle owing)
    (rest : ∀ value, middle value → (next value).Prompt ops free ending none) :
    (program >>= next).Prompt ops free ending owing := by
  change (program.bind next).Prompt ops free ending owing
  induction first with
  | done ends => exact rest _ ends
  | op allowed _ ih => exact .op allowed ih
  | makeUp _ ih => exact .makeUp ih
  | call entitled _ ih => exact .call entitled ih
  | request _ ih => exact .request ih
  | panic => exact .panic

theorem Prompt.mono {program : Prog S β} {weaker : β → Prop}
    (prompt : program.Prompt ops free ending owing)
    (included : ∀ operation, ops operation → moreOps operation) (implied : free → freer)
    (weakened : ∀ value, ending value → weaker value) :
    program.Prompt moreOps freer weaker owing := by
  induction prompt with
  | done ends => exact .done (weakened _ ends)
  | op allowed _ ih => exact .op (included _ allowed) ih
  | makeUp _ ih => exact .makeUp ih
  | call entitled _ ih => exact .call (entitled.imp_right implied) ih
  | request _ ih => exact .request ih
  | panic => exact .panic

/-- A program that sends no signals. -/
theorem Within.prompt {program : Prog S β} {calls : Call S → Prop}
    (within : program.Within ops calls)
    (unsent : ∀ operation, ops operation → operation.Plain ∧ moreOps operation)
    (entitled : ∀ outside, calls outside → outside.Plain ∨ free)
    (ends : ∀ deeds value, program.Play deeds value → ending value) :
    program.Prompt moreOps free ending none := by
  induction within with
  | done value => exact .done (ends _ _ (.done value))
  | op allowed _ ih =>
      obtain ⟨plain, further⟩ := unsent _ allowed
      refine .op further fun reply => ?_
      rw [turnedAway?_eq_none plain reply]
      exact ih reply fun deeds value play => ends _ value (.op play)
  | call allowed _ ih =>
      exact .call (entitled _ allowed) fun reply => ih reply fun deeds value play => ends _ value (.call play)

theorem Prompt.after_op {operation : Op S} {next : operation.Reply → Prog S β}
    (prompt : Prompt ops free ending owing (.op operation next)) :
    ops operation ∧
      ∀ reply, (next reply).Prompt ops free ending (Event.op operation reply).turnedAway? := by
  cases prompt with
  | op allowed rest => exact ⟨allowed, rest⟩

theorem Prompt.after_call {outside : Call S} {next : outside.Reply → Prog S β}
    (prompt : Prompt ops free ending owing (.call outside next)) (reply : outside.Reply) :
    (next reply).Prompt ops free ending none := by
  cases prompt with
  | makeUp rest => exact rest reply
  | call _ rest => exact rest reply

theorem Prompt.after_request {wish : S.Request} {next : S.Answer wish → Prog S β}
    (prompt : Prompt ops free ending owing (.request wish next)) (answer : S.Answer wish) :
    (next answer).Prompt ops free ending none := by
  cases prompt with
  | request rest => exact rest answer

theorem Prompt.at_end {value : β} (prompt : Prompt ops free ending owing (.done value)) :
    owing = none ∧ ending value := by
  cases prompt with
  | done ends => exact ⟨rfl, ends⟩

/-- A callback that is owed is called next. -/
theorem Prompt.makes_up {program : Prog S β} {callback : S.Callback}
    (prompt : program.Prompt ops free ending (some callback)) :
    ∃ next, program = .call (.notify callback) next := by
  cases prompt with
  | makeUp rest => exact ⟨_, rfl⟩

/-- Only a callback that is owed is called, or the program is free to. -/
theorem Prompt.owed_of_notify {callback : S.Callback} {next : Unit → Prog S β}
    (prompt : Prompt ops free ending owing (.call (.notify callback) next)) :
    owing = some callback ∨ free := by
  cases prompt with
  | makeUp => exact .inl rfl
  | call entitled => exact .inr (entitled.resolve_left fun plain => plain callback rfl)

/-- The code outside and the program that calls it, from one event to the next. -/
theorem Prompt.follows {program left : Prog S β} {events : List (Event S)}
    (answers : ∀ outside, (E.answer outside).Prompt ops free (fun _ => True) none)
    (prompt : program.Prompt ops free ending owing) (follows : Follows E program events left) :
    left.Prompt ops free ending (owed owing events) ∧
      ∀ operation reply, .op operation reply ∈ events → ops operation := by
  induction follows generalizing owing with
  | start program => exact ⟨prompt, by simp⟩
  | op _ ih =>
      obtain ⟨allowed, rest⟩ := prompt.after_op
      obtain ⟨left, events⟩ := ih (rest _)
      refine ⟨left, fun operation reply member => ?_⟩
      rcases List.mem_cons.mp member with same | member
      · cases same
        exact allowed
      · exact events operation reply member
  | @call outside _ _ _ _ ih =>
      obtain ⟨left, events⟩ := ih ((answers outside).bind fun reply _ => prompt.after_call reply)
      refine ⟨left, fun operation reply member => ?_⟩
      exact events operation reply ((List.mem_cons.mp member).resolve_left nofun)
  | request _ ih =>
      obtain ⟨left, events⟩ := ih (prompt.after_request _)
      refine ⟨left, fun operation reply member => ?_⟩
      exact events operation reply ((List.mem_cons.mp member).resolve_left nofun)

end Prompt

end Prog

/-! ## Visitors -/

namespace Compiler

/-- Whoever sends a signal calls its callback if it is turned away. -/
theorem prompt_send (session : SessionId) (signal : Signal S) :
    Prog.Prompt Op.OfClient False (fun _ => True) none (do
      if !(← Prog.perform (.send session signal)) then
        Prog.invoke (.notify signal.callback)) := by
  refine .op trivial fun taken => ?_
  cases taken with
  | true => exact .done trivial
  | false => exact .makeUp fun _ => .done trivial

theorem prompt_invalidate (session : SessionId) (callback : S.Callback) :
    (invalidate session callback).Prompt Op.OfClient False (fun _ => True) none := by
  have looks : (Prog.perform (.lookSession session) : Prog S (Bundler.Session S)).Prompt
      Op.OfClient False (fun _ => True) none := .op trivial fun _ => .done trivial
  refine looks.bind fun seen _ => ?_
  have sends := prompt_send session (.invalidate callback)
  split
  · have told : (tell seen.compiler (.invalid none) : Prog S Unit).Within
        (fun operation => operation = .look seen.compiler) Call.Plain :=
      within_tell rfl fun _ => nofun
    exact (told.prompt (by rintro _ rfl; exact ⟨nofun, trivial⟩) (fun _ => .inl)
      fun _ _ _ => trivial).bind fun _ _ => sends
  · exact sends

end Compiler

/-- Visitors call callbacks only when they have to. -/
theorem Prog.Visitor.prompt {panics : Prop} {program : Prog S α}
    (visitor : program.Visitor panics) :
    program.Prompt Op.OfClient False (fun _ => True) none := by
  have unsent : ∀ {operation : Op S}, operation.Open → operation.Plain := by
    rintro operation allowed session signal rfl
    exact allowed
  have offered : ∀ {β : Type} {step : Prog S β},
      step.Within (fun operation => operation.OfClient ∧ operation.Plain) Call.Plain →
      step.Prompt Op.OfClient False (fun _ => True) none :=
    fun within => within.prompt (fun _ allowed => allowed.symm) (fun _ => .inl)
      fun _ _ _ => trivial
  induction visitor with
  | done value => exact .done trivial
  | @op operation _ allowed _ ih =>
      refine .op allowed.isPublic.ofClient fun reply => ?_
      rw [turnedAway?_eq_none (unsent allowed) reply]
      exact ih reply
  | call allowed _ ih =>
      refine .call (.inl ?_) ih
      rintro callback rfl
      exact allowed
  | request _ ih => exact .request ih
  | run _ ih => exact (offered (Compiler.within_run _ _)).bind fun value _ => ih value
  | watch _ ih => exact (offered (Compiler.within_watch _ _ _)).bind fun value _ => ih value
  | runAsChild _ ih => exact (offered (Compiler.within_runAsChild _)).bind fun value _ => ih value
  | invalidate _ ih => exact (Compiler.prompt_invalidate _ _).bind fun value _ => ih value
  | close _ ih => exact (Compiler.prompt_send _ (.close _)).bind fun value _ => ih value
  | panic permitted => exact .panic

/-! ## Tasks -/

namespace Compiler

theorem prompt_program (job : Job S) :
    (program job).Prompt (fun _ => True) job.Drives (fun next => next ≠ none → job.Drives) none :=
  (within_program job).prompt
    (fun operation made => ⟨by rintro session signal rfl; exact made, trivial⟩) (fun _ => id)
    fun _ _ => drives_of_play

end Compiler

namespace Machine

variable {start machine : Machine E} {events : List (TaskId × Event S)} {task : TaskId}
  {panics : Prop}

/-- A task that was spawned to drive a session. -/
def Driving (events : List (TaskId × Event S)) (task : TaskId) : Prop :=
  ∃ spawner stage driver, (spawner, .op (.spawn (.drive stage driver)) task) ∈ events

theorem Driving.append {more : List (TaskId × Event S)} :
    Driving events task → Driving (events ++ more) task :=
  fun ⟨spawner, stage, driver, member⟩ => ⟨spawner, stage, driver, List.mem_append_left more member⟩

/-- A program of a task after some events, which calls the callback that the task owes. -/
abbrev Pays (events : List (TaskId × Event S)) (task : TaskId) (owing : Option S.Callback)
    (program : Prog S (Compiler.Next S)) : Prop :=
  program.Prompt (fun _ => True) (Driving events task)
    (fun next => next ≠ none → Driving events task) owing

/-- Every task calls what was turned away from it, and only drivers call other callbacks. -/
theorem Trace.pays (trace : start.Trace events machine) (vacant : start.Vacant panics)
    (hosts : E.Hosts panics) {program : Prog S (Compiler.Next S)}
    (found : machine.program? task = some program) :
    Pays events task (owed none (eventsOf task events)) program := by
  have answers : ∀ (events : List (TaskId × Event S)) (task : TaskId) outside, (E.answer outside).Prompt
      (fun _ => True) (Driving events task) (fun _ => True) none :=
    fun _ _ outside => (hosts outside).prompt.mono (fun _ _ => trivial) False.elim fun _ => id
  clear hosts
  induction trace generalizing task program with
  | start =>
      obtain ⟨code, visitor, rfl⟩ := vacant.visitors task program found
      have prompt : code.Prompt (fun _ => True)
          (Driving ([] : List (TaskId × Event S)) task) (fun _ => True) none :=
        visitor.prompt.mono (fun _ _ => trivial) False.elim fun _ => id
      exact prompt.bind fun _ _ => .done fun goes => absurd rfl goes
  | @seen events machine id event after before step ih =>
      have ready := vacant.tidy.trace before
      have grown : ∀ {owing program}, Pays events task owing program →
          Pays (events ++ [(id, event)]) task owing program :=
        fun pays => pays.mono (fun _ _ => trivial) Driving.append fun _ ends goes => (ends goes).append
      rcases ready.program?_cases step found with rfl | ⟨job, same, rfl⟩ | ⟨different, held⟩
      · rw [eventsOf_append, eventsOf_self, owed_concat]
        refine grown ?_
        cases step with
        | op runs performed =>
            rw [ready.program?_performed runs (World.perform_changes performed), if_pos rfl] at found
            obtain rfl := Option.some.inj found
            exact (ih runs).after_op.2 _
        | @call outside next runs =>
            rw [ready.program?_moved runs, if_pos rfl] at found
            obtain rfl := Option.some.inj found
            exact (answers events task outside).bind fun reply _ => (ih runs).after_call reply
        | @request _ _ _ state runs _ =>
            rw [(ready.with_state state).program?_moved runs, if_pos rfl] at found
            obtain rfl := Option.some.inj found
            exact (ih runs).after_request _
      · cases same
        obtain ⟨rfl, different, -⟩ := ready.program?_spawned step
        have nothing : eventsOf machine.world.nextTask events = [] := by
          rw [List.eq_nil_iff_forall_not_mem]
          intro event member
          exact Nat.lt_irrefl _ (vacant.tidy.lt_nextTask before (mem_eventsOf.mp member))
        rw [eventsOf_append, nothing, eventsOf_of_ne different.symm]
        have driving : job.Drives → Driving
            (events ++ [(id, .op (.spawn job) machine.world.nextTask)]) machine.world.nextTask := by
          cases job with
          | drive stage driver => exact fun _ => ⟨id, stage, driver, List.mem_append_right _ (.head _)⟩
          | _ => exact False.elim
        exact (Compiler.prompt_program job).mono (fun _ _ => trivial) driving fun _ ends => driving ∘ ends
      · rw [eventsOf_append, eventsOf_of_ne different.symm, List.append_nil]
        exact grown (ih held)
  | @unseen events machine id after before step ih =>
      have ready := vacant.tidy.trace before
      rcases ready.program?_cases step found with rfl | ⟨job, same, rfl⟩ | ⟨different, held⟩
      · cases step with
        | @turn job runs =>
            rw [program?_replace runs, if_pos rfl] at found
            obtain rfl := Option.some.inj found
            obtain ⟨paid, ends⟩ := (ih runs).at_end
            have driving := ends nofun
            rw [paid]
            exact (Compiler.prompt_program job).mono (fun _ _ => trivial) (fun _ => driving)
              fun _ _ _ => driving
        | finish runs =>
            rw [program?_remove, if_pos rfl] at found
            cases found
        | crash runs =>
            change (machine.remove task).program? task = some program at found
            rw [program?_remove, if_pos rfl] at found
            cases found
      · cases same
      · exact ih held

end Machine

end Bundler
