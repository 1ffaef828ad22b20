import Bundler.Proofs.Compiler.Execution
import Bundler.Proofs.Compiler.SessionHistory

/-!
# The history of a task

The events of one task in a trace come from what its jobs do: every event is an
operation of a job, a call that a job makes, or something that code outside does during
such a call. `Expands` relates the deeds of a job to the events that are seen of them,
and `Accounts` says that the events of a task so far are those of a course of its job,
with at most one call under way at the end.
-/

namespace Bundler

variable {S : Setting} {E : Environment S}

/-- The events of one task. -/
def eventsOf (task : TaskId) (events : List (TaskId × Event S)) : List (Event S) :=
  (events.filter fun entry => entry.1 = task).map Prod.snd

section EventsOf

variable {task id : TaskId} {first rest events : List (TaskId × Event S)} {event : Event S}

@[simp]
theorem eventsOf_append :
    eventsOf task (first ++ rest) = eventsOf task first ++ eventsOf task rest := by
  simp [eventsOf]

theorem eventsOf_self : eventsOf task [(task, event)] = [event] := by simp [eventsOf]

theorem eventsOf_of_ne (other : id ≠ task) : eventsOf task [(id, event)] = [] := by
  simp [eventsOf, other]

theorem eventsOf_cons_self :
    eventsOf task ((task, event) :: rest) = event :: eventsOf task rest := by simp [eventsOf]

theorem eventsOf_cons_of_ne (other : id ≠ task) :
    eventsOf task ((id, event) :: rest) = eventsOf task rest := by simp [eventsOf, other]

@[simp]
theorem mem_eventsOf : event ∈ eventsOf task events ↔ (task, event) ∈ events := by
  constructor
  · intro member
    obtain ⟨⟨id, seen⟩, kept, rfl⟩ := List.mem_map.mp member
    obtain ⟨listed, same⟩ := List.mem_filter.mp kept
    obtain rfl : id = task := by simpa using same
    exact listed
  · intro member
    exact List.mem_map.mpr ⟨_, List.mem_filter.mpr ⟨member, by simp⟩, rfl⟩

/-- Where an event of a task stands among the events of all. -/
theorem eventsOf_eq_append {before after : List (Event S)}
    (same : eventsOf task events = before ++ event :: after) :
    ∃ first rest, events = first ++ (task, event) :: rest ∧
      eventsOf task first = before ∧ eventsOf task rest = after := by
  induction events generalizing before with
  | nil => simp [eventsOf] at same
  | cons entry events ih =>
      obtain ⟨id, seen⟩ := entry
      by_cases self : id = task
      · obtain rfl := self
        rw [eventsOf_cons_self] at same
        cases before with
        | nil =>
            obtain ⟨rfl, rfl⟩ := List.cons.inj same
            exact ⟨[], events, rfl, rfl, rfl⟩
        | cons other before =>
            obtain ⟨rfl, later⟩ := List.cons.inj same
            obtain ⟨first, rest, rfl, earlier, last⟩ := ih later
            exact ⟨(id, seen) :: first, rest, rfl, by rw [eventsOf_cons_self, earlier], last⟩
      · rw [eventsOf_cons_of_ne self] at same
        obtain ⟨first, rest, rfl, earlier, last⟩ := ih same
        exact ⟨(id, seen) :: first, rest, rfl, by rw [eventsOf_cons_of_ne self, earlier], last⟩

end EventsOf

/-! ## Deeds and events -/

/-- The events that are seen of some deeds: of a call, its beginning and what the code
outside does until it gives the answer. -/
inductive Expands (E : Environment S) : List (Deed S) → List (Event S) → Prop where
  | nothing : Expands E [] []
  | op {operation reply deeds events} (rest : Expands E deeds events) :
      Expands E (.op operation reply :: deeds) (.op operation reply :: events)
  | call {outside reply deeds inner events}
      (answered : (E.answer outside).Follows E inner (.done reply))
      (rest : Expands E deeds events) :
      Expands E (.call outside reply :: deeds) (.call outside :: (inner ++ events))
  | request {wish answer deeds events} (rest : Expands E deeds events) :
      Expands E (.request wish answer :: deeds) (.request wish answer :: events)

section Expands

variable {deeds more : List (Deed S)} {events others : List (Event S)}

theorem Expands.append (first : Expands E deeds events) (rest : Expands E more others) :
    Expands E (deeds ++ more) (events ++ others) := by
  induction first with
  | nothing => exact rest
  | op _ ih => exact .op ih
  | call answered _ ih =>
      rw [List.cons_append, List.cons_append, List.append_assoc]
      exact .call answered ih
  | request _ ih => exact .request ih

theorem Expands.of_append (expands : Expands E (deeds ++ more) events) :
    ∃ first rest, events = first ++ rest ∧ Expands E deeds first ∧ Expands E more rest := by
  induction deeds generalizing events with
  | nil => exact ⟨[], events, rfl, .nothing, expands⟩
  | cons deed deeds ih =>
      cases expands with
      | op rest =>
          obtain ⟨first, last, rfl, before, after⟩ := ih rest
          exact ⟨_ :: first, last, rfl, .op before, after⟩
      | call answered rest =>
          obtain ⟨first, last, rfl, before, after⟩ := ih rest
          exact ⟨_, last, by simp, .call answered before, after⟩
      | request rest =>
          obtain ⟨first, last, rfl, before, after⟩ := ih rest
          exact ⟨_ :: first, last, rfl, .request before, after⟩

/-- An operation that code outside does not make is seen only where a job makes it. -/
theorem Expands.mem_op {bad : Op S → Prop} {operation : Op S} {reply : operation.Reply}
    (answers : ∀ outside, (E.answer outside).Avoids bad) (found : bad operation)
    (expands : Expands E deeds events) :
    .op operation reply ∈ events ↔ .op operation reply ∈ deeds := by
  induction expands with
  | nothing => simp
  | op _ ih => simp [ih]
  | @call outside _ _ inner _ answered _ ih =>
      have avoids := ((answers outside).follows answers answered).2
      have absent : .op operation reply ∉ inner := fun member =>
        avoids operation reply member found
      simp [ih, absent]
  | request _ ih => simp [ih]

end Expands

/-! ## The account of a task -/

namespace Compiler

theorem Course.extend {job : Job S} {deeds more : List (Deed S)} {middle left : Prog S (Next S)}
    (course : Course job deeds middle) (path : middle.Path more left) :
    Course job (deeds ++ more) left := by
  induction course with
  | within before => exact .within (before.trans path)
  | turn play _ ih =>
      rw [List.append_assoc]
      exact .turn play (ih path)

/-- A task that has come to the end of a turn goes on with the next one. -/
theorem Course.next {job following : Job S} {deeds : List (Deed S)}
    (course : Course job deeds (.done (some following))) :
    Course job deeds (program following) := by
  generalize ended : (Prog.done (some following) : Prog S (Next S)) = left at course
  induction course with
  | within path =>
      obtain rfl := ended.symm
      simpa using Course.turn path.play_of_done (.within (.start (program following)))
  | turn play _ ih => exact .turn play (ih ended)

end Compiler

open Compiler in
/-- The events of a task since it began, and the program that it has left, if it is not
over. -/
inductive Accounts (E : Environment S) (job : Job S) :
    List (Event S) → Option (Prog S (Next S)) → Prop where
  | between {deeds events left} (course : Course job deeds left)
      (expands : Expands E deeds events) : Accounts E job events (some left)
  | finish {deeds events} (course : Course job deeds (.done none))
      (expands : Expands E deeds events) : Accounts E job events none
  /-- In the middle of a call. -/
  | calling {deeds events outside next inner code} (course : Course job deeds (.call outside next))
      (expands : Expands E deeds events) (follows : (E.answer outside).Follows E inner code) :
      Accounts E job (events ++ .call outside :: inner) (some (code.bind next))

namespace Accounts

variable {job : Job S} {events : List (Event S)}

theorem begin (job : Job S) : Accounts E job [] (some (Compiler.program job)) :=
  .between (.within (.start _)) .nothing

/-- The end of a call. -/
theorem answered {deeds : List (Deed S)} {outside : Call S}
    {next : outside.Reply → Prog S (Compiler.Next S)} {inner : List (Event S)}
    {reply : outside.Reply} (course : Compiler.Course job deeds (.call outside next))
    (expands : Expands E deeds events)
    (follows : (E.answer outside).Follows E inner (.done reply)) :
    Compiler.Course job (deeds ++ [.call outside reply]) (next reply) ∧
      Expands E (deeds ++ [.call outside reply]) (events ++ .call outside :: inner) := by
  refine ⟨course.extend (.call (.start _)), expands.append ?_⟩
  simpa using Expands.call follows .nothing

/-- A task is between two calls, or code outside has not ended its part. -/
theorem settled {left : Prog S (Compiler.Next S)} (accounts : Accounts E job events (some left)) :
    (∃ deeds, Compiler.Course job deeds left ∧ Expands E deeds events) ∨
    ∃ deeds seen outside next inner code,
      Compiler.Course job deeds (.call outside next) ∧ Expands E deeds seen ∧
      (E.answer outside).Follows E inner code ∧ events = seen ++ .call outside :: inner ∧
      left = code.bind next ∧ ∀ reply, code ≠ .done reply := by
  cases accounts with
  | between course expands => exact .inl ⟨_, course, expands⟩
  | @calling deeds seen outside next inner code course expands follows =>
      cases code with
      | done reply =>
          obtain ⟨longer, more⟩ := answered course expands follows
          exact .inl ⟨_, longer, more⟩
      | op | call | request | panic =>
          exact .inr ⟨deeds, seen, outside, next, inner, _, course, expands, follows, rfl, rfl,
            fun reply same => by cases same⟩

theorem op {operation : Op S} {next : operation.Reply → Prog S (Compiler.Next S)}
    (accounts : Accounts E job events (some (.op operation next))) (reply : operation.Reply) :
    Accounts E job (events ++ [.op operation reply]) (some (next reply)) := by
  rcases accounts.settled with ⟨deeds, course, expands⟩ |
    ⟨deeds, seen, outside, after, inner, code, course, expands, follows, rfl, same, unfinished⟩
  · exact .between (course.extend (.op (.start _))) (expands.append (.op .nothing))
  · cases code with
    | op other rest =>
        cases same
        have longer : Prog.Follows E _ (inner ++ [.op operation reply]) (rest reply) :=
          follows.trans (.op (.start _))
        rw [List.append_assoc, List.cons_append]
        exact .calling course expands longer
    | done reply => exact absurd rfl (unfinished reply)
    | call | request | panic => cases same

theorem call {outside : Call S} {next : outside.Reply → Prog S (Compiler.Next S)}
    (accounts : Accounts E job events (some (.call outside next))) :
    Accounts E job (events ++ [.call outside]) (some ((E.answer outside).bind next)) := by
  rcases accounts.settled with ⟨deeds, course, expands⟩ |
    ⟨deeds, seen, other, after, inner, code, course, expands, follows, rfl, same, unfinished⟩
  · exact .calling course expands (.start _)
  · cases code with
    | call called rest =>
        cases same
        have longer := follows.trans (.call (.start ((E.answer outside).bind rest)))
        have nested := Accounts.calling course expands longer
        rw [List.append_assoc, List.cons_append]
        change Accounts E job _ (some ((E.answer outside).bind fun reply => (rest reply).bind after))
        rw [← Prog.bind_assoc]
        exact nested
    | done reply => exact absurd rfl (unfinished reply)
    | op | request | panic => cases same

theorem request {wish : S.Request} {next : S.Answer wish → Prog S (Compiler.Next S)}
    (accounts : Accounts E job events (some (.request wish next))) (answer : S.Answer wish) :
    Accounts E job (events ++ [.request wish answer]) (some (next answer)) := by
  rcases accounts.settled with ⟨deeds, course, expands⟩ |
    ⟨deeds, seen, outside, after, inner, code, course, expands, follows, rfl, same, unfinished⟩
  · exact .between (course.extend (.request (.start _))) (expands.append (.request .nothing))
  · cases code with
    | request other rest =>
        cases same
        have longer : Prog.Follows E _ (inner ++ [.request wish answer]) (rest answer) :=
          follows.trans (.request (.start _))
        rw [List.append_assoc, List.cons_append]
        exact .calling course expands longer
    | done reply => exact absurd rfl (unfinished reply)
    | op | call | panic => cases same

/-- A program that has ended did so at the level of its job. -/
theorem ended {next : Compiler.Next S} (accounts : Accounts E job events (some (.done next))) :
    ∃ deeds, Compiler.Course job deeds (.done next) ∧ Expands E deeds events := by
  rcases accounts.settled with settled |
    ⟨deeds, seen, outside, after, inner, code, course, expands, follows, rfl, same, unfinished⟩
  · exact settled
  · cases code with
    | done reply => exact absurd rfl (unfinished reply)
    | op | call | request | panic => cases same

/-- A task that is over without a panic. -/
theorem finished (accounts : Accounts E job events none) :
    ∃ deeds, Compiler.Course job deeds (.done none) ∧ Expands E deeds events := by
  cases accounts with
  | finish course expands => exact ⟨_, course, expands⟩

end Accounts

open Compiler in
/-- The events of a task that is over, with the deeds of its job and the call that it was broken
off by, if the code outside panicked. -/
inductive Ended (E : Environment S) (job : Job S) :
    List (Event S) → List (Deed S) → Option (Call S) → Prop where
  | finished {deeds events} (course : Course job deeds (.done none))
      (expands : Expands E deeds events) : Ended E job events deeds none
  | broken {deeds events outside next inner} (course : Course job deeds (.call outside next))
      (expands : Expands E deeds events)
      (panicked : (E.answer outside).Follows E inner .panic) :
      Ended E job (events ++ .call outside :: inner) deeds (some outside)

/-! ## Traces -/

/-- A job of a driver. -/
def Job.Drives : Job S → Prop
  | .drive _ _ => True
  | _ => False

namespace Compiler

/-- Only the job of a driver goes on. -/
theorem drives_of_play {job : Job S} {deeds : List (Deed S)} {next : Next S}
    (play : (program job).Play deeds next) (goes : next ≠ none) : job.Drives := by
  cases job with
  | drive stage driver => trivial
  | run compiler callback =>
      obtain ⟨_, _, _, _, ended, _⟩ := Prog.play_bind.mp play
      exact absurd (Prog.play_pure.mp ended).2 goes
  | phases compiler | watchPhases compiler =>
      obtain ⟨_, _, _, _, reports, _⟩ := Prog.play_bind.mp play
      obtain ⟨_, _, ended, _⟩ := Prog.play_perform_bind.mp reports
      exact absurd (Prog.play_pure.mp ended).2 goes

/-- The program of a job makes no requests and never panics. Only a driver calls callbacks of
sessions. -/
theorem within_program (job : Job S) :
    (program job).Within OfJob fun outside => outside.Plain ∨ job.Drives := by
  have plain : ∀ {job : Job S} {α : Type} {step : Prog S α}, step.Within OfJob Call.Plain →
      step.Within OfJob fun outside => outside.Plain ∨ job.Drives :=
    fun within => within.mono (fun _ => id) fun _ => .inl
  have allows : ∀ compiler, AllowsPhases compiler (OfJob : Op S → Prop) Call.Plain :=
    fun compiler => allowsPhases_plain compiler trivial trivial fun _ => trivial
  have reports : ∀ phases : Phase S Compilation, phases.run.Within OfJob Call.Plain →
      (reporting phases).Within OfJob Call.Plain :=
    fun phases working => working.bind fun _ => (Prog.Within.perform trivial).bind fun _ => .pure _
  cases job with
  | run compiler callback =>
      refine plain (Prog.Within.bind ?_ fun _ => .pure _)
      refine (Prog.Within.perform trivial).bind fun _ => ?_
      refine (Prog.Within.perform trivial).bind fun _ => ?_
      refine (Prog.Within.perform trivial).bind fun _ => ?_
      refine (Prog.Within.perform trivial).bind fun result => ?_
      refine (allows compiler).within_tellFailure.bind fun _ => ?_
      refine (Prog.Within.perform trivial).bind fun _ => ?_
      refine (Prog.Within.invoke nofun).bind fun _ => ?_
      refine Prog.Within.bind (within_tell trivial fun _ => nofun) fun _ => ?_
      exact Prog.Within.perform trivial
  | phases compiler => exact plain (reports _ (allows compiler).within_phases)
  | watchPhases compiler => exact plain (reports _ (allows compiler).within_watchPhases)
  | drive stage driver =>
      exact (ofJobs_drive stage driver).mono (fun _ => id) fun _ _ => .inr trivial

theorem ofJobs_program (job : Job S) : OfJobs (program job) :=
  (within_program job).mono (fun _ => id) fun _ _ => trivial

/-- What is left of a job does not panic by itself. -/
theorem ofJobs_course {job : Job S} {deeds : List (Deed S)} {left : Prog S (Next S)}
    (course : Course job deeds left) : OfJobs left := by
  induction course with
  | within path => exact ((ofJobs_program _).path path).1
  | turn _ _ ih => exact ih

end Compiler

/-- A task panics only in the code of a call. -/
theorem Accounts.broken {job : Job S} {events : List (Event S)}
    (accounts : Accounts E job events (some .panic)) :
    ∃ deeds outside, Ended E job events deeds (some outside) := by
  rcases accounts.settled with ⟨deeds, course, expands⟩ |
    ⟨deeds, seen, outside, after, inner, code, course, expands, follows, rfl, same, unfinished⟩
  · cases Compiler.ofJobs_course course
  · cases code with
    | panic => exact ⟨deeds, outside, .broken course expands follows⟩
    | done reply => exact absurd rfl (unfinished reply)
    | op | call | request => cases same

namespace Machine

variable {start machine : Machine E} {events : List (TaskId × Event S)}

/-- A program that does not panic. -/
abbrev Calm {α : Type} (program : Prog S α) : Prop := program.Avoids fun _ => False

theorem calm_program (job : Job S) : Calm (Compiler.program job) :=
  (Compiler.ofJobs_program job).avoids fun _ _ => id

/-- No task panics. -/
theorem Trace.calm (trace : start.Trace events machine) (fresh : start.Fresh)
    (regular : E.Regular) :
    ∀ id program, machine.program? id = some program → Calm program := by
  have answers : ∀ outside, Calm (E.answer outside) := fun outside =>
    (regular outside).avoids_reports.mono fun _ => False.elim
  have kept : ∀ {machine after : Machine E} {id : TaskId} {seen : Option (Event S)},
      machine.Tidy → machine.Step id seen after →
      (∀ id program, machine.program? id = some program → Calm program) →
      ∀ id program, after.program? id = some program → Calm program := by
    intro machine after id seen tidy step calm other program found
    rcases tidy.program?_cases step found with rfl | ⟨job, -, rfl⟩ | ⟨-, held⟩
    · have unpanicked : machine.program? other ≠ some .panic := by
        intro panics
        cases calm _ _ panics
      rcases tidy.program?_self step unpanicked with ⟨operation, next, reply, runs, -, left⟩ |
        ⟨outside, next, runs, -, left⟩ | ⟨wish, next, answer, runs, -, left⟩ |
        ⟨job, runs, -, left⟩ | ⟨runs, -, left⟩
      · cases calm _ _ runs with
        | op _ rest =>
            cases left.symm.trans found
            exact rest reply
      · cases calm _ _ runs with
        | call rest =>
            cases left.symm.trans found
            exact (answers outside).bind rest
      · cases calm _ _ runs with
        | request rest =>
            cases left.symm.trans found
            exact rest answer
      · cases left.symm.trans found
        exact calm_program job
      · cases left.symm.trans found
    · exact calm_program job
    · exact calm _ _ held
  induction trace with
  | start =>
      intro id program found
      obtain ⟨code, client, rfl⟩ := fresh.clients id program found
      have calm : Calm code := client.avoids_reports.mono fun _ => False.elim
      exact calm.bind fun _ => .done none
  | seen before step ih => exact kept (before.tidy fresh) step ih
  | unseen before step ih => exact kept (before.tidy fresh) step ih

/-- A step of a task goes on with its account. -/
theorem Tidy.accounts {after : Machine E} {id : TaskId} {seen : Option (Event S)} {job : Job S}
    {own : List (Event S)} (tidy : machine.Tidy) (step : machine.Step id seen after)
    (calm : machine.program? id ≠ some .panic)
    (accounts : Accounts E job own (machine.program? id)) :
    Accounts E job (own ++ seen.toList) (after.program? id) := by
  rcases tidy.program?_self step calm with ⟨operation, next, reply, runs, rfl, left⟩ |
    ⟨outside, next, runs, rfl, left⟩ | ⟨wish, next, answer, runs, rfl, left⟩ |
    ⟨job, runs, rfl, left⟩ | ⟨runs, rfl, left⟩ <;>
    rw [runs] at accounts <;> rw [left]
  · exact accounts.op reply
  · exact accounts.call
  · exact accounts.request answer
  · obtain ⟨deeds, course, expands⟩ := accounts.ended
    rw [Option.toList_none, List.append_nil]
    exact .between course.next expands
  · obtain ⟨deeds, course, expands⟩ := accounts.ended
    rw [Option.toList_none, List.append_nil]
    exact .finish course expands

theorem Tidy.spawned_lt {spawner task : TaskId} {job : Job S} (tidy : start.Tidy)
    (trace : start.Trace events machine)
    (spawned : (spawner, .op (.spawn job) task) ∈ events) : task < machine.world.nextTask := by
  induction trace with
  | start => cases spawned
  | seen before step ih =>
      rcases List.mem_append.mp spawned with earlier | now
      · exact Nat.lt_of_lt_of_le (ih earlier) step.nextTask_le
      · cases List.mem_singleton.mp now
        obtain ⟨-, -, begun⟩ := (tidy.trace before).program?_spawned step
        exact ((tidy.trace before).step step).below _ _ begun
  | unseen before step ih => exact Nat.lt_of_lt_of_le (ih spawned) step.nextTask_le

theorem Trace.spawned_lt {spawner task : TaskId} {job : Job S}
    (trace : start.Trace events machine) (fresh : start.Fresh)
    (spawned : (spawner, .op (.spawn job) task) ∈ events) : task < machine.world.nextTask :=
  Tidy.spawned_lt ⟨fresh.pending, fresh.below⟩ trace spawned

/-- A task that is over has ended, or has broken off in a call that panicked. -/
theorem Tidy.ends {after : Machine E} {id : TaskId} {seen : Option (Event S)} {job : Job S}
    {own : List (Event S)} {program : Prog S (Compiler.Next S)} (tidy : machine.Tidy)
    (step : machine.Step id seen after) (runs : machine.program? id = some program)
    (accounts : Accounts E job own (some program)) :
    (∃ left, after.program? id = some left ∧ Accounts E job (own ++ seen.toList) (some left)) ∨
      after.program? id = none ∧ ∃ deeds broken, Ended E job (own ++ seen.toList) deeds broken := by
  by_cases panics : machine.program? id = some .panic
  · obtain rfl := Option.some.inj (runs.symm.trans panics)
    obtain ⟨deeds, outside, ended⟩ := accounts.broken
    cases step with
    | crash =>
        refine .inr ⟨?_, deeds, some outside, by simpa using ended⟩
        change (machine.remove id).program? id = none
        rw [program?_remove, if_pos rfl]
    | op other | call other | request other | turn other | finish other =>
        cases other.symm.trans panics
  · have later := tidy.accounts step panics (runs ▸ accounts)
    generalize after.program? id = state at later
    cases state with
    | some left => exact .inl ⟨left, rfl, later⟩
    | none =>
        obtain ⟨deeds, course, expands⟩ := later.finished
        exact .inr ⟨rfl, deeds, none, .finished course expands⟩

/-- The events of a task that was spawned come from its job. If it is over, it came to the end
of a turn, or was broken off by a call. -/
theorem Tidy.history {spawner task : TaskId} {job : Job S} (tidy : start.Tidy)
    (trace : start.Trace events machine) (spawned : (spawner, .op (.spawn job) task) ∈ events) :
    (∃ left, machine.program? task = some left ∧
      Accounts E job (eventsOf task events) (some left)) ∨
    machine.program? task = none ∧
      ∃ deeds broken, Ended E job (eventsOf task events) deeds broken := by
  -- A step of another task, or one of the task itself.
  have goes : ∀ {events : List (TaskId × Event S)} {machine after : Machine E} {id : TaskId}
      {seen : Option (Event S)}, start.Trace events machine → machine.Step id seen after →
      (spawner, .op (.spawn job) task) ∈ events →
      ((∃ left, machine.program? task = some left ∧
        Accounts E job (eventsOf task events) (some left)) ∨
      machine.program? task = none ∧
        ∃ deeds broken, Ended E job (eventsOf task events) deeds broken) →
      ((∃ left, after.program? task = some left ∧ Accounts E job
        (eventsOf task events ++ if id = task then seen.toList else []) (some left)) ∨
      after.program? task = none ∧ ∃ deeds broken, Ended E job
        (eventsOf task events ++ if id = task then seen.toList else []) deeds broken) := by
    intro events machine after id seen before step earlier history
    have ready := tidy.trace before
    by_cases self : id = task
    · obtain rfl := self
      rw [if_pos rfl]
      obtain ⟨program, runs⟩ := step.runs
      rcases history with ⟨left, found, accounts⟩ | ⟨absent, -⟩
      · obtain rfl := Option.some.inj (runs.symm.trans found)
        exact ready.ends step runs accounts
      · cases runs.symm.trans absent
    · rw [if_neg self, List.append_nil,
        ready.program?_other step (Ne.symm self) (tidy.spawned_lt before earlier)]
      exact history
  induction trace with
  | start => cases spawned
  | @seen events machine id event after before step ih =>
      have ready := tidy.trace before
      rw [eventsOf_append]
      rcases List.mem_append.mp spawned with earlier | now
      · have went := goes before step earlier (ih earlier)
        by_cases self : id = task
        · obtain rfl := self
          rw [if_pos rfl] at went
          rw [eventsOf_self]
          exact went
        · rw [if_neg self] at went
          rw [eventsOf_of_ne self]
          exact went
      · cases List.mem_singleton.mp now
        obtain ⟨rfl, different, begun⟩ := ready.program?_spawned step
        have nothing : eventsOf machine.world.nextTask events = [] := by
          rw [List.eq_nil_iff_forall_not_mem]
          intro event member
          exact Nat.lt_irrefl _ (tidy.lt_nextTask before (mem_eventsOf.mp member))
        rw [nothing, eventsOf_of_ne different.symm]
        exact .inl ⟨_, begun, .begin job⟩
  | @unseen events machine id after before step ih =>
      have went := goes before step spawned (ih spawned)
      rw [Option.toList_none, ite_self, List.append_nil] at went
      exact went

/-- The events of a task that was spawned come from its job, if nothing panics. -/
theorem Trace.accounts {spawner task : TaskId} {job : Job S} (trace : start.Trace events machine)
    (fresh : start.Fresh) (regular : E.Regular)
    (spawned : (spawner, .op (.spawn job) task) ∈ events) :
    Accounts E job (eventsOf task events) (machine.program? task) := by
  have answers : ∀ outside, Calm (E.answer outside) := fun outside =>
    (regular outside).avoids_reports.mono fun _ => False.elim
  rcases Tidy.history ⟨fresh.pending, fresh.below⟩ trace spawned with
    ⟨left, found, accounts⟩ | ⟨absent, deeds, broken, ended⟩
  · rw [found]
    exact accounts
  · rw [absent]
    generalize eventsOf task events = own at ended
    cases ended with
    | finished course expands => exact .finish course expands
    | broken course expands panicked =>
        have calm := (answers _).follows answers panicked
        cases calm.1

/-- A result was left by a report of its task. -/
theorem Trace.reported {task : TaskId} {result : RunResult} (trace : start.Trace events machine)
    (fresh : start.Fresh) (regular : E.Regular)
    (left : machine.world.results.get? task = some result) :
    (task, .op (.report result) ()) ∈ events := by
  induction trace with
  | start =>
      rw [fresh.noResults] at left
      cases left
  | @seen events machine id event after before step ih =>
      cases step with
      | @op operation next reply world _ runs performed =>
          have results := (World.perform_changes performed).results
          change world.results.get? task = some result at left
          rw [results] at left
          cases operation with
          | report value =>
              rw [World.resultsAfter, Table.get?_insert] at left
              split at left
              · rename_i same
                obtain rfl : task = id := by simpa using same
                cases left
                exact List.mem_append_right _ (List.mem_singleton.mpr rfl)
              · exact List.mem_append_left _ (ih left)
          | _ => exact List.mem_append_left _ (ih left)
      | call runs => exact List.mem_append_left _ (ih left)
      | request runs served => exact List.mem_append_left _ (ih left)
  | @unseen events machine id after before step ih =>
      cases step with
      | turn runs => exact ih left
      | finish runs => exact ih left
      | crash runs => cases before.calm fresh regular _ _ runs

end Machine

end Bundler
