import Bundler.Proofs.Compiler.TaskHistory

/-!
# Passages

A task that comes to a program with more to do after it does what the program does, and what the
code outside does that the program calls, before it goes on. A `Passage` says how far it has come.
`Trace.passage` finds it in what the task was seen to do from that moment on, so that a statement
about the deeds of a program holds wherever in an execution the program is used.
-/

namespace Bundler

variable {S : Setting} {E : Environment S} {α β : Type}

/-- What a task was seen to do since it came to a program: `inner`, which are the events of the
deeds of the program so far, and then `later`. -/
inductive Passage (E : Environment S) (program : Prog S α) :
    List (Event S) → List (Event S) → List (Deed S) → Prog S α → Prop where
  | between {inner deeds left} (path : program.Path deeds left) (expands : Expands E deeds inner) :
      Passage E program inner [] deeds left
  /-- In the middle of a call. -/
  | calling {inner deeds outside next pending code} (path : program.Path deeds (.call outside next))
      (expands : Expands E deeds inner) (follows : (E.answer outside).Follows E pending code) :
      Passage E program inner (.call outside :: pending) deeds (.call outside next)
  /-- The program came to its end, and the task went on. -/
  | past {inner later deeds value} (path : program.Path deeds (.done value))
      (expands : Expands E deeds inner) : Passage E program inner later deeds (.done value)

section Passage

variable {program left : Prog S α} {inner later : List (Event S)} {deeds : List (Deed S)}

theorem Passage.path (passage : Passage E program inner later deeds left) :
    program.Path deeds left := by
  cases passage with
  | between path | calling path | past path => exact path

theorem Passage.expands (passage : Passage E program inner later deeds left) :
    Expands E deeds inner := by
  cases passage with
  | between _ expands | calling _ expands | past _ expands => exact expands

end Passage

namespace Prog

/-- What two programs do one after the other is done in the first, or by the second after it. -/
theorem Follows.of_bind {first : Prog S α} {next : α → Prog S β} {events : List (Event S)}
    {left : Prog S β} (follows : (first >>= next).Follows E events left) :
    (∃ value before after, events = before ++ after ∧ first.Follows E before (.done value) ∧
      (next value).Follows E after left) ∨
    ∃ code, first.Follows E events code ∧ left = code >>= next ∧ ∀ value, code ≠ .done value := by
  generalize whole : first >>= next = program at follows
  -- A step that the second program makes, since the first has come to its end.
  have passes : ∀ {value : α} {events : List (Event S)} {left : Prog S β},
      (next value).Follows E events left →
      ∃ other before after, events = before ++ after ∧
        (Prog.done value : Prog S α).Follows E before (.done other) ∧
        (next other).Follows E after left :=
    fun beyond => ⟨_, [], _, rfl, .start _, beyond⟩
  induction follows generalizing first with
  | start program =>
      subst whole
      cases first with
      | done value => exact .inl (passes (.start _))
      | op | call | request | panic => exact .inr ⟨_, .start _, rfl, nofun⟩
  | op rest ih =>
      cases first with
      | done value =>
          have beyond := Follows.op rest
          rw [← whole] at beyond
          exact .inl (passes beyond)
      | op operation follow =>
          cases whole
          rcases ih rfl with ⟨value, before, after, rfl, within, beyond⟩ | ⟨code, within, same⟩
          · exact .inl ⟨value, _, after, rfl, .op within, beyond⟩
          · exact .inr ⟨code, .op within, same⟩
      | call | request | panic => cases whole
  | @call outside _ _ _ rest ih =>
      cases first with
      | done value =>
          have beyond := Follows.call rest
          rw [← whole] at beyond
          exact .inl (passes beyond)
      | call other follow =>
          cases whole
          have inward : (E.answer outside >>= follow) >>= next =
              E.answer outside >>= fun reply => follow reply >>= next := bind_assoc ..
          rcases ih inward with ⟨value, before, after, rfl, within, beyond⟩ | ⟨code, within, same⟩
          · exact .inl ⟨value, _, after, rfl, .call within, beyond⟩
          · exact .inr ⟨code, .call within, same⟩
      | op | request | panic => cases whole
  | request rest ih =>
      cases first with
      | done value =>
          have beyond := Follows.request rest
          rw [← whole] at beyond
          exact .inl (passes beyond)
      | request wish follow =>
          cases whole
          rcases ih rfl with ⟨value, before, after, rfl, within, beyond⟩ | ⟨code, within, same⟩
          · exact .inl ⟨value, _, after, rfl, .request within, beyond⟩
          · exact .inr ⟨code, .request within, same⟩
      | op | call | panic => cases whole

/-- What a program does with the code outside are its deeds, and then what is done of a call. -/
theorem Follows.deeds {program left : Prog S α} {events : List (Event S)}
    (follows : program.Follows E events left) :
    (∃ deeds, program.Path deeds left ∧ Expands E deeds events) ∨
    ∃ deeds outside next inner pending code, program.Path deeds (.call outside next) ∧
      Expands E deeds inner ∧ events = inner ++ .call outside :: pending ∧
      (E.answer outside).Follows E pending code ∧ left = code >>= next ∧
      ∀ reply, code ≠ .done reply := by
  induction program generalizing events with
  | done | panic =>
      cases follows
      exact .inl ⟨[], .start _, .nothing⟩
  | op operation next ih =>
      cases follows with
      | start => exact .inl ⟨[], .start _, .nothing⟩
      | op rest =>
          rcases ih _ rest with ⟨deeds, path, expands⟩ |
            ⟨deeds, outside, after, inner, pending, code, path, expands, rfl, ending⟩
          · exact .inl ⟨_, .op path, .op expands⟩
          · exact .inr ⟨_, outside, after, _, pending, code, .op path, .op expands, rfl, ending⟩
  | call outside next ih =>
      cases follows with
      | start => exact .inl ⟨[], .start _, .nothing⟩
      | call rest =>
          rcases rest.of_bind with ⟨reply, before, after, rfl, answered, beyond⟩ |
            ⟨code, within, same, unfinished⟩
          · rcases ih reply beyond with ⟨deeds, path, expands⟩ |
              ⟨deeds, other, after, inner, pending, code, path, expands, rfl, ending⟩
            · exact .inl ⟨_, .call path, .call answered expands⟩
            · exact .inr ⟨_, other, after, .call outside :: (before ++ inner), pending, code, .call path,
                .call answered expands, by simp, ending⟩
          · exact .inr ⟨[], outside, next, [], _, code, .start _, .nothing, rfl, within, same,
              unfinished⟩
  | request wish next ih =>
      cases follows with
      | start => exact .inl ⟨[], .start _, .nothing⟩
      | request rest =>
          rcases ih _ rest with ⟨deeds, path, expands⟩ |
            ⟨deeds, outside, after, inner, pending, code, path, expands, rfl, ending⟩
          · exact .inl ⟨_, .request path, .request expands⟩
          · exact .inr ⟨_, outside, after, _, pending, code, .request path, .request expands, rfl,
              ending⟩

theorem bind_ne_done {first : Prog S α} {next : α → Prog S β}
    (unfinished : ∀ value, first ≠ .done value) (value : β) : first >>= next ≠ .done value := by
  cases first with
  | done value => exact absurd rfl (unfinished value)
  | op | call | request | panic => exact nofun

end Prog

namespace Machine

variable {start machine after : Machine E} {events : List (TaskId × Event S)} {id task : TaskId}
  {program left : Prog S (Compiler.Next S)}

/-- What a task has left to do; it is over if that is a panic. -/
def StandsAt (machine : Machine E) (task : TaskId) (left : Prog S (Compiler.Next S)) : Prop :=
  machine.program? task = some left ∨ left = .panic ∧ machine.program? task = none

/-- A step of any task. A task goes on with its program, unless that has come to its end. -/
theorem Tidy.goes_on {seen : Option (Event S)} (tidy : machine.Tidy)
    (step : machine.Step id seen after) (old : task < machine.world.nextTask)
    (stands : machine.StandsAt task left) :
    (∃ next, left = .done next) ∨
    ∃ further, left.Follows E (if id = task then seen.toList else []) further ∧
      after.StandsAt task further := by
  by_cases self : id = task
  · obtain rfl := self
    rw [if_pos rfl]
    obtain ⟨program, runs⟩ := step.runs
    rcases stands with here | ⟨-, absent⟩
    · by_cases panics : machine.program? id = some .panic
      · obtain rfl := Option.some.inj (here.symm.trans panics)
        cases step with
        | crash =>
            refine .inr ⟨.panic, .start _, .inr ⟨rfl, ?_⟩⟩
            change (machine.remove id).program? id = none
            rw [program?_remove, if_pos rfl]
        | op other | call other | request other | turn other | finish other =>
            cases other.symm.trans panics
      · rcases tidy.program?_self step panics with ⟨operation, next, reply, found, rfl, now⟩ |
          ⟨outside, next, found, rfl, now⟩ | ⟨wish, next, answer, found, rfl, now⟩ |
          ⟨job, found, rfl, now⟩ | ⟨found, rfl, now⟩ <;>
          obtain rfl := Option.some.inj (here.symm.trans found)
        · exact .inr ⟨_, .op (.start _), .inl now⟩
        · exact .inr ⟨_, .call (.start _), .inl now⟩
        · exact .inr ⟨_, .request (.start _), .inl now⟩
        · exact .inl ⟨_, rfl⟩
        · exact .inl ⟨_, rfl⟩
    · cases runs.symm.trans absent
  · rw [if_neg self]
    refine .inr ⟨left, .start _, ?_⟩
    rwa [StandsAt, tidy.program?_other step (Ne.symm self) old]

/-- From where it stands a task goes on with its program, and does other things only when that has
come to its end. -/
theorem Trace.follows (trace : start.Trace events machine) (tidy : start.Tidy)
    (runs : start.program? task = some program) :
    ∃ seen later left, eventsOf task events = seen ++ later ∧ program.Follows E seen left ∧
      ((∃ next, left = .done next) ∨ later = [] ∧ machine.StandsAt task left) := by
  have old : ∀ {events : List (TaskId × Event S)} {machine : Machine E},
      start.Trace events machine → task < machine.world.nextTask := fun before =>
    Nat.lt_of_lt_of_le (tidy.below task _ runs) before.nextTask_le
  induction trace with
  | start => exact ⟨[], [], program, rfl, .start _, .inr ⟨rfl, .inl runs⟩⟩
  | @seen events machine id event after before step ih =>
      obtain ⟨seen, later, left, own, follows, stands⟩ := ih
      rw [eventsOf_append, own, List.append_assoc]
      rcases stands with ended | ⟨rfl, stands⟩
      · exact ⟨seen, _, left, rfl, follows, .inl ended⟩
      rcases (tidy.trace before).goes_on step (old before) stands with ended | ⟨further, onward, stands⟩
      · exact ⟨seen, _, left, rfl, follows, .inl ended⟩
      · refine ⟨_, [], further, ?_, follows.trans onward, .inr ⟨rfl, stands⟩⟩
        by_cases self : id = task
        · obtain rfl := self
          simp [eventsOf_self]
        · simp [eventsOf_of_ne self, self]
  | unseen before step ih =>
      obtain ⟨seen, later, left, own, follows, stands⟩ := ih
      rcases stands with ended | ⟨rfl, stands⟩
      · exact ⟨seen, later, left, own, follows, .inl ended⟩
      rcases (tidy.trace before).goes_on step (old before) stands with ended | ⟨further, onward, stands⟩
      · exact ⟨seen, [], left, own, follows, .inl ended⟩
      · rw [Option.toList_none, ite_self] at onward
        exact ⟨seen, [], further, own, by simpa using follows.trans onward, .inr ⟨rfl, stands⟩⟩

/-- What a task does after it has come to a program. -/
theorem Trace.passage {program : Prog S α} {next : α → Prog S (Compiler.Next S)}
    (trace : start.Trace events machine) (tidy : start.Tidy)
    (runs : start.program? task = some (program >>= next)) :
    ∃ inner later deeds left, eventsOf task events = inner ++ later ∧
      Passage E program inner later deeds left := by
  obtain ⟨seen, later, left, own, follows, stands⟩ := trace.follows tidy runs
  rcases follows.of_bind with ⟨value, before, beyond, rfl, within, -⟩ |
    ⟨code, within, rfl, unfinished⟩
  · rcases within.deeds with ⟨deeds, path, expands⟩ |
      ⟨deeds, outside, after, inner, pending, code, -, -, -, -, same, unfinished⟩
    · exact ⟨before, _, deeds, _, by rw [own, List.append_assoc], .past path expands⟩
    · exact absurd same.symm (Prog.bind_ne_done unfinished value)
  · rcases stands with ⟨last, same⟩ | ⟨rfl, -⟩
    · exact absurd same (Prog.bind_ne_done unfinished last)
    · rcases within.deeds with ⟨deeds, path, expands⟩ |
        ⟨deeds, outside, after, inner, pending, code, path, expands, rfl, pends, -, -⟩
      · exact ⟨seen, [], deeds, code, own, .between path expands⟩
      · exact ⟨inner, _, deeds, _, by rw [own, List.append_nil], .calling path expands pends⟩

end Machine

end Bundler
