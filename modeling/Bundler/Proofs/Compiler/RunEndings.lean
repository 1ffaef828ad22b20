import Bundler.Proofs.Compiler.Holders

/-!
# How single runs end

The task of a single run calls observers of `failed`, then the callback, then observers of
`after_done`, and nothing else. It gives the compiler back after the first of these. So a panic
of an observer of `failed` is the only way for the task to be over with the compiler still
running and the callback not called: `Machine.Trace.run_ended`.
-/

namespace Bundler

variable {S : Setting} {E : Environment S} {α β : Type}

/-! ## Programs that are over -/

namespace Prog

/-- What is left of a task that is over: nothing, or the rest after a call that panicked. -/
inductive Stops : Prog S α → Option (Call S) → Prop where
  | done (value : α) : Stops (.done value) none
  | call {outside next} : Stops (.call outside next) (some outside)

variable {deeds : List (Deed S)} {left : Prog S α} {broken : Option (Call S)}

/-- A task does not stop at an operation. -/
theorem Path.perform {operation : Op S} {next : operation.Reply → Prog S α}
    (path : (Prog.perform operation >>= next).Path deeds left) (stops : left.Stops broken) :
    ∃ reply rest, (next reply).Path rest left ∧ deeds = .op operation reply :: rest := by
  change Path (.op operation next) deeds left at path
  cases path with
  | start => cases stops
  | op rest => exact ⟨_, _, rest, rfl⟩

/-- A task stops at a call, or goes on from its answer. -/
theorem Path.invoke {outside : Call S} {next : outside.Reply → Prog S α}
    (path : (Prog.invoke outside >>= next).Path deeds left) (stops : left.Stops broken) :
    deeds = [] ∧ broken = some outside ∨
    ∃ reply rest, (next reply).Path rest left ∧ deeds = .call outside reply :: rest := by
  change Path (.call outside next) deeds left at path
  cases path with
  | start =>
      cases stops
      exact .inl ⟨rfl, rfl⟩
  | call rest => exact .inr ⟨_, _, rest, rfl⟩

/-- A task stops within a part, at one of the calls of the part, or comes to its end. -/
theorem Path.part {ops : Op S → Prop} {calls : Call S → Prop} {step : Prog S β}
    {next : β → Prog S α} (path : (step >>= next).Path deeds left) (stops : left.Stops broken)
    (within : step.Within ops calls) :
    (∃ outside, broken = some outside ∧ calls outside ∧ ∀ deed ∈ deeds, deed.Within ops calls) ∨
    ∃ before value after, (∀ deed ∈ before, deed.Within ops calls) ∧
      (next value).Path after left ∧ deeds = before ++ after := by
  rcases path.of_bind with ⟨remaining, inside, rfl⟩ | ⟨before, value, after, play, beyond, rfl⟩
  · obtain ⟨rest, done⟩ := within.path inside
    cases rest with
    | done value =>
        exact .inr ⟨deeds, value, [], done, .start _, (List.append_nil deeds).symm⟩
    | op => cases stops
    | call allowed =>
        cases stops
        exact .inl ⟨_, rfl, allowed, done⟩
  · exact .inr ⟨before, value, after, within.play play, beyond, rfl⟩

end Prog

/-- A task that is over did the deeds of a path that stops. -/
theorem Ended.stops {job : Job S} {events : List (Event S)} {deeds : List (Deed S)}
    {broken : Option (Call S)} (ended : Ended E job events deeds broken) :
    ∃ left, Compiler.Course job deeds left ∧ left.Stops broken := by
  cases ended with
  | finished course expands => exact ⟨_, course, .done _⟩
  | broken course expands panicked => exact ⟨_, course, .call⟩

/-- What a job does is seen. -/
theorem Expands.op_mem {deeds : List (Deed S)} {events : List (Event S)} {operation : Op S}
    {reply : operation.Reply} (expands : Expands E deeds events)
    (member : .op operation reply ∈ deeds) : .op operation reply ∈ events := by
  induction expands with
  | nothing => cases member
  | op rest ih =>
      rcases List.mem_cons.mp member with same | member
      · cases same
        exact List.mem_cons_self
      · exact List.mem_cons_of_mem _ (ih member)
  | call answered rest ih =>
      rcases List.mem_cons.mp member with same | member
      · cases same
      · exact List.mem_cons_of_mem _ (List.mem_append_right _ (ih member))
  | request rest ih =>
      rcases List.mem_cons.mp member with same | member
      · cases same
      · exact List.mem_cons_of_mem _ (ih member)

theorem Ended.op_mem {job : Job S} {events : List (Event S)} {deeds : List (Deed S)}
    {broken : Option (Call S)} {operation : Op S} {reply : operation.Reply}
    (ended : Ended E job events deeds broken) (member : .op operation reply ∈ deeds) :
    .op operation reply ∈ events := by
  cases ended with
  | finished course expands => exact expands.op_mem member
  | broken course expands panicked => exact List.mem_append_left _ (expands.op_mem member)

/-! ## The calls of a single run -/

/-- The call that a deed makes. -/
def Deed.call? : Deed S → Option (Call S)
  | .call outside _ => some outside
  | _ => none

/-- The calls of a task that is over, with the one that it was broken off by. -/
def callsOf (deeds : List (Deed S)) (broken : Option (Call S)) : List (Call S) :=
  deeds.filterMap Deed.call? ++ broken.toList

/-- A result that is handed to the callback of a run. -/
def Call.answered? : Call S → Option (S.Callback × RunResult)
  | .answer callback result => some (callback, result)
  | _ => none

/-- The callbacks of runs that a task called, with the results that they were given. -/
def answersOf (deeds : List (Deed S)) (broken : Option (Call S)) :
    List (S.Callback × RunResult) :=
  (callsOf deeds broken).filterMap Call.answered?

section Calls

variable {first rest : List (Deed S)} {broken : Option (Call S)}

@[simp]
theorem answersOf_op {operation : Op S} {reply : operation.Reply} :
    answersOf (.op operation reply :: rest) broken = answersOf rest broken := rfl

@[simp]
theorem answersOf_answer {callback : S.Callback} {result : RunResult} :
    answersOf (.call (.answer callback result) () :: rest) broken =
      (callback, result) :: answersOf rest broken := rfl

/-- Deeds that hand on no result, and others after them. -/
theorem answersOf_append {ops : Op S → Prop} {calls : Call S → Prop}
    (within : ∀ deed ∈ first, deed.Within ops calls)
    (silent : ∀ outside, calls outside → outside.answered? = none) :
    answersOf (first ++ rest) broken = answersOf rest broken := by
  induction first with
  | nil => rfl
  | cons deed first ih =>
      have later := ih fun other member => within other (List.mem_cons_of_mem deed member)
      cases deed with
      | op | request => exact later
      | call outside reply =>
          have quiet := silent outside (within _ List.mem_cons_self)
          rw [← later]
          simp [answersOf, callsOf, Deed.call?, quiet]

theorem answersOf_within {ops : Op S → Prop} {calls : Call S → Prop} {outside : Call S}
    (within : ∀ deed ∈ first, deed.Within ops calls) (stopped : calls outside)
    (silent : ∀ outside, calls outside → outside.answered? = none) :
    answersOf first (some outside) = [] := by
  rw [← List.append_nil first, answersOf_append within silent]
  simp [answersOf, callsOf, silent outside stopped]

end Calls

namespace Compiler

variable {compiler : CompilerId} {callback : S.Callback} {deeds : List (Deed S)}
  {broken : Option (Call S)}

/-- A call of an observer of `failed`. -/
def FailureCall (compiler : CompilerId) (outside : Call S) : Prop :=
  ∃ observer error, outside = .observe compiler observer (.failed error)

/-- A run has given its compiler back and has called its callback once. -/
structure RunSettled (compiler : CompilerId) (callback : S.Callback) (deeds : List (Deed S))
    (broken : Option (Call S)) : Prop where
  released : .op (.shift compiler .endRun) true ∈ deeds
  answered : ∃ result, answersOf deeds broken = [(callback, result)]

/-- A run has neither given its compiler back nor called its callback. -/
structure RunStuck (compiler : CompilerId) (deeds : List (Deed S)) (broken : Option (Call S)) :
    Prop where
  kept : ∀ accepted, .op (.shift compiler .endRun) accepted ∉ deeds
  unanswered : answersOf deeds broken = []

/-- How the task of a single run can end: in an observer of `failed`, or with the compiler given
back and the callback called. -/
def RunEnds (compiler : CompilerId) (callback : S.Callback) (deeds : List (Deed S))
    (broken : Option (Call S)) : Prop :=
  (∃ outside, broken = some outside ∧ FailureCall compiler outside) ∧
      RunStuck compiler deeds broken ∨
    (∀ outside, broken = some outside → ¬ FailureCall compiler outside) ∧
      RunSettled compiler callback deeds broken

/-- An operation that only looks at a compiler. -/
def Looks : Op S → Prop
  | .look _ => True
  | _ => False

theorem within_tell_looks (occasion : Occasion) :
    (tell compiler occasion : Prog S Unit).Within Looks fun outside =>
      ∃ observer, outside = .observe compiler observer occasion :=
  within_tell trivial fun observer => ⟨observer, rfl⟩

theorem within_tellFailure_looks (result : RunResult) :
    (tellFailure compiler result : Prog S Unit).Within Looks (FailureCall compiler) := by
  cases result with
  | ok compilation => exact .pure ()
  | error error =>
      refine (within_tell_looks (.failed error)).mono (fun _ => id) ?_
      rintro _ ⟨observer, rfl⟩
      exact ⟨observer, error, rfl⟩

theorem FailureCall.unanswered {outside : Call S} (failure : FailureCall compiler outside) :
    outside.answered? = none := by
  obtain ⟨observer, error, rfl⟩ := failure
  rfl

/-- The last part of a run: the callback, and the observers of `after_done`. -/
theorem answers_of_rest {result : RunResult} {left : Prog S (Next S)}
    (path : Prog.Path (do
      Prog.invoke (.answer callback result)
      tell compiler (.afterDone result.toOption)
      Prog.perform (.release compiler)
      return none) deeds left) (stops : left.Stops broken) :
    (∀ outside, broken = some outside → ¬ FailureCall compiler outside) ∧
      answersOf deeds broken = [(callback, result)] := by
  have silent : ∀ outside : Call S,
      (∃ observer, outside = .observe compiler observer (.afterDone result.toOption)) →
      outside.answered? = none := by
    rintro _ ⟨observer, rfl⟩
    rfl
  rcases path.invoke stops with ⟨rfl, rfl⟩ | ⟨_, later, answered, rfl⟩
  · refine ⟨?_, rfl⟩
    rintro _ same ⟨observer, error, rfl⟩
    cases same
  · rw [answersOf_answer]
    rcases answered.part stops (within_tell_looks _) with
      ⟨outside, rfl, ⟨observer, rfl⟩, told⟩ | ⟨before, _, after, told, ending, rfl⟩
    · refine ⟨?_, ?_⟩
      · rintro _ same ⟨_, error, rfl⟩
        cases same
      · rw [answersOf_within told ⟨observer, rfl⟩ silent]
    · obtain ⟨_, rest, ended, rfl⟩ := ending.perform stops
      rw [answersOf_append told silent, answersOf_op]
      cases ended with
      | start =>
          cases stops
          exact ⟨nofun, rfl⟩

theorem run_ends {left : Prog S (Next S)}
    (path : (program (.run compiler callback)).Path deeds left) (stops : left.Stops broken)
    (accepts : ∀ accepted, .op (.shift compiler .endRun) accepted ∈ deeds → accepted = true) :
    RunEnds compiler callback deeds broken := by
  have whole : (do
      Prog.perform (.acquire compiler)
      Prog.perform (.setChanges compiler ChangeSet.empty)
      let task ← Prog.perform (.spawn (.phases compiler))
      let result ← Prog.perform (.join task)
      tellFailure compiler result
      let _ ← Prog.perform (.shift compiler .endRun)
      Prog.invoke (.answer callback result)
      tell compiler (.afterDone result.toOption)
      Prog.perform (.release compiler)
      return none : Prog S (Next S)).Path deeds left := by
    simpa [program, runToEnd, bind_assoc] using path
  obtain ⟨_, _, begun, rfl⟩ := whole.perform stops
  obtain ⟨_, _, unchanged, rfl⟩ := begun.perform stops
  obtain ⟨_, _, left_, rfl⟩ := unchanged.perform stops
  obtain ⟨result, _, joined, rfl⟩ := left_.perform stops
  rcases joined.part stops (within_tellFailure_looks result) with
    ⟨outside, rfl, failure, told⟩ | ⟨before, _, after, told, failed, rfl⟩
  · refine .inl ⟨⟨outside, rfl, failure⟩, fun accepted member => ?_, ?_⟩
    · simp only [List.mem_cons, reduceCtorEq, Deed.op.injEq, false_and, false_or] at member
      exact told _ member
    · simp only [answersOf_op]
      exact answersOf_within told failure fun _ => FailureCall.unanswered
  · obtain ⟨accepted, rest, released, rfl⟩ := failed.perform stops
    obtain ⟨calm, answers⟩ := answers_of_rest released stops
    obtain rfl : accepted = true := accepts accepted (by simp)
    refine .inr ⟨calm, by simp, result, ?_⟩
    simp only [answersOf_op]
    rw [answersOf_append told fun _ => FailureCall.unanswered, answersOf_op, answers]

end Compiler

namespace Machine

variable {start machine : Machine E} {events : List (TaskId × Event S)} {panics : Prop}

/-- The task of a single run that is over has given the compiler back and called the callback
exactly once, unless an observer of `failed` panicked, and then it has done neither. -/
theorem Trace.run_ended {spawner task : TaskId} {compiler : CompilerId} {callback : S.Callback}
    (trace : start.Trace events machine) (vacant : start.Vacant panics) (hosts : E.Hosts panics)
    (spawned : (spawner, .op (.spawn (.run compiler callback)) task) ∈ events)
    (over_ : machine.program? task = none) :
    ∃ deeds broken, Ended E (.run compiler callback) (eventsOf task events) deeds broken ∧
      Compiler.RunEnds compiler callback deeds broken := by
  rcases vacant.tidy.history trace spawned with ⟨left, there, -⟩ | ⟨-, deeds, broken, ended⟩
  · cases over_.symm.trans there
  · refine ⟨deeds, broken, ended, ?_⟩
    have accepts : ∀ accepted, .op (.shift compiler .endRun) accepted ∈ deeds → accepted = true :=
      fun accepted member =>
        trace.accepted vacant hosts (mem_eventsOf.mp (ended.op_mem member)) ⟨nofun, nofun⟩
    obtain ⟨left, course, stops⟩ := ended.stops
    cases course with
    | within path => exact Compiler.run_ends path stops accepts
    | turn play later =>
        obtain ⟨before, value, _, begun, goes, rfl⟩ := Prog.play_bind.mp play
        obtain ⟨-, same⟩ := Prog.play_pure.mp goes
        cases same

end Machine

end Bundler
