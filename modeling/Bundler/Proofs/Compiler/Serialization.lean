import Bundler.Proofs.Compiler.SerialSteps

/-!
# Serialized runs

However the steps of tasks are interleaved, the runs of a compiler do not overlap.
`runs_serialized` says so of every sequence of steps: at most one run is under way and at
most one run or session owns the compiler at any time, whatever a run has code outside do
for it happens within its own stretch until that code returns, and whoever asks for a run
or a session while there is an owner is refused in one step that changes nothing else.

A callback or an observer of `after_done` may start a run while the compiler is not owned
any more but its last run is still under way. Such a run is accepted, and begins when the
stretch that the code belongs to has ended.
-/

namespace Bundler

open Compiler (RunKind)

variable {S : Setting} {E : Environment S} {α β : Type}

/-! ## Code that leaves runs under way -/

/-- An operation by which a task gives up its part in the run of a compiler. -/
def Op.Parts (compiler : CompilerId) : Op S → Prop
  | .release changed => changed = compiler
  | .spawn (.phases changed) => changed = compiler
  | .spawn (.watchPhases changed) => changed = compiler
  | .report _ => True
  | _ => False

/-- A task keeps its part in a run through all other operations. A run does not begin while
another one is under way. -/
theorem Rights.inRun_after {rights : Rights} {operation : Op S} {reply : operation.Reply}
    {compiler : CompilerId} (during : (rights compiler).InRun)
    (expected : rights.Expects operation reply) (stays : ¬ operation.Parts compiler) :
    (rights.after operation reply compiler).InRun := by
  cases operation with
  | shift changed transition =>
      cases transition <;> cases reply <;> simpa [after] using during
  | acquire changed =>
      by_cases here : changed = compiler
      · obtain rfl := here
        exact .inl (by simp [after])
      · rw [after, setGate_of_ne rights changed here]
        exact during
  | release changed =>
      rw [after, setGate_of_ne rights changed stays]
      exact during
  | spawn job =>
      cases job with
      | run => simpa [after] using during
      | drive => simpa [after] using during
      | phases changed =>
          rw [after, setGate_of_ne rights changed stays]
          exact during
      | watchPhases changed =>
          rw [after, setGate_of_ne rights changed stays]
          exact during
  | report => exact absurd trivial stays
  | join worker =>
      rcases during with held | works
      · exact .inl (by simp [after, held, Gate.back])
      · exact .inr works
  | _ => exact during

namespace Prog

/-- A program that leaves a run of a compiler under way, unless it begins one itself. -/
inductive Stays (compiler : CompilerId) : Prog S α → Prop where
  | done (value : α) : Stays compiler (.done value)
  | op {operation next} (stays : ¬ operation.Parts compiler)
      (rest : ∀ reply, Stays compiler (next reply)) : Stays compiler (.op operation next)
  | again {next} : Stays compiler (.op (.acquire compiler) next)
  | call {outside next} (rest : ∀ reply, Stays compiler (next reply)) :
      Stays compiler (.call outside next)
  | request {wish next} (rest : ∀ answer, Stays compiler (next answer)) :
      Stays compiler (.request wish next)

variable {compiler : CompilerId}

theorem Stays.bind {program : Prog S α} {next : α → Prog S β} (first : program.Stays compiler)
    (rest : ∀ value, (next value).Stays compiler) : (program >>= next).Stays compiler := by
  change (program.bind next).Stays compiler
  induction first with
  | done value => exact rest value
  | op stays _ ih => exact .op stays ih
  | again => exact .again
  | call _ ih => exact .call ih
  | request _ ih => exact .request ih

theorem Within.stays {program : Prog S α} {calls : Call S → Prop}
    (within : program.Within Op.Neutral calls) : program.Stays compiler := by
  induction within with
  | done value => exact .done value
  | @op operation next neutral _ ih =>
      refine .op (fun parts => ?_) ih
      cases operation <;> first | exact parts | exact neutral
  | call _ _ ih => exact .call ih

theorem runAsChild_stays (child : CompilerId) :
    (Compiler.runAsChild child : Prog S RunResult).Stays compiler := by
  refine .op id fun accepted => ?_
  cases accepted with
  | false => exact .done _
  | true =>
      by_cases here : child = compiler
      · obtain rfl := here
        exact .again
      · have allows := Compiler.allowsPhases_of_worker (S := S) child
        refine .op id fun _ => ?_
        refine allows.within_compile.stays.bind fun result => ?_
        refine allows.within_tellFailure.stays.bind fun _ => ?_
        exact .op id fun _ => .op here fun _ => .done _

/-- Code outside leaves the runs of its task under way. -/
theorem Client.stays {program : Prog S α} (client : program.Client) : program.Stays compiler := by
  induction client with
  | done value => exact .done value
  | @op operation next allowed _ ih =>
      refine .op (fun parts => ?_) ih
      cases operation <;> first | exact parts | exact allowed
  | call _ _ ih => exact .call ih
  | request _ ih => exact .request ih
  | run _ ih =>
      refine Stays.bind (.op id fun accepted => ?_) ih
      cases accepted with
      | false => exact .call fun _ => .done _
      | true => exact .op id fun _ => .done _
  | watch _ ih =>
      refine Stays.bind (.op id fun accepted => ?_) ih
      cases accepted with
      | false => exact .done _
      | true => exact .op id fun _ => .op id fun _ => .done _
  | runAsChild _ ih => exact (runAsChild_stays _).bind ih

theorem Follows.eq_of_nil {program left : Prog S α} (follows : Follows E program [] left) :
    left = program := by
  cases follows
  rfl

theorem Follows.of_append {program left : Prog S α} {first rest : List (Event S)}
    (follows : Follows E program (first ++ rest) left) :
    ∃ middle, Follows E program first middle ∧ Follows E middle rest left := by
  induction first generalizing program with
  | nil => exact ⟨program, .start program, follows⟩
  | cons event first ih =>
      cases follows with
      | op later =>
          obtain ⟨middle, before, after⟩ := ih later
          exact ⟨middle, .op before, after⟩
      | call later =>
          obtain ⟨middle, before, after⟩ := ih later
          exact ⟨middle, .call before, after⟩
      | request later =>
          obtain ⟨middle, before, after⟩ := ih later
          exact ⟨middle, .request before, after⟩

end Prog

/-! ## What happens within a stretch -/

/-- A call that a run of a compiler consists of. -/
def Call.OfRun (compiler : CompilerId) : Call S → Prop
  | .observe changed _ occasion => changed = compiler ∧ Compiler.OfRun occasion
  | .adjust changed _ _ _ => changed = compiler
  | .decide changed _ _ => changed = compiler
  | .build changed _ _ => changed = compiler
  | _ => False

theorem Call.OfRun.inRun {compiler : CompilerId} {outside : Call S} {rights : Rights}
    (part : outside.OfRun compiler) (allowed : rights.AllowsCall outside) :
    (rights compiler).InRun := by
  cases outside with
  | observe =>
      obtain ⟨rfl, told⟩ := part
      exact allowed told
  | adjust | decide | build =>
      obtain rfl := part
      exact allowed
  | _ => exact part.elim

namespace Machine

variable {start machine after : Machine E} {events : List (TaskId × Event S)}
  {compiler : CompilerId}

/-- From the beginning of a call of a run until the code outside returns, its task takes part
in the run, whatever that code and all other tasks do. -/
theorem Trace.participates {before during : List (TaskId × Event S)} {task : TaskId}
    {outside : Call S} {code : Prog S outside.Reply} (trace : start.Trace events machine)
    (fresh : start.Fresh) (regular : E.Regular) (part : outside.OfRun compiler)
    (whole : events = before ++ (task, .call outside) :: during)
    (under : (E.answer outside).Follows E (eventsOf task during) code) :
    (rightsOf events task compiler).InRun ∧ code.Stays compiler := by
  induction trace generalizing during code with
  | start => simp at whole
  | unseen _ _ ih => exact ih whole under
  | @seen events machine id event after trace step ih =>
      have serial := trace.serial fresh regular
      rcases List.eq_nil_or_concat during with rfl | ⟨rest, final, rfl⟩
      · obtain ⟨rfl, same⟩ := List.append_inj' whole rfl
        cases same
        refine ⟨?_, ?_⟩
        · rw [rightsOf_call]
          cases step with
          | call runs =>
              cases serial.obeys _ _ runs with
              | call allowed _ => exact part.inRun allowed
        · rw [under.eq_of_nil]
          exact (regular outside).stays
      · rw [List.concat_eq_append, ← List.cons_append, ← List.append_assoc] at whole
        obtain ⟨rfl, same⟩ := List.append_inj' whole rfl
        cases same
        rw [List.concat_eq_append, eventsOf_append] at under
        obtain ⟨middle, earlier, now⟩ := under.of_append
        obtain ⟨during, stays⟩ := ih rfl earlier
        by_cases self : id = task
        · obtain rfl := self
          rw [eventsOf_self] at now
          cases now with
          | op last =>
              obtain ⟨expected, rights⟩ := serial.rights_self trace fresh regular step
              rw [rights, last.eq_of_nil]
              cases stays with
              | op stays rest => exact ⟨Rights.inRun_after during expected stays, rest _⟩
              | again =>
                  -- Nobody begins a run while one is under way.
                  rcases during with held | works
                  · exact nomatch held.symm.trans expected.1
                  · exact nomatch works.symm.trans expected.2
          | call last =>
              rw [rightsOf_call, last.eq_of_nil]
              cases stays with
              | call rest => exact ⟨during, (regular _).stays.bind rest⟩
          | request last =>
              rw [rightsOf_request, last.eq_of_nil]
              cases stays with
              | request rest => exact ⟨during, rest _⟩
        · rw [eventsOf_of_ne self] at now
          cases now
          have unspawned : ∀ job, event ≠ .op (.spawn job) task := by
            rintro job rfl
            obtain ⟨named, -, -⟩ := (trace.tidy fresh).program?_spawned step
            have old := trace.lt_nextTask fresh
              (List.mem_append_right before List.mem_cons_self)
            exact Nat.lt_irrefl _ (named ▸ old)
          rw [serial.rights_other trace fresh regular step (Ne.symm self) unspawned]
          exact ⟨during, stays⟩

/-! ## Refusals -/

/-- The next step of a task is the refused attempt to become an owner of a compiler. It
changes nothing but what the task has left to do. -/
def Refuses (machine : Machine E) (task : TaskId) (compiler : CompilerId) (kind : RunKind)
    (left : Prog S (Compiler.Next S)) : Prop :=
  ∀ seen after, machine.Step task seen after ↔
    seen = some (.op (.shift compiler kind.entry) false) ∧ after = machine.replace task left

theorem begin_eq_self (pending : machine.world.spawned = []) : machine.begin = machine := by
  obtain ⟨world, state, tasks⟩ := machine
  obtain ⟨compilers, sessions, cache, last, next, spawned, results, drivers⟩ := world
  obtain rfl : spawned = [] := pending
  simp [begin]

/-- While somebody owns a compiler, it is not given to anybody else. -/
theorem Serial.refuses {task : TaskId} (kind : RunKind)
    {next : Bool → Prog S (Compiler.Next S)} (serial : machine.Serial events)
    (tidy : machine.Tidy) (owned : (ledger compiler events).owners ≠ [])
    (runs : machine.program? task =
      some (Prog.perform (.shift compiler kind.entry) >>= fun accepted => next accepted)) :
    machine.Refuses task compiler kind (next false) := by
  have refused : ∀ {preferChanges accepted world},
      machine.world.perform task preferChanges (.shift compiler kind.entry) =
        some (accepted, world) → accepted = false ∧ world = machine.world := by
    intro preferChanges accepted world performed
    rcases World.perform_shift performed with ⟨same, kept, -⟩ | ⟨state, -, moved, -, -⟩
    · exact ⟨same, kept⟩
    · exact absurd ((serial.fits compiler).owners.enter moved task).1 owned
  have stands : (machine.replace task (next false)).begin = machine.replace task (next false) :=
    begin_eq_self tidy.pending
  intro seen after
  constructor
  · intro step
    cases step with
    | op other performed =>
        cases runs.symm.trans other
        obtain ⟨rfl, rfl⟩ := refused performed
        exact ⟨rfl, stands⟩
    | call other => cases runs.symm.trans other
    | request other => cases runs.symm.trans other
    | turn other => cases runs.symm.trans other
    | finish other => cases runs.symm.trans other
    | crash other => cases runs.symm.trans other
  · rintro ⟨rfl, rfl⟩
    obtain ⟨accepted, world, performed⟩ : ∃ accepted world,
        machine.world.perform task false (.shift compiler kind.entry) =
          some (accepted, world) := ⟨_, _, rfl⟩
    obtain ⟨rfl, rfl⟩ := refused performed
    rw [← stands]
    exact .op runs performed

/-! ## Serialization -/

/-- The runs of a compiler are serialized, as far as some events go. -/
structure Serialized (machine : Machine E) (events : List (TaskId × Event S))
    (compiler : CompilerId) : Prop where
  /-- At most one run is under way. -/
  stretches : (ledger compiler events).stretches.length ≤ 1
  /-- At most one run or session owns the compiler. -/
  owners : (ledger compiler events).owners.length ≤ 1
  idle : (machine.world.compiler compiler).state = .idle ↔ (ledger compiler events).owners = []
  /-- A run begins when no other is under way. -/
  begins : ∀ before task after, events = before ++ (task, .op (.acquire compiler) ()) :: after →
    (ledger compiler before).stretches = []
  /-- From the beginning of a call of a run until the code outside returns, the stretch of
  the run goes on. -/
  calls : ∀ before task (outside : Call S) during code, outside.OfRun compiler →
    events = before ++ (task, .call outside) :: during →
    (E.answer outside).Follows E (eventsOf task during) code →
    ∃ stretch ∈ (ledger compiler events).stretches, stretch.Involves task
  /-- A run that is asked for while there is an owner ends at once with an error. -/
  run : (ledger compiler events).owners ≠ [] → ∀ task callback next,
    machine.program? task = some (Compiler.run compiler callback >>= next) →
    machine.Refuses task compiler .single
      (Prog.invoke (.answer callback (.error .concurrent)) >>= next)
  /-- A session that is asked for while there is an owner does not come about. -/
  watch : (ledger compiler events).owners ≠ [] → ∀ task options handler next,
    machine.program? task = some (Compiler.watch compiler options handler >>= next) →
    machine.Refuses task compiler .watch (next none)
  /-- A child that is run while there is an owner ends at once with an error. -/
  runAsChild : (ledger compiler events).owners ≠ [] → ∀ task next,
    machine.program? task = some (Compiler.runAsChild compiler >>= next) →
    machine.Refuses task compiler .single (next (.error .concurrent))

/-- In every execution, the runs of every compiler are serialized. -/
theorem runs_serialized (regular : E.Regular) (fresh : start.Fresh)
    (trace : start.Trace events machine) (compiler : CompilerId) :
    machine.Serialized events compiler := by
  have serial := trace.serial fresh regular
  have tidy := trace.tidy fresh
  have fits := serial.fits compiler
  refine {
    stretches := fits.stretches.length_le
    owners := fits.owners.length_le
    idle := fits.owners.eq_nil_iff.symm
    begins := ?_
    calls := ?_
    run := fun owned task callback next runs => ?_
    watch := fun owned task options handler next runs => ?_
    runAsChild := fun owned task next runs => ?_ }
  · rintro before task after rfl
    obtain ⟨first, second, begun, step⟩ := trace.split
    have later := ((begun.serial fresh regular).step begun fresh regular step).fits compiler
    have length := later.stretches.length_le
    rw [ledger_concat, Ledger.after, Ledger.afterOp, if_pos rfl, Ledger.openStretch,
      List.length_append] at length
    exact List.length_eq_zero_iff.mp (by simpa using length)
  · intro before task outside during code part whole under
    exact fits.stretches.of_inRun (trace.participates fresh regular part whole under).1
  · rw [Compiler.run, bind_assoc] at runs
    exact serial.refuses .single tidy owned runs
  · rw [Compiler.watch, bind_assoc] at runs
    exact serial.refuses .watch tidy owned runs
  · rw [Compiler.runAsChild, bind_assoc] at runs
    exact serial.refuses .single tidy owned runs

end Machine

/-! ## A run that is followed at once by another -/

namespace Compiler

/-- A task starts two runs of a compiler, and then wants to run it as a child. -/
def asking : Prog Setting.plain Unit := do
  run 0 ()
  run 0 ()
  let _ ← runAsChild 0

def asker : Machine Environment.inert := .hosting () [observedCompiler] asking

theorem asker_fresh : asker.Fresh := by
  have client : asking.Client := .run fun _ => .run fun _ => .runAsChild fun _ => .done ()
  refine Machine.fresh_hosting client fun record member => ?_
  obtain rfl : record = observedCompiler := by simpa using member
  exact ⟨rfl, rfl⟩

/-- The first run gives the compiler away, and the second is accepted before the callback of
the first. -/
def asked : List (TaskId × Event Setting.plain) × Machine Environment.inert :=
  Machine.playback [] asker
    (List.replicate 2 0 ++ List.replicate 3 1 ++ List.replicate 20 2 ++ List.replicate 2 1 ++
      List.replicate 2 0)

theorem asked_trace : asker.Trace asked.1 asked.2 := Machine.trace_playback .start _

theorem asked_program? : asked.2.program? 0 = some (runAsChild 0 >>= fun _ => return none) := by
  have left : asked.2.program? 0 =
      some ((runAsChild 0 >>= fun _ => pure ()) >>= fun _ => return none) := rfl
  rw [left, bind_assoc]
  rfl

/-- The second run owns the compiler while the first is still under way, and the child is
refused. -/
theorem asked_serialized :
    asked.2.Serialized asked.1 0 ∧ (ledger 0 asked.1).owners = [⟨.single, 3⟩] ∧
      (ledger 0 asked.1).stretches = [⟨1, .none⟩] ∧
      asked.2.Refuses 0 0 .single (return none) := by
  have serialized := Machine.runs_serialized Environment.inert_regular asker_fresh asked_trace 0
  have owned : (ledger 0 asked.1).owners = [⟨.single, 3⟩] := rfl
  have someone : (ledger 0 asked.1).owners ≠ [] := by
    rw [owned]
    exact List.cons_ne_nil _ _
  exact ⟨serialized, owned, rfl, serialized.runAsChild someone 0 _ asked_program?⟩

end Compiler

end Bundler
