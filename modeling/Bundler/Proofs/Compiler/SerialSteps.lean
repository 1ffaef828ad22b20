import Bundler.Proofs.Compiler.Bookkeeping
import Bundler.Proofs.Compiler.TaskHistory

/-!
# Ledgers and rights along executions

`Machine.Serial` says of a machine after some events that the ledgers fit the records of
the compilers and that every task obeys the rights that it has by the ledgers. What one
operation does to the ledgers is in `booked_of_perform`; here every step of a machine is
shown to keep the invariant, so that `Machine.Trace.serial` has it after every sequence of
steps, however the tasks take turns.
-/

namespace Bundler

open Compiler (RunKind nextRights jobRights program_obeys)

variable {S : Setting} {E : Environment S}

namespace Machine

/-- The ledgers fit the records of the compilers, and every task obeys what it has by them. -/
structure Serial (machine : Machine E) (events : List (TaskId × Event S)) : Prop where
  fits : ∀ compiler, (ledger compiler events).Fits (machine.world.compiler compiler)
  obeys : ∀ task program, machine.program? task = some program →
    program.Obeys nextRights (rightsOf events task)
  unused : ∀ task, machine.world.nextTask ≤ task → rightsOf events task = .nothing
  /-- A task that does phases has not reported. -/
  unreported : ∀ task compiler, (rightsOf events task compiler).works = true →
    ∀ result, (task, .op (.report result) ()) ∉ events

variable {start machine after : Machine E} {events : List (TaskId × Event S)} {id : TaskId}

theorem Fresh.serial (fresh : start.Fresh) : start.Serial [] where
  fits compiler := by
    have idle : (start.world.compiler compiler).state = .idle ∧
        (start.world.compiler compiler).owner = none := by
      rw [World.compiler]
      cases found : start.world.compilers[compiler]? with
      | none => exact ⟨rfl, rfl⟩
      | some record => exact fresh.idle record (List.mem_of_getElem? found)
    refine ⟨?_, ?_⟩
    · rw [idle.1]
      rfl
    · rw [idle.2]
      rfl
  obeys task program found := by
    obtain ⟨code, client, rfl⟩ := fresh.clients task program found
    exact (client.keeps _).bind fun _ => .done rfl
  unused task _ := rfl
  unreported task compiler works := by cases works

/-- What an operation does to all ledgers, wherever it is made. -/
theorem Serial.booked {operation : Op S} {next : operation.Reply → Prog S (Compiler.Next S)}
    {reply : operation.Reply} {world : World S} {preferChanges : Bool}
    (serial : machine.Serial events) (trace : start.Trace events machine) (fresh : start.Fresh)
    (regular : E.Regular) (runs : machine.program? id = some (.op operation next))
    (performed : machine.world.perform id preferChanges operation = some (reply, world)) :
    (rightsOf events id).Expects operation reply ∧ ∀ compiler,
      Booked machine.world world (rightsOf events id) id operation reply compiler
        (ledger compiler events) (ledger compiler (events ++ [(id, .op operation reply)])) := by
  have done : ∀ worker, (machine.world.results.get? worker).isSome = true → ∀ compiler,
      ∀ stretch ∈ (ledger compiler events).stretches, stretch.work ≠ .working worker := by
    intro worker left compiler stretch member working
    obtain ⟨result, found⟩ := Option.isSome_iff_exists.mp left
    have works : (rightsOf events worker compiler).works = true :=
      List.any_eq_true.mpr ⟨stretch, member, decide_eq_true working⟩
    exact serial.unreported worker compiler works result (trace.reported fresh regular found)
  cases serial.obeys id _ runs with
  | op allowed _ =>
      obtain ⟨expected, booked⟩ := booked_of_perform serial.fits (fun _ => rfl) allowed
        ((trace.tidy fresh).below id _ runs) done performed
      refine ⟨expected, fun compiler => ?_⟩
      rw [ledger_concat]
      exact booked compiler

theorem rightsOf_call (outside : Call S) (task : TaskId) :
    rightsOf (events ++ [(id, .call outside)]) task = rightsOf events task := by
  funext compiler
  rw [rightsOf, ledger_concat]
  rfl

theorem rightsOf_request (wish : S.Request) (answer : S.Answer wish) (task : TaskId) :
    rightsOf (events ++ [(id, .request wish answer)]) task = rightsOf events task := by
  funext compiler
  rw [rightsOf, ledger_concat]
  rfl

section Step

variable (serial : machine.Serial events) (trace : start.Trace events machine)
  (fresh : start.Fresh) (regular : E.Regular)
include serial trace fresh regular

/-- A task gets only answers that it expects, and then has the rights that it counts on. -/
theorem Serial.rights_self {operation : Op S} {reply : operation.Reply}
    (step : machine.Step id (some (.op operation reply)) after) :
    (rightsOf events id).Expects operation reply ∧
      rightsOf (events ++ [(id, .op operation reply)]) id =
        (rightsOf events id).after operation reply := by
  cases step with
  | op runs performed =>
      obtain ⟨expected, booked⟩ := serial.booked trace fresh regular runs performed
      exact ⟨expected, funext fun compiler => (booked compiler).own⟩

/-- A task that is not spawned keeps its rights while others make their steps. -/
theorem Serial.rights_other {event : Event S} {other : TaskId}
    (step : machine.Step id (some event) after) (different : other ≠ id)
    (unspawned : ∀ job, event ≠ .op (.spawn job) other) :
    rightsOf (events ++ [(id, event)]) other = rightsOf events other := by
  cases step with
  | @op operation _ _ _ _ runs performed =>
      obtain ⟨-, booked⟩ := serial.booked trace fresh regular runs performed
      have absent : ∀ job, (other, job) ∉ machine.world.spawnedBy operation := by
        intro job member
        cases operation with
        | spawn begun =>
            cases List.mem_singleton.mp member
            cases performed
            exact unspawned _ rfl
        | _ => cases member
      exact funext fun compiler => (booked compiler).others other different absent
  | call => exact rightsOf_call _ _
  | request => exact rightsOf_request _ _ _

/-- A spawned task has the rights of its job. -/
theorem Serial.rights_spawned {job : Job S} {task : TaskId}
    (step : machine.Step id (some (.op (.spawn job) task)) after) :
    rightsOf (events ++ [(id, .op (.spawn job) task)]) task = jobRights job := by
  obtain ⟨named, different, -⟩ := (trace.tidy fresh).program?_spawned step
  have nothing := serial.unused task (Nat.le_of_eq named.symm)
  cases step with
  | op runs performed =>
      obtain ⟨-, booked⟩ := serial.booked trace fresh regular runs performed
      have member : (task, job) ∈ machine.world.spawnedBy (.spawn job) := by
        rw [named]
        exact List.mem_singleton.mpr rfl
      exact funext fun compiler =>
        (booked compiler).spawned task job member different (congrFun nothing compiler)

theorem Serial.fits_step {event : Event S} (step : machine.Step id (some event) after)
    (compiler : CompilerId) :
    (ledger compiler (events ++ [(id, event)])).Fits (after.world.compiler compiler) := by
  cases step with
  | op runs performed =>
      exact ((serial.booked trace fresh regular runs performed).2 compiler).fits
  | call | request =>
      rw [ledger_concat]
      exact serial.fits compiler

theorem Serial.obeys_step {event : Event S} (step : machine.Step id (some event) after)
    {task : TaskId} {program : Prog S (Compiler.Next S)}
    (found : after.program? task = some program) :
    program.Obeys nextRights (rightsOf (events ++ [(id, event)]) task) := by
  have tidy := trace.tidy fresh
  rcases tidy.program?_cases step found with rfl | ⟨job, same, rfl⟩ | ⟨different, held⟩
  · have calm : machine.program? task ≠ some .panic := by
      intro panics
      cases serial.obeys task _ panics
    rcases tidy.program?_self step calm with ⟨operation, next, reply, runs, same, left⟩ |
      ⟨outside, next, runs, same, left⟩ | ⟨wish, next, answer, runs, same, left⟩ |
      ⟨job, -, same, -⟩ | ⟨-, same, -⟩
    · cases same
      cases left.symm.trans found
      obtain ⟨expected, rights⟩ := serial.rights_self trace fresh regular step
      rw [rights]
      cases serial.obeys task _ runs with
      | op _ rest => exact rest reply expected
    · cases same
      cases left.symm.trans found
      rw [rightsOf_call]
      cases serial.obeys task _ runs with
      | call _ rest => exact ((regular outside).keeps _).bind rest
    · cases same
      cases left.symm.trans found
      rw [rightsOf_request]
      cases serial.obeys task _ runs with
      | request rest => exact rest answer
    · cases same
    · cases same
  · cases same
    rw [serial.rights_spawned trace fresh regular step]
    exact program_obeys job
  · have unspawned : ∀ job, event ≠ .op (.spawn job) task := by
      rintro job rfl
      obtain ⟨named, -, -⟩ := tidy.program?_spawned step
      exact Nat.lt_irrefl _ (named ▸ tidy.below task _ held)
    rw [serial.rights_other trace fresh regular step different unspawned]
    exact serial.obeys task program held

theorem Serial.unused_step {event : Event S} (step : machine.Step id (some event) after)
    {task : TaskId} (later : after.world.nextTask ≤ task) :
    rightsOf (events ++ [(id, event)]) task = .nothing := by
  have tidy := trace.tidy fresh
  have old : machine.world.nextTask ≤ task := Nat.le_trans step.nextTask_le later
  obtain ⟨program, runs⟩ := step.runs
  have different : task ≠ id := by
    rintro rfl
    exact Nat.lt_irrefl _ (Nat.lt_of_lt_of_le (tidy.below task _ runs) old)
  have unspawned : ∀ job, event ≠ .op (.spawn job) task := by
    rintro job rfl
    obtain ⟨-, -, begun⟩ := tidy.program?_spawned step
    exact Nat.lt_irrefl _ (Nat.lt_of_lt_of_le ((tidy.step step).below task _ begun) later)
  rw [serial.rights_other trace fresh regular step different unspawned]
  exact serial.unused task old

theorem Serial.unreported_step {event : Event S} (step : machine.Step id (some event) after)
    {task : TaskId} {compiler : CompilerId}
    (works : (rightsOf (events ++ [(id, event)]) task compiler).works = true)
    (result : RunResult) : (task, .op (.report result) ()) ∉ events ++ [(id, event)] := by
  intro member
  by_cases self : task = id
  · obtain rfl := self
    cases event with
    | op operation reply =>
        rw [(serial.rights_self trace fresh regular step).2] at works
        obtain ⟨working, silent⟩ := Rights.works_of_after works
        rcases List.mem_append.mp member with earlier | now
        · exact serial.unreported task compiler working result earlier
        · cases List.mem_singleton.mp now
          exact silent result rfl
    | call outside =>
        rw [rightsOf_call] at works
        rcases List.mem_append.mp member with earlier | now
        · exact serial.unreported task compiler works result earlier
        · cases List.mem_singleton.mp now
    | request wish answer =>
        rw [rightsOf_request] at works
        rcases List.mem_append.mp member with earlier | now
        · exact serial.unreported task compiler works result earlier
        · cases List.mem_singleton.mp now
  · have earlier : (task, .op (.report result) ()) ∈ events := by
      rcases List.mem_append.mp member with earlier | now
      · exact earlier
      · cases List.mem_singleton.mp now
        exact absurd rfl self
    have unspawned : ∀ job, event ≠ .op (.spawn job) task := by
      rintro job rfl
      obtain ⟨named, -, -⟩ := (trace.tidy fresh).program?_spawned step
      exact Nat.lt_irrefl _ (named ▸ trace.lt_nextTask fresh earlier)
    rw [serial.rights_other trace fresh regular step self unspawned] at works
    exact serial.unreported task compiler works result earlier

/-- Every step keeps the ledgers and the rights in order. -/
theorem Serial.step {event : Event S} (step : machine.Step id (some event) after) :
    after.Serial (events ++ [(id, event)]) where
  fits := serial.fits_step trace fresh regular step
  obeys _ _ := serial.obeys_step trace fresh regular step
  unused _ := serial.unused_step trace fresh regular step
  unreported _ _ := serial.unreported_step trace fresh regular step

end Step

/-- A task that goes on as another job, or is over, changes no ledger. -/
theorem Serial.step_unseen (serial : machine.Serial events) (tidy : machine.Tidy)
    (step : machine.Step id none after) : after.Serial events := by
  have calm : machine.program? id ≠ some .panic := by
    intro panics
    cases serial.obeys id _ panics
  have world : after.world = machine.world := by
    cases step with
    | turn | finish => rfl
    | crash runs => exact absurd runs calm
  refine ⟨fun compiler => world ▸ serial.fits compiler, fun task program found => ?_,
    fun task later => serial.unused task (world ▸ later), serial.unreported⟩
  rcases tidy.program?_cases step found with rfl | ⟨job, same, -⟩ | ⟨-, held⟩
  · rcases tidy.program?_self step calm with ⟨_, _, _, -, same, -⟩ | ⟨_, _, -, same, -⟩ |
      ⟨_, _, _, -, same, -⟩ | ⟨job, runs, -, left⟩ | ⟨-, -, left⟩
    · cases same
    · cases same
    · cases same
    · cases left.symm.trans found
      cases serial.obeys task _ runs with
      | done rights =>
          rw [rights]
          exact program_obeys job
    · cases left.symm.trans found
  · cases same
  · exact serial.obeys task program held

theorem Trace.serial (trace : start.Trace events machine) (fresh : start.Fresh)
    (regular : E.Regular) : machine.Serial events := by
  induction trace with
  | start => exact fresh.serial
  | seen before step ih => exact ih.step before fresh regular step
  | unseen before step ih => exact ih.step_unseen (before.tidy fresh) step

end Machine

end Bundler
