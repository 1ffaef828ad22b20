import Bundler.Compiler.Machine
import Bundler.Proofs.Compiler.Footprint

/-!
# Code outside

Code outside of compilers uses what compilers offer: it starts runs and sessions, runs
children, looks at compilers and registers observers. It does not take the parts that
belong to runs and drivers alone, and it does not panic. `Prog.Client` says so of a
program, and an environment is `Regular` if all code that it calls is of this kind.
-/

namespace Bundler

variable {S : Setting} {α β : Type}

/-- An operation that is open to code outside. -/
def Op.Public : Op S → Prop
  | .look _ => True
  | .setParent _ _ => True
  | .setInput _ _ => True
  | .setOutput _ _ => True
  | .setWatcher _ _ => True
  | .register .. => True
  | .createCompiler record => record.state = .idle ∧ record.owner = none
  | .newCompilation _ => True
  | .lookCache => True
  | .setCache _ => True
  | .retain _ => True
  | .lookSession _ => True
  | .send _ _ => True
  | .dropHandle _ => True
  | .deliver _ _ => True
  | _ => False

/-- A call that is open to code outside: all but those that make up a run. -/
def Call.Public : Call S → Prop
  | .observe _ _ occasion => ¬ Compiler.OfRun occasion
  | .adjust .. => False
  | .decide .. => False
  | .build .. => False
  | _ => True

namespace Prog

/-- A program that uses compilers as code outside may, and does not panic. -/
inductive Client : Prog S α → Prop where
  | done (value : α) : Client (.done value)
  | op {operation : Op S} {next : operation.Reply → Prog S α} (allowed : operation.Public)
      (rest : ∀ reply, Client (next reply)) : Client (.op operation next)
  | call {outside : Call S} {next : outside.Reply → Prog S α} (allowed : outside.Public)
      (rest : ∀ reply, Client (next reply)) : Client (.call outside next)
  | request {wish : S.Request} {next : S.Answer wish → Prog S α}
      (rest : ∀ answer, Client (next answer)) : Client (.request wish next)
  | run {compiler : CompilerId} {callback : S.Callback} {next : Unit → Prog S α}
      (rest : ∀ value, Client (next value)) : Client (Compiler.run compiler callback >>= next)
  | watch {compiler : CompilerId} {options : WatchOptions} {handler : S.Handler}
      {next : Option SessionId → Prog S α} (rest : ∀ session, Client (next session)) :
      Client (Compiler.watch compiler options handler >>= next)
  | runAsChild {compiler : CompilerId} {next : RunResult → Prog S α}
      (rest : ∀ result, Client (next result)) : Client (Compiler.runAsChild compiler >>= next)

theorem Client.bind {program : Prog S α} {next : α → Prog S β} (first : program.Client)
    (rest : ∀ value, (next value).Client) : (program >>= next).Client := by
  induction first with
  | done value => exact rest value
  | op allowed _ ih => exact .op allowed ih
  | call allowed _ ih => exact .call allowed ih
  | request _ ih => exact .request ih
  | run _ ih =>
      rw [LawfulMonad.bind_assoc]
      exact .run ih
  | watch _ ih =>
      rw [LawfulMonad.bind_assoc]
      exact .watch ih
  | runAsChild _ ih =>
      rw [LawfulMonad.bind_assoc]
      exact .runAsChild ih

theorem Within.client {program : Prog S α} (within : program.Within Op.Public Call.Public) :
    program.Client := by
  induction within with
  | done value => exact .done value
  | op allowed _ ih => exact .op allowed ih
  | call allowed _ ih => exact .call allowed ih

/-- The program of a task of code outside, which goes on as no job. -/
def Outside (program : Prog S (Compiler.Next S)) : Prop :=
  ∃ code : Prog S Unit, code.Client ∧ program = code >>= fun _ => pure none

/-- A program that never panics and never makes an operation of some kind. -/
inductive Avoids (bad : Op S → Prop) : Prog S α → Prop where
  | done (value : α) : Avoids bad (.done value)
  | op {operation : Op S} {next : operation.Reply → Prog S α} (allowed : ¬ bad operation)
      (rest : ∀ reply, Avoids bad (next reply)) : Avoids bad (.op operation next)
  | call {outside : Call S} {next : outside.Reply → Prog S α}
      (rest : ∀ reply, Avoids bad (next reply)) : Avoids bad (.call outside next)
  | request {wish : S.Request} {next : S.Answer wish → Prog S α}
      (rest : ∀ answer, Avoids bad (next answer)) : Avoids bad (.request wish next)

variable {bad : Op S → Prop} {program : Prog S α}

theorem Avoids.bind {next : α → Prog S β} (first : Avoids bad program)
    (rest : ∀ value, Avoids bad (next value)) : Avoids bad (program >>= next) := by
  change Avoids bad (program.bind next)
  induction first with
  | done value => exact rest value
  | op allowed _ ih => exact .op allowed ih
  | call _ ih => exact .call ih
  | request _ ih => exact .request ih

theorem Avoids.perform {operation : Op S} (allowed : ¬ bad operation) :
    Avoids bad (perform operation) := .op allowed .done

theorem Within.avoids {ops : Op S → Prop} {calls : Call S → Prop}
    (within : Within ops calls program) (good : ∀ operation, ops operation → ¬ bad operation) :
    Avoids bad program := by
  induction within with
  | done value => exact .done value
  | op allowed _ ih => exact .op (good _ allowed) ih
  | call _ _ ih => exact .call ih

theorem Avoids.mono {worse : Op S → Prop} (avoids : Avoids worse program)
    (included : ∀ operation, bad operation → worse operation) : Avoids bad program := by
  induction avoids with
  | done value => exact .done value
  | op allowed _ ih => exact .op (fun found => allowed (included _ found)) ih
  | call _ ih => exact .call ih
  | request _ ih => exact .request ih

end Prog

/-! ## What code outside may do with sessions -/

namespace Compiler

theorem invalidate_client (session : SessionId) (callback : S.Callback) :
    (invalidate session callback).Client := by
  have sends : (do
      if !(← Prog.perform (.send session (.invalidate callback))) then
        Prog.invoke (.notify callback) : Prog S Unit).Client := by
    refine .op trivial fun taken => ?_
    cases taken with
    | false => exact .call trivial fun _ => .done ()
    | true => exact .done ()
  rw [invalidate]
  have looks : (Prog.perform (.lookSession session) : Prog S (Session S)).Client :=
    .op trivial fun seen => .done seen
  refine looks.bind fun seen => ?_
  split
  · have told : Prog.Within Op.Public Call.Public
        (tell seen.compiler (.invalid none) : Prog S Unit) :=
      within_tell trivial fun _ => id
    exact told.client.bind fun _ => sends
  · exact sends

theorem close_client (session : SessionId) (callback : S.Callback) :
    (close session callback).Client := by
  refine .op trivial fun taken => ?_
  cases taken with
  | false => exact .call trivial fun _ => .done ()
  | true => exact .done ()

end Compiler

/-- All code that is called from compilers is code outside. -/
def Environment.Regular (E : Environment S) : Prop :=
  ∀ outside : Call S, (E.answer outside).Client

/-- A setting in which all observers, callbacks and handlers are the same. -/
def Setting.plain : Setting := ⟨Unit, Unit, Unit, Empty, fun _ => Empty⟩

/-- A compiler with an observer that decides against output, and one that sees the end. -/
def Compiler.observedCompiler : CompilerRecord Setting.plain where
  options := Options.forContext (.of "/")
  registry := [⟨.shouldEmit, ⟨"quiet", .outside ()⟩⟩, ⟨.done, ⟨"log", .outside ()⟩⟩]

/-- Code outside that does nothing, and decides against output. -/
def Environment.inert : Environment Setting.plain where
  State := Unit
  answer
    | .observe .. => return .ok ()
    | .adjust _ _ _ compilation => return (.ok (), compilation)
    | .decide .. => return .ok (some false)
    | .build _ _ compilation => return (.ok (), compilation)
    | .answer .. => return ()
    | .notify _ => return ()
    | .handle .. => return ()
    | .isFile .. => return false
    | .read .. => return .error .notText
    | .purge _ => return ()
    | .mkdir .. => return .ok ()
    | .write .. => return .ok ()
    | .subscribe .. => return none
    | .unsubscribe _ => return ()
  serve wish := wish.elim

theorem Environment.inert_regular : Environment.inert.Regular := by
  intro outside
  cases outside <;> exact .done _

/-- An operation that leaves the result of phases. -/
def Op.Reports : Op S → Prop
  | .report _ => True
  | _ => False

/-- An operation that code outside makes, by itself or by what compilers offer. -/
def Op.OfClient : Op S → Prop
  | .shift _ .beginRun => True
  | .shift _ .endRun => True
  | .shift _ .beginWatch => True
  | .acquire _ => True
  | .release _ => True
  | .openSession _ => True
  | .spawn (.run _ _) => True
  | .spawn (.drive _ _) => True
  | operation => operation.Public

theorem Op.Public.ofClient {operation : Op S} (allowed : operation.Public) :
    operation.OfClient := by
  cases operation <;> first | exact allowed | exact trivial | exact allowed.elim

/-- An operation that sends no signal. -/
def Op.Plain (operation : Op S) : Prop := ∀ session signal, operation ≠ .send session signal

/-- A call that calls no callback of a session. -/
def Call.Plain (outside : Call S) : Prop := ∀ callback, outside ≠ .notify callback

namespace Compiler

theorem allowsPhases_plain (compiler : CompilerId) {ops : Op S → Prop}
    (look : ops (.look compiler)) (creating : ops (.newCompilation compiler))
    (retaining : ∀ modules, ops (.retain modules)) : AllowsPhases compiler ops Call.Plain where
  look := look
  creating := creating
  retaining := retaining
  observing _ _ _ := nofun
  adjusting _ _ _ := nofun
  deciding _ _ := nofun
  building _ _ := nofun
  making _ _ := nofun
  writing _ _ _ := nofun

theorem within_run (compiler : CompilerId) (callback : S.Callback) :
    (run compiler callback).Within (fun operation => operation.OfClient ∧ operation.Plain) Call.Plain := by
  refine (Prog.Within.perform ⟨trivial, nofun⟩).bind fun accepted => ?_
  cases accepted with
  | false => exact .invoke nofun
  | true => exact (Prog.Within.perform ⟨trivial, nofun⟩).bind fun _ => .pure ()

theorem within_watch (compiler : CompilerId) (options : WatchOptions) (handler : S.Handler) :
    (watch compiler options handler).Within
      (fun operation => operation.OfClient ∧ operation.Plain) Call.Plain := by
  refine (Prog.Within.perform ⟨trivial, nofun⟩).bind fun accepted => ?_
  cases accepted with
  | false => exact .pure none
  | true =>
      refine (Prog.Within.perform ⟨trivial, nofun⟩).bind fun session => ?_
      exact (Prog.Within.perform ⟨trivial, nofun⟩).bind fun _ => .pure _

theorem within_runAsChild (compiler : CompilerId) :
    (runAsChild compiler : Prog S RunResult).Within
      (fun operation => operation.OfClient ∧ operation.Plain) Call.Plain := by
  have allows : AllowsPhases compiler
      (fun operation : Op S => operation.OfClient ∧ operation.Plain) Call.Plain :=
    allowsPhases_plain compiler ⟨trivial, nofun⟩ ⟨trivial, nofun⟩ fun _ => ⟨trivial, nofun⟩
  refine (Prog.Within.perform ⟨trivial, nofun⟩).bind fun accepted => ?_
  cases accepted with
  | false => exact .pure _
  | true =>
      refine (Prog.Within.perform ⟨trivial, nofun⟩).bind fun _ => ?_
      refine allows.within_compile.bind fun result => ?_
      refine allows.within_tellFailure.bind fun _ => ?_
      refine (Prog.Within.perform ⟨trivial, nofun⟩).bind fun _ => ?_
      exact (Prog.Within.perform ⟨trivial, nofun⟩).bind fun _ => .pure _

end Compiler

/-- Code outside makes no other operations, whatever it uses of compilers. -/
theorem Prog.Client.avoids {program : Prog S α} (client : program.Client) :
    program.Avoids fun operation => ¬ operation.OfClient := by
  induction client with
  | done value => exact .done value
  | op allowed _ ih => exact .op (fun barred => barred allowed.ofClient) ih
  | call _ _ ih => exact .call ih
  | request _ ih => exact .request ih
  | run _ ih => exact ((Compiler.within_run _ _).avoids fun _ allowed => not_not_intro allowed.1).bind ih
  | watch _ ih => exact ((Compiler.within_watch _ _ _).avoids fun _ allowed => not_not_intro allowed.1).bind ih
  | runAsChild _ ih => exact ((Compiler.within_runAsChild _).avoids fun _ allowed => not_not_intro allowed.1).bind ih

/-- Code outside leaves no results of phases. -/
theorem Prog.Client.avoids_reports {program : Prog S α} (client : program.Client) :
    program.Avoids Op.Reports :=
  client.avoids.mono fun operation reports => by
    cases operation <;> first | exact id | cases reports

end Bundler
