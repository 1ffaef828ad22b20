import Bundler.Proofs.Compiler.SessionHistory
import Bundler.Proofs.Compiler.Clients
import Mathlib.Logic.Function.Basic

/-!
# Rights of tasks

A task may own a compiler, it may have begun a run of it, or it may do the phases of a run
that another task has begun. `Rights` says which of it holds for each compiler, and how
operations change it. `Prog.Obeys` types a program by the rights that it starts with and
those that it ends with: it ends only what is its own, and calls observers and builders of a
compiler only while it takes part in a run. Code outside leaves all rights as they are,
whatever they are, and every job goes on with the rights of the next one.
-/

namespace Bundler

open Compiler (RunKind)

variable {S : Setting} {α β : Type}

/-- The part of a task in the run of a compiler that is under way. -/
inductive Gate where
  | none
  /-- The task has begun the run. -/
  | held
  /-- The task has begun the run and waits for a worker that does the phases. -/
  | lent (worker : TaskId)
  deriving DecidableEq

/-- A worker is waited for no longer. -/
def Gate.back (worker : TaskId) : Gate → Gate
  | lent other => if other = worker then held else lent other
  | gate => gate

/-- What a task has of one compiler. -/
structure Share where
  owns : Option RunKind := none
  gate : Gate := .none
  /-- The task does the phases of the run. -/
  works : Bool := false

/-- The observers of a run may be called. -/
def Share.InRun (share : Share) : Prop := share.gate = .held ∨ share.works = true

/-- What a task has of all compilers. -/
abbrev Rights := CompilerId → Share

namespace Rights

/-- No rights. -/
def nothing : Rights := fun _ => {}

def setOwns (rights : Rights) (compiler : CompilerId) (owns : Option RunKind) : Rights :=
  Function.update rights compiler { rights compiler with owns }

def setGate (rights : Rights) (compiler : CompilerId) (gate : Gate) : Rights :=
  Function.update rights compiler { rights compiler with gate }

/-- Rights on one compiler. -/
def only (compiler : CompilerId) (share : Share) : Rights :=
  Function.update nothing compiler share

section Laws

variable (rights : Rights) (compiler : CompilerId) (share : Share)

@[simp]
theorem setOwns_self (owns : Option RunKind) :
    rights.setOwns compiler owns compiler = { rights compiler with owns } := by simp [setOwns]

@[simp]
theorem setGate_self (gate : Gate) :
    rights.setGate compiler gate compiler = { rights compiler with gate } := by simp [setGate]

theorem setOwns_of_ne {other : CompilerId} (different : compiler ≠ other)
    (owns : Option RunKind) : rights.setOwns compiler owns other = rights other :=
  Function.update_of_ne different.symm _ _

theorem setGate_of_ne {other : CompilerId} (different : compiler ≠ other) (gate : Gate) :
    rights.setGate compiler gate other = rights other :=
  Function.update_of_ne different.symm _ _

@[simp]
theorem setOwns_works (owns : Option RunKind) (other : CompilerId) :
    (rights.setOwns compiler owns other).works = (rights other).works := by
  by_cases same : compiler = other
  · obtain rfl := same
    simp
  · rw [setOwns_of_ne rights compiler same]

@[simp]
theorem setGate_works (gate : Gate) (other : CompilerId) :
    (rights.setGate compiler gate other).works = (rights other).works := by
  by_cases same : compiler = other
  · obtain rfl := same
    simp
  · rw [setGate_of_ne rights compiler same]

@[simp]
theorem setOwns_inRun (owns : Option RunKind) (other : CompilerId) :
    (rights.setOwns compiler owns other).InRun ↔ (rights other).InRun := by
  by_cases same : compiler = other
  · obtain rfl := same
    simp [Share.InRun]
  · rw [setOwns_of_ne rights compiler same]

theorem setOwns_restore {owns : Option RunKind} (before : (rights compiler).owns = none) :
    (rights.setOwns compiler owns).setOwns compiler none = rights := by
  simp only [setOwns, Function.update_self, Function.update_idem, ← before, Function.update_eq_self]

/-- A run that began and ended leaves nothing behind. -/
theorem setGate_restore {owns : Option RunKind} {gate : Gate}
    (unowned : (rights compiler).owns = none) (free : (rights compiler).gate = .none) :
    ((((rights.setOwns compiler owns).setGate compiler gate).setOwns compiler none).setGate
      compiler .none) = rights := by
  simp only [setOwns, setGate, Function.update_self, Function.update_idem, ← unowned]
  rw [← free]
  exact Function.update_eq_self _ _

@[simp]
theorem only_self : only compiler share compiler = share := by simp [only]

theorem only_of_ne {other : CompilerId} (different : compiler ≠ other) :
    only compiler share other = {} := Function.update_of_ne different.symm _ _

@[simp]
theorem only_setOwns (owns : Option RunKind) :
    (only compiler share).setOwns compiler owns = only compiler { share with owns } := by
  simp [only, setOwns]

@[simp]
theorem only_setGate (gate : Gate) :
    (only compiler share).setGate compiler gate = only compiler { share with gate } := by
  simp [only, setGate]

@[simp]
theorem only_empty : only compiler {} = nothing := by simp [only, nothing]

/-- A change of every share that leaves no share out of nothing. -/
theorem map_only (change : Share → Share) (empty : change {} = {}) :
    (fun other => change (only compiler share other)) = only compiler (change share) := by
  funext other
  by_cases same : other = compiler
  · obtain rfl := same
    simp
  · rw [only_of_ne _ _ (Ne.symm same), only_of_ne _ _ (Ne.symm same), empty]

end Laws

/-- An operation that a task may make. It gives away only what is its own. -/
def Allows (rights : Rights) : Op S → Prop
  | .shift compiler .endRun => (rights compiler).owns = some .single
  | .shift compiler .beginWatchRun => (rights compiler).owns = some .watch
  | .shift compiler .endWatchRun => (rights compiler).owns = some .watch
  | .shift compiler .endWatch => (rights compiler).owns = some .watch
  | .acquire compiler => (rights compiler).owns.isSome = true
  | .release compiler => (rights compiler).gate = .held
  | .createCompiler record => record.state = .idle ∧ record.owner = none
  | .spawn (.run compiler _) => (rights compiler).owns = some .single
  | .spawn (.phases compiler) => (rights compiler).gate = .held
  | .spawn (.watchPhases compiler) => (rights compiler).gate = .held
  | .spawn (.drive .waiting driver) => (rights driver.compiler).owns = some .watch
  | .spawn (.drive _ _) => False
  | _ => True

/-- An answer that a task may get: a run or a session of a compiler begins only if nobody
owns it, and goes on only if nobody has a run under way. -/
def Expects (rights : Rights) : (operation : Op S) → operation.Reply → Prop
  | .shift compiler .beginRun, true => (rights compiler).owns = none
  | .shift compiler .beginWatch, true => (rights compiler).owns = none
  | .acquire compiler, _ => (rights compiler).gate = .none ∧ (rights compiler).works = false
  | _, _ => True

/-- The rights of a task after an operation. -/
def after (rights : Rights) : (operation : Op S) → operation.Reply → Rights
  | .shift compiler .beginRun, true => rights.setOwns compiler (some .single)
  | .shift compiler .beginWatch, true => rights.setOwns compiler (some .watch)
  | .shift compiler .endRun, _ => rights.setOwns compiler none
  | .shift compiler .endWatch, _ => rights.setOwns compiler none
  | .acquire compiler, _ => rights.setGate compiler .held
  | .release compiler, _ => rights.setGate compiler .none
  | .spawn (.run compiler _), _ => rights.setOwns compiler none
  | .spawn (.phases compiler), worker => rights.setGate compiler (.lent worker)
  | .spawn (.watchPhases compiler), worker => rights.setGate compiler (.lent worker)
  | .spawn (.drive _ driver), _ => rights.setOwns driver.compiler none
  | .report _, _ => fun compiler => { rights compiler with works := false }
  | .join worker, _ => fun compiler =>
    { rights compiler with gate := (rights compiler).gate.back worker }
  | _, _ => rights

/-- A task gets the run back from its worker. -/
theorem after_join (owns : Option RunKind) (compiler : CompilerId) (worker : TaskId)
    (result : RunResult) :
    (only compiler { owns, gate := .lent worker }).after (.join worker : Op S) result =
      only compiler { owns, gate := .held } := by
  have mapped := map_only compiler { owns, gate := .lent worker }
    (fun share => { share with gate := share.gate.back worker }) rfl
  refine mapped.trans ?_
  simp [Gate.back]

/-- A worker that has reported has no rights left. -/
theorem after_report (compiler : CompilerId) (result : RunResult) :
    (only compiler { works := true }).after (.report result : Op S) () = nothing := by
  have mapped := map_only compiler { works := true }
    (fun share => { share with works := false }) rfl
  refine mapped.trans ?_
  simp

/-- A task that does phases did so before, and has not just reported. -/
theorem works_of_after {rights : Rights} {operation : Op S} {reply : operation.Reply}
    {compiler : CompilerId} (works : (rights.after operation reply compiler).works = true) :
    (rights compiler).works = true ∧ ∀ result, operation ≠ .report result := by
  cases operation with
  | shift changed transition =>
      refine ⟨?_, fun result same => by cases same⟩
      cases transition <;> cases reply <;> simpa [after] using works
  | spawn job =>
      refine ⟨?_, fun result same => by cases same⟩
      cases job <;> simpa [after] using works
  | acquire | release | join =>
      refine ⟨?_, fun result same => by cases same⟩
      simpa [after] using works
  | report => cases works
  | _ => exact ⟨works, fun result same => by cases same⟩

/-- A call that a task may make: those that make up a run belong to the tasks of the run. -/
def AllowsCall (rights : Rights) : Call S → Prop
  | .observe compiler _ occasion => Compiler.OfRun occasion → (rights compiler).InRun
  | .adjust compiler _ _ _ => (rights compiler).InRun
  | .decide compiler _ _ => (rights compiler).InRun
  | .build compiler _ _ => (rights compiler).InRun
  | _ => True

end Rights

/-- An operation that changes the rights of no task. -/
def Op.Neutral : Op S → Prop
  | .shift _ _ => False
  | .acquire _ => False
  | .release _ => False
  | .createCompiler record => record.state = .idle ∧ record.owner = none
  | .spawn _ => False
  | .report _ => False
  | .join _ => False
  | _ => True

theorem Op.Neutral.allows {operation : Op S} (neutral : operation.Neutral) (rights : Rights) :
    rights.Allows operation := by
  cases operation <;> first | exact neutral.elim | exact neutral

theorem Op.Neutral.after {operation : Op S} (neutral : operation.Neutral) (rights : Rights)
    (reply : operation.Reply) : rights.after operation reply = rights := by
  cases operation <;> first | exact neutral.elim | rfl

theorem Op.Public.neutral {operation : Op S} (allowed : operation.Public) :
    operation.Neutral := by
  cases operation <;> first | exact allowed.elim | exact allowed

theorem Call.Public.allows {outside : Call S} (allowed : outside.Public) (rights : Rights) :
    rights.AllowsCall outside := by
  cases outside with
  | observe => exact fun told => absurd told allowed
  | adjust | decide | build => exact allowed.elim
  | _ => trivial

/-! ## Programs with rights -/

namespace Prog

/-- A program that does only what its rights allow, whatever it may expect as answers. When
it ends with a value it has the rights that `ending` gives for the value. -/
inductive Obeys (ending : α → Rights) : Rights → Prog S α → Prop where
  | done {rights value} (left : rights = ending value) : Obeys ending rights (.done value)
  | op {rights operation next} (allowed : rights.Allows operation)
      (rest : ∀ reply, rights.Expects operation reply →
        Obeys ending (rights.after operation reply) (next reply)) :
      Obeys ending rights (.op operation next)
  | call {rights outside next} (allowed : rights.AllowsCall outside)
      (rest : ∀ reply, Obeys ending rights (next reply)) :
      Obeys ending rights (.call outside next)
  | request {rights wish next} (rest : ∀ answer, Obeys ending rights (next answer)) :
      Obeys ending rights (.request wish next)

/-- A program that ends with the rights that it started with. -/
abbrev Keeps (rights : Rights) (program : Prog S α) : Prop :=
  Obeys (fun _ => rights) rights program

namespace Obeys

variable {rights : Rights} {program : Prog S α} {middle : α → Rights} {ending : β → Rights}

theorem bind {next : α → Prog S β} (first : Obeys middle rights program)
    (rest : ∀ value, Obeys ending (middle value) (next value)) :
    Obeys ending rights (program >>= next) := by
  change Obeys ending rights (program.bind next)
  induction first with
  | done left => exact left ▸ rest _
  | op allowed _ ih => exact .op allowed ih
  | call allowed _ ih => exact .call allowed ih
  | request _ ih => exact .request ih

/-- An operation, followed by a program with the rights after it. -/
theorem perform {operation : Op S} {next : operation.Reply → Prog S β}
    (allowed : rights.Allows operation)
    (rest : ∀ reply, rights.Expects operation reply →
      Obeys ending (rights.after operation reply) (next reply)) :
    Obeys ending rights (Prog.perform operation >>= next) := .op allowed rest

theorem invoke {outside : Call S} {next : outside.Reply → Prog S β}
    (allowed : rights.AllowsCall outside) (rest : ∀ reply, Obeys ending rights (next reply)) :
    Obeys ending rights (Prog.invoke outside >>= next) := .call allowed rest

end Obeys

theorem Within.keeps {rights : Rights} {program : Prog S α}
    (within : program.Within Op.Neutral rights.AllowsCall) : program.Keeps rights := by
  induction within with
  | done value => exact .done rfl
  | op neutral _ ih =>
      refine .op (neutral.allows rights) fun reply _ => ?_
      rw [neutral.after rights reply]
      exact ih reply
  | call allowed _ ih => exact .call allowed ih

end Prog

namespace Compiler

variable {rights : Rights} {compiler : CompilerId}

/-- A task of a run may do the phases of the run, except to have them done. -/
theorem allowsPhases_of_inRun (during : (rights compiler).InRun) :
    AllowsPhases compiler (Op.Neutral (S := S)) rights.AllowsCall where
  look := trivial
  creating := trivial
  retaining _ := trivial
  observing _ _ _ _ := during
  adjusting _ _ _ := during
  deciding _ _ := during
  building _ _ := during
  making _ _ := trivial
  writing _ _ _ := trivial

/-- What the phases of a run need is what a worker may do. -/
theorem allowsPhases_of_worker (compiler : CompilerId) :
    AllowsPhases compiler (Op.Neutral (S := S))
      (Rights.only compiler { works := true }).AllowsCall :=
  allowsPhases_of_inRun (.inr (by simp))

theorem run_keeps (callback : S.Callback) : (run compiler callback).Keeps rights := by
  refine .perform trivial fun accepted expected => ?_
  cases accepted with
  | false => exact .call trivial fun _ => .done rfl
  | true =>
      refine .perform (by simp [Rights.Allows, Rights.after]) fun _ _ => ?_
      exact .done (rights.setOwns_restore compiler expected)

theorem watch_keeps (options : WatchOptions) (handler : S.Handler) :
    (watch compiler options handler).Keeps rights := by
  refine .perform trivial fun accepted expected => ?_
  cases accepted with
  | false => exact .done rfl
  | true =>
      refine .perform trivial fun session _ => ?_
      refine .perform (by simp [Rights.Allows, Rights.after]) fun _ _ => ?_
      exact .done (rights.setOwns_restore compiler expected)

theorem runAsChild_keeps : (runAsChild compiler : Prog S _).Keeps rights := by
  refine .perform trivial fun accepted expected => ?_
  cases accepted with
  | false => exact .done rfl
  | true =>
      refine .perform (by simp [Rights.Allows, Rights.after]) fun _ free => ?_
      have unused : (rights compiler).gate = .none := by simpa [Rights.after] using free.1
      have allows : AllowsPhases compiler (Op.Neutral (S := S))
          ((rights.setOwns compiler (some .single)).setGate compiler .held).AllowsCall :=
        allowsPhases_of_inRun (.inl (by simp))
      refine allows.within_compile.keeps.bind fun result => ?_
      refine allows.within_tellFailure.keeps.bind fun _ => ?_
      refine .perform (by simp [Rights.Allows]) fun _ _ => ?_
      refine .perform (by simp [Rights.Allows, Rights.after]) fun _ _ => ?_
      exact .done (rights.setGate_restore compiler expected unused)

end Compiler

/-- Code outside leaves the rights of its task as they are. -/
theorem Prog.Client.keeps {program : Prog S α} (client : program.Client) (rights : Rights) :
    program.Keeps rights := by
  induction client with
  | done value => exact .done rfl
  | op allowed _ ih =>
      refine .op (allowed.neutral.allows rights) fun reply _ => ?_
      rw [allowed.neutral.after rights reply]
      exact ih reply
  | call allowed _ ih => exact .call (allowed.allows rights) ih
  | request _ ih => exact .request ih
  | run _ ih => exact (Compiler.run_keeps _).bind ih
  | watch _ ih => exact (Compiler.watch_keeps _ _).bind ih
  | runAsChild _ ih => exact Compiler.runAsChild_keeps.bind ih

end Bundler
