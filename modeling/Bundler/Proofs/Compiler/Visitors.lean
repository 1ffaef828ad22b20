import Bundler.Proofs.Compiler.Clients
import Bundler.Proofs.Compiler.Execution

/-!
# Visitors

A visitor is code outside that deals with sessions through their handles alone: it asks for
runs with `invalidate` and for the end with `close`, drops handles and delivers change sets,
but neither queues signals itself nor calls callbacks, handlers or subscriptions of others. A
visitor may panic, where that is permitted. A visitor that does not panic is a client.
-/

namespace Bundler

variable {S : Setting} {E : Environment S} {α β : Type}

/-- An operation that is open to visitors. -/
def Op.Open : Op S → Prop
  | .send _ _ => False
  | operation => operation.Public

/-- A call that is open to visitors. -/
def Call.Open : Call S → Prop
  | .answer _ _ => True
  | .isFile _ _ => True
  | .read _ _ => True
  | .purge _ => True
  | .mkdir _ _ => True
  | .write _ _ _ => True
  | _ => False

theorem Op.Open.isPublic {operation : Op S} (allowed : operation.Open) : operation.Public := by
  cases operation <;> first | exact allowed | exact allowed.elim

theorem Call.Open.isPublic {outside : Call S} (allowed : outside.Open) : outside.Public := by
  cases outside <;> trivial

namespace Prog

/-- A program that uses compilers and handles of sessions, and may panic if that is
permitted. -/
inductive Visitor (panics : Prop) : Prog S α → Prop where
  | done (value : α) : Visitor panics (.done value)
  | op {operation : Op S} {next : operation.Reply → Prog S α} (allowed : operation.Open)
      (rest : ∀ reply, Visitor panics (next reply)) : Visitor panics (.op operation next)
  | call {outside : Call S} {next : outside.Reply → Prog S α} (allowed : outside.Open)
      (rest : ∀ reply, Visitor panics (next reply)) : Visitor panics (.call outside next)
  | request {wish : S.Request} {next : S.Answer wish → Prog S α}
      (rest : ∀ answer, Visitor panics (next answer)) : Visitor panics (.request wish next)
  | run {compiler : CompilerId} {callback : S.Callback} {next : Unit → Prog S α}
      (rest : ∀ value, Visitor panics (next value)) :
      Visitor panics (Compiler.run compiler callback >>= next)
  | watch {compiler : CompilerId} {options : WatchOptions} {handler : S.Handler}
      {next : Option SessionId → Prog S α} (rest : ∀ session, Visitor panics (next session)) :
      Visitor panics (Compiler.watch compiler options handler >>= next)
  | runAsChild {compiler : CompilerId} {next : RunResult → Prog S α}
      (rest : ∀ result, Visitor panics (next result)) :
      Visitor panics (Compiler.runAsChild compiler >>= next)
  | invalidate {session : SessionId} {callback : S.Callback} {next : Unit → Prog S α}
      (rest : ∀ value, Visitor panics (next value)) :
      Visitor panics (Compiler.invalidate session callback >>= next)
  | close {session : SessionId} {callback : S.Callback} {next : Unit → Prog S α}
      (rest : ∀ value, Visitor panics (next value)) :
      Visitor panics (Compiler.close session callback >>= next)
  | panic (permitted : panics) : Visitor panics .panic

variable {panics : Prop} {program : Prog S α}

/-- A visitor that does not panic is a client. -/
theorem Visitor.client (visitor : program.Visitor panics) (calm : ¬ panics) :
    program.Client := by
  induction visitor with
  | done value => exact .done value
  | op allowed _ ih => exact .op allowed.isPublic ih
  | call allowed _ ih => exact .call allowed.isPublic ih
  | request _ ih => exact .request ih
  | run _ ih => exact .run ih
  | watch _ ih => exact .watch ih
  | runAsChild _ ih => exact .runAsChild ih
  | invalidate _ ih => exact (Compiler.invalidate_client _ _).bind ih
  | close _ ih => exact (Compiler.close_client _ _).bind ih
  | panic permitted => exact absurd permitted calm

end Prog

/-- All code that is called from compilers is code of visitors. -/
def Environment.Hosts (E : Environment S) (panics : Prop) : Prop :=
  ∀ outside : Call S, (E.answer outside).Visitor panics

theorem Environment.Hosts.regular {panics : Prop} (hosts : E.Hosts panics) (calm : ¬ panics) :
    E.Regular := fun outside => (hosts outside).client calm

theorem Environment.inert_hosts (panics : Prop) : Environment.inert.Hosts panics := by
  intro outside
  cases outside <;> exact .done _

namespace Machine

/-- A machine at the beginning: compilers that nobody has, no sessions, and tasks of
visitors. -/
structure Vacant (machine : Machine E) (panics : Prop) : Prop where
  tidy : machine.Tidy
  noResults : ∀ id, machine.world.results.get? id = none
  idle : ∀ record ∈ machine.world.compilers, record.state = .idle ∧ record.owner = none
  noSessions : machine.world.sessions = []
  noDrivers : ∀ id, machine.world.drivers.get? id = none
  visitors : ∀ id program, machine.program? id = some program →
    ∃ code : Prog S Unit, code.Visitor panics ∧ program = code >>= fun _ => pure none

theorem Vacant.unowned {machine : Machine E} {panics : Prop} (vacant : machine.Vacant panics)
    (compiler : CompilerId) : (machine.world.compiler compiler).owner = none := by
  rw [World.compiler]
  cases found : machine.world.compilers[compiler]? with
  | none => rfl
  | some record => exact (vacant.idle record (List.mem_of_getElem? found)).2

theorem Vacant.fresh {machine : Machine E} {panics : Prop} (vacant : machine.Vacant panics)
    (calm : ¬ panics) : machine.Fresh where
  pending := vacant.tidy.pending
  below := vacant.tidy.below
  noResults := vacant.noResults
  idle := vacant.idle
  clients id program found := by
    obtain ⟨code, visitor, same⟩ := vacant.visitors id program found
    exact ⟨code, visitor.client calm, same⟩

theorem vacant_hosting {state : E.State} {compilers : List (CompilerRecord S)}
    {code : Prog S Unit} {panics : Prop} (visitor : code.Visitor panics)
    (idle : ∀ record ∈ compilers, record.state = .idle ∧ record.owner = none) :
    (hosting state compilers code : Machine E).Vacant panics where
  tidy := tidy_hosting state compilers code
  noResults _ := rfl
  idle := idle
  noSessions := rfl
  noDrivers _ := rfl
  visitors _ _ found := ⟨code, visitor, (program?_hosting found).2⟩

end Machine

end Bundler
