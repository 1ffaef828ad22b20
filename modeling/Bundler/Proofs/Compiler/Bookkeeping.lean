import Bundler.Proofs.Compiler.JobRights
import Bundler.Proofs.Compiler.Ledger

/-!
# Bookkeeping

What one operation does to the ledgers. If the ledgers fit the records of their compilers
and a task makes an operation that its rights allow, then it gets only answers that it
expects, the ledgers fit again, the task has by the ledgers the rights that
`Rights.after` gives it, a task that it spawns has those of its job, and all other tasks have
what they had. `booked_of_perform` says so of every operation.
-/

namespace Bundler

open Compiler (RunKind)

variable {S : Setting}

/-- A change of an element depends only on what it makes of that element. -/
theorem modify_congr {α : Type} {list : List α} {index : Nat} {element : α}
    {change other : α → α} (found : list[index]? = some element)
    (same : change element = other element) :
    list.modify index change = list.modify index other := by
  ext1 position
  rw [List.getElem?_modify, List.getElem?_modify]
  by_cases here : index = position
  · obtain rfl := here
    simp [found, same]
  · simp [here]

/-! ## Operations and the records of compilers -/

namespace World

variable {world after : World S} {task : TaskId} {preferChanges : Bool}

theorem compiler_change (changed compiler : CompilerId)
    (change : CompilerRecord S → CompilerRecord S) :
    (world.changeCompiler changed change).compiler compiler =
      if changed = compiler ∧ compiler < world.compilers.length then
        change (world.compiler compiler)
      else world.compiler compiler := by
  simp only [World.compiler, changeCompiler, List.getElem?_modify]
  by_cases inside : compiler < world.compilers.length
  · by_cases same : changed = compiler <;> simp [inside, same]
  · simp [inside]

/-- A compiler that does not exist looks like one that nobody has. -/
theorem exists_of_busy {compiler : CompilerId}
    (busy : (world.compiler compiler).state ≠ .idle ∨ (world.compiler compiler).owner ≠ none) :
    compiler < world.compilers.length := by
  by_contra outside
  have absent : world.compilers[compiler]? = none :=
    List.getElem?_eq_none (Nat.le_of_not_lt outside)
  have standard : world.compiler compiler = default := by rw [World.compiler, absent]; rfl
  rw [standard] at busy
  rcases busy with busy | busy <;> exact busy rfl

/-- A change of owner is made as the states allow, or refused; a refused one changes nothing. -/
theorem perform_shift {compiler : CompilerId} {transition : Transition} {accepted : Bool}
    (performed : world.perform task preferChanges (.shift compiler transition) =
      some (accepted, after)) :
    (accepted = false ∧ after = world ∧ ((world.compiler compiler).state = .idle ∨
      (world.compiler compiler).state.next? transition = none)) ∨
    ∃ state, accepted = true ∧ (world.compiler compiler).state.next? transition = some state ∧
      compiler < world.compilers.length ∧
      after = world.changeCompiler compiler fun record => { record with state } := by
  cases performed
  cases found : world.compilers[compiler]? with
  | none =>
      refine .inl ⟨by simp, ?_, .inl (by rw [World.compiler, found]; rfl)⟩
      have outside : world.compilers.length ≤ compiler := List.getElem?_eq_none_iff.mp found
      rw [changeCompiler, List.modify_eq_self outside]
  | some record =>
      have here : world.compiler compiler = record := by rw [World.compiler, found]; rfl
      rw [here]
      cases moved : record.state.next? transition with
      | none =>
          refine .inl ⟨by simp [moved], ?_, .inr rfl⟩
          have kept : ({ record with state := record.state.after transition } : CompilerRecord S) =
              id record := by rw [record.state.after_of_refused transition moved]; rfl
          rw [changeCompiler, modify_congr found kept, List.modify_id]
      | some state =>
          obtain ⟨inside, -⟩ := List.getElem?_eq_some_iff.mp found
          refine .inr ⟨state, by simp [moved], rfl, inside, ?_⟩
          have made : record.state.after transition = state := by simp [RunState.after, moved]
          rw [changeCompiler, changeCompiler, modify_congr found (by rw [made])]

theorem nextTask_ne_of_unspawned {job : Job S} {other : TaskId}
    (absent : ∀ begun, (other, begun) ∉ world.spawnedBy (.spawn job)) :
    world.nextTask ≠ other := by
  rintro rfl
  exact absent job (List.mem_singleton.mpr rfl)

/-- An operation that changes no rights leaves every compiler with its state and owner. -/
theorem perform_neutral {operation : Op S} {reply : operation.Reply}
    (neutral : operation.Neutral)
    (performed : world.perform task preferChanges operation = some (reply, after))
    (compiler : CompilerId) :
    (after.compiler compiler).state = (world.compiler compiler).state ∧
      (after.compiler compiler).owner = (world.compiler compiler).owner := by
  have changed : ∀ (id : CompilerId) (change : CompilerRecord S → CompilerRecord S),
      (∀ record, (change record).state = record.state ∧ (change record).owner = record.owner) →
      ((world.changeCompiler id change).compiler compiler).state =
          (world.compiler compiler).state ∧
        ((world.changeCompiler id change).compiler compiler).owner =
          (world.compiler compiler).owner := by
    intro id change kept
    rw [compiler_change]
    split
    · exact kept _
    · exact ⟨rfl, rfl⟩
  by_cases sessional : OnSessions operation
  · obtain ⟨sessions, rfl⟩ := perform_onSessions sessional performed
    exact ⟨rfl, rfl⟩
  · cases operation with
    | setChanges | setParent | setInput | setOutput | setWatcher | register =>
        cases performed
        exact changed _ _ fun _ => ⟨rfl, rfl⟩
    | look | newCompilation | lookCache | setCache | retain =>
        cases performed
        exact ⟨rfl, rfl⟩
    | createCompiler record =>
        cases performed
        obtain ⟨idle, unowned⟩ := neutral
        simp only [World.compiler, List.getElem?_append]
        by_cases inside : compiler < world.compilers.length
        · rw [if_pos inside]
          exact ⟨rfl, rfl⟩
        · rw [if_neg inside, List.getElem?_eq_none (Nat.le_of_not_lt inside)]
          cases compiler - world.compilers.length with
          | zero => exact ⟨idle, unowned⟩
          | succ => exact ⟨rfl, rfl⟩
    | shift | acquire | release | spawn | report | join => exact neutral.elim
    | _ => exact (sessional trivial).elim

end World

/-! ## What one operation does to one ledger -/

/-- The ledger of a compiler after an operation fits its record, and gives every task what
it has. -/
structure Booked (world after : World S) (rights : Rights) (task : TaskId) (operation : Op S)
    (reply : operation.Reply) (compiler : CompilerId) (before booked : Ledger) : Prop where
  fits : booked.Fits (after.compiler compiler)
  own : booked.share task = rights.after operation reply compiler
  spawned : ∀ other job, (other, job) ∈ world.spawnedBy operation → other ≠ task →
    before.share other = {} → booked.share other = Compiler.jobRights job compiler
  others : ∀ other, other ≠ task → (∀ job, (other, job) ∉ world.spawnedBy operation) →
    booked.share other = before.share other

section Booked

variable {world after : World S} {rights : Rights} {task : TaskId} {preferChanges : Bool}
  {compiler : CompilerId} {before : Ledger}

/-- An operation that has nothing to do with a compiler. -/
theorem Booked.unchanged {operation : Op S} {reply : operation.Reply}
    (fits : before.Fits (world.compiler compiler)) (own : before.share task = rights compiler)
    (standing : (after.compiler compiler).state = (world.compiler compiler).state ∧
      (after.compiler compiler).owner = (world.compiler compiler).owner)
    (kept : rights.after operation reply compiler = rights compiler)
    (elsewhere : ∀ other job, (other, job) ∈ world.spawnedBy operation →
      Compiler.jobRights job compiler = {}) :
    Booked world after rights task operation reply compiler before before where
  fits := ⟨standing.1 ▸ fits.owners, standing.2 ▸ fits.stretches⟩
  own := own.trans kept.symm
  spawned other job member _ nothing := nothing.trans (elsewhere other job member).symm
  others _ _ _ := rfl

variable (fits : before.Fits (world.compiler compiler))
  (own : before.share task = rights compiler)
include fits own

theorem booked_neutral {operation : Op S} {reply : operation.Reply} (neutral : operation.Neutral)
    (performed : world.perform task preferChanges operation = some (reply, after)) :
    Booked world after rights task operation reply compiler before
      (before.afterOp compiler task operation reply) := by
  have same : before.afterOp compiler task operation reply = before := by
    cases operation <;> first | exact neutral.elim | rfl
  rw [same]
  refine .unchanged fits own (World.perform_neutral neutral performed compiler) ?_ ?_
  · rw [neutral.after]
  · intro other job member
    cases operation <;> first | exact neutral.elim | cases member

theorem booked_enter (kind : RunKind) {accepted : Bool}
    (performed : world.perform task preferChanges (.shift compiler kind.entry) =
      some (accepted, after)) :
    rights.Expects (.shift compiler kind.entry : Op S) accepted ∧
      Booked world after rights task (.shift compiler kind.entry) accepted compiler before
        (before.afterOp compiler task (.shift compiler kind.entry : Op S) accepted) := by
  rcases World.perform_shift performed with
    ⟨rfl, rfl, -⟩ | ⟨state, rfl, moved, inside, rfl⟩
  · have refused : rights.Expects (.shift compiler kind.entry : Op S) false := by
      cases kind <;> trivial
    have same : before.afterOp compiler task (.shift compiler kind.entry : Op S) false =
        before := by cases kind <;> rfl
    have kept : rights.after (.shift compiler kind.entry : Op S) false compiler =
        rights compiler := by cases kind <;> rfl
    rw [same]
    exact ⟨refused, .unchanged fits own ⟨rfl, rfl⟩ kept fun _ _ member => by cases member⟩
  · obtain ⟨unowned, owned⟩ := fits.owners.enter moved task
    have nobody : (rights compiler).owns = none := by rw [← own, Ledger.share, unowned]; rfl
    have expected : rights.Expects (.shift compiler kind.entry : Op S) true := by
      cases kind <;> exact nobody
    have entered : before.afterOp compiler task (.shift compiler kind.entry : Op S) true =
        before.enter ⟨kind, task⟩ := by cases kind <;> simp [Ledger.afterOp, RunKind.entry]
    have given : rights.after (.shift compiler kind.entry : Op S) true =
        rights.setOwns compiler (some kind) := by cases kind <;> rfl
    rw [entered]
    refine ⟨expected, ⟨?_, ?_, fun _ _ member => (by cases member), fun other different _ => ?_⟩⟩
    · rw [World.compiler_change, if_pos ⟨rfl, inside⟩]
      refine ⟨?_, fits.stretches⟩
      rw [Ledger.enter, unowned]
      exact owned
    · rw [Ledger.share_enter task unowned, if_pos rfl, own, given, Rights.setOwns_self]
    · rw [Ledger.share_enter other unowned, if_neg different.symm]

theorem booked_exit (kind : RunKind) {accepted : Bool}
    (owns : (rights compiler).owns = some kind)
    (performed : world.perform task preferChanges (.shift compiler kind.exit) =
      some (accepted, after)) :
    Booked world after rights task (.shift compiler kind.exit) accepted compiler before
      (before.afterOp compiler task (.shift compiler kind.exit : Op S) accepted) := by
  have owned : before.owners = [⟨kind, task⟩] := fits.owners.of_owns (by rw [← owns, ← own]; rfl)
  have fit := fits.owners
  rw [owned] at fit
  have left : before.afterOp compiler task (.shift compiler kind.exit : Op S) accepted =
      before.leave ⟨kind, task⟩ := by cases kind <;> simp [Ledger.afterOp, RunKind.exit]
  have given : rights.after (.shift compiler kind.exit : Op S) accepted =
      rights.setOwns compiler none := by cases kind <;> rfl
  rcases World.perform_shift performed with
    ⟨-, -, idle | refused⟩ | ⟨state, -, moved, inside, rfl⟩
  · rw [idle] at fit
    cases fit
  · rw [fit.exit] at refused
    cases refused
  · obtain rfl : RunState.idle = state := Option.some.inj (fit.exit.symm.trans moved)
    rw [left]
    refine ⟨?_, ?_, fun _ _ member => (by cases member), fun other different _ => ?_⟩
    · rw [World.compiler_change, if_pos ⟨rfl, inside⟩]
      refine ⟨?_, fits.stretches⟩
      simp [Ledger.leave, owned, OwnersFit]
    · rw [Ledger.share_leave task owned, if_pos rfl, own, given, Rights.setOwns_self]
    · rw [Ledger.share_leave other owned, if_neg different.symm]

/-- A session marks the beginning and the end of its runs in the state that it has. -/
theorem booked_mark {transition : Transition} {accepted : Bool}
    (mark : transition = .beginWatchRun ∨ transition = .endWatchRun)
    (owns : (rights compiler).owns = some .watch)
    (performed : world.perform task preferChanges (.shift compiler transition) =
      some (accepted, after)) :
    Booked world after rights task (.shift compiler transition) accepted compiler before
      (before.afterOp compiler task (.shift compiler transition : Op S) accepted) := by
  have owned : before.owners = [⟨.watch, task⟩] := fits.owners.of_owns (by rw [← owns, ← own]; rfl)
  have same : before.afterOp compiler task (.shift compiler transition : Op S) accepted =
      before := by rcases mark with rfl | rfl <;> rfl
  have kept : rights.after (.shift compiler transition : Op S) accepted = rights := by
    rcases mark with rfl | rfl <;> rfl
  rw [same]
  refine ⟨?_, own.trans (by rw [kept]), fun _ _ member => (by cases member), fun _ _ _ => rfl⟩
  rcases World.perform_shift performed with ⟨-, rfl, -⟩ | ⟨state, -, moved, inside, rfl⟩
  · exact fits
  · rw [World.compiler_change, if_pos ⟨rfl, inside⟩]
    have fit := fits.owners
    rw [owned] at fit
    exact ⟨owned ▸ fit.mark mark moved, fits.stretches⟩

theorem booked_acquire (owns : (rights compiler).owns.isSome = true)
    (performed : world.perform task preferChanges (.acquire compiler) = some ((), after)) :
    rights.Expects (.acquire compiler : Op S) () ∧
      Booked world after rights task (.acquire compiler) () compiler before
        (before.openStretch task) := by
  have busy : (world.compiler compiler).state ≠ .idle := by
    intro idle
    have nobody := fits.owners.eq_nil_iff.mpr idle
    rw [← own, Ledger.share, nobody] at owns
    cases owns
  have inside := World.exists_of_busy (.inl busy)
  obtain ⟨_, begun, same⟩ := Option.map_eq_some_iff.mp performed
  cases same
  rw [World.acquire?] at begun
  split at begun
  · rename_i free
    cases begun
    have fit := fits.stretches
    rw [free] at fit
    have none : before.stretches = [] := fit
    refine ⟨?_, ?_, ?_, fun _ _ member => (by cases member), fun other different _ => ?_⟩
    · rw [Rights.Expects, ← own]
      simp [Ledger.share, none]
    · rw [World.compiler_change, if_pos ⟨rfl, inside⟩]
      refine ⟨fits.owners, .none, ?_⟩
      rw [Ledger.openStretch, none]
      rfl
    · rw [Ledger.share_openStretch task none, if_pos rfl, own]
      exact (Rights.setGate_self _ _ _).symm
    · rw [Ledger.share_openStretch other none, if_neg different.symm]
  · cases begun

theorem booked_release (held : (rights compiler).gate = .held)
    (performed : world.perform task preferChanges (.release compiler) = some ((), after)) :
    Booked world after rights task (.release compiler) () compiler before
      (before.closeStretch task) := by
  have only : before.stretches = [⟨task, .none⟩] :=
    fits.stretches.of_held (by rw [← held, ← own]; rfl)
  have taken : (world.compiler compiler).owner ≠ none := by
    intro free
    have fit := fits.stretches
    rw [free, only] at fit
    cases fit
  cases performed
  refine ⟨?_, ?_, fun _ _ member => (by cases member), fun other different _ => ?_⟩
  · rw [World.compiler_change, if_pos ⟨rfl, World.exists_of_busy (.inr taken)⟩]
    refine ⟨fits.owners, ?_⟩
    simp [Ledger.closeStretch, only, StretchesFit]
  · rw [Ledger.share_closeStretch task only, if_pos rfl, own]
    exact (Rights.setGate_self _ _ _).symm
  · rw [Ledger.share_closeStretch other only, if_neg different.symm]

theorem booked_report {result : RunResult}
    (performed : world.perform task preferChanges (.report result) = some ((), after)) :
    Booked world after rights task (.report result) () compiler before
      (before.noteReport task) := by
  have standing : after.compiler compiler = world.compiler compiler := by
    cases performed
    rfl
  have share := fun other => Ledger.share_noteReport other task fits.stretches
  refine ⟨?_, ?_, fun _ _ member => (by cases member), fun other different _ => ?_⟩
  · rw [standing]
    refine ⟨fits.owners, fits.stretches.map fun stretch => ?_⟩
    split <;> rfl
  · rw [share task, if_pos rfl, own]
    rfl
  · rw [share other, if_neg different.symm]

theorem booked_join {worker : TaskId} {result : RunResult}
    (done : ∀ stretch ∈ before.stretches, stretch.work ≠ .working worker)
    (performed : world.perform task preferChanges (.join worker) = some (result, after)) :
    Booked world after rights task (.join worker) result compiler before
      (before.noteJoin task worker) := by
  have standing : after.compiler compiler = world.compiler compiler := by
    obtain ⟨_, -, same⟩ := Option.map_eq_some_iff.mp performed
    cases same
    rfl
  have share := fun other => Ledger.share_noteJoin other task fits.stretches done
  refine ⟨?_, ?_, fun _ _ member => (by cases member), fun other different _ => ?_⟩
  · rw [standing]
    refine ⟨fits.owners, fits.stretches.map fun stretch => ?_⟩
    split <;> rfl
  · rw [share task, if_pos rfl, own]
    rfl
  · rw [share other, if_neg different.symm]

/-- An owner hands the compiler on to a task that is spawned for it. -/
theorem booked_passOn {kind : RunKind} {job : Job S} {next : TaskId}
    (owns : (rights compiler).owns = some kind) (different : next ≠ task)
    (given : rights.after (.spawn job) next = rights.setOwns compiler none)
    (gained : Compiler.jobRights job compiler = { owns := some kind })
    (performed : world.perform task preferChanges (.spawn job) = some (next, after)) :
    Booked world after rights task (.spawn job) next compiler before
      (before.passOn kind task next) := by
  have owned : before.owners = [⟨kind, task⟩] := fits.owners.of_owns (by rw [← owns, ← own]; rfl)
  have share := fun other => Ledger.share_passOn other next owned
  cases performed
  refine ⟨⟨?_, fits.stretches⟩, ?_, fun other job' member _ nothing => ?_,
    fun other self absent => ?_⟩
  · have fit := fits.owners
    rw [owned] at fit
    rw [Ledger.passOn, owned, List.map_singleton, if_pos rfl]
    exact fit.passOn _
  · rw [share task, if_neg different, if_pos rfl, own, given, Rights.setOwns_self]
  · cases List.mem_singleton.mp member
    rw [share _, if_pos rfl, nothing, gained]
  · rw [share other, if_neg (World.nextTask_ne_of_unspawned absent), if_neg self.symm]

/-- The task of a run has a worker do the phases. -/
theorem booked_lend {job : Job S} {worker : TaskId} (held : (rights compiler).gate = .held)
    (different : worker ≠ task)
    (given : rights.after (.spawn job) worker = rights.setGate compiler (.lent worker))
    (gained : Compiler.jobRights job compiler = { works := true })
    (performed : world.perform task preferChanges (.spawn job) = some (worker, after)) :
    Booked world after rights task (.spawn job) worker compiler before
      (before.lend task worker) := by
  have only : before.stretches = [⟨task, .none⟩] :=
    fits.stretches.of_held (by rw [← held, ← own]; rfl)
  have share := fun other => Ledger.share_lend other worker only
  have idle : ∀ other, (before.share other).works = false := by
    intro other
    simp [Ledger.share, only]
  cases performed
  refine ⟨⟨fits.owners, fits.stretches.map fun stretch => ?_⟩, ?_,
    fun other job' member self nothing => ?_, fun other self absent => ?_⟩
  · split <;> rfl
  · rw [share task, if_pos rfl, given, Rights.setGate_self, ← own, decide_eq_false different,
      ← idle task]
  · cases List.mem_singleton.mp member
    rw [share _, if_neg self.symm, nothing, gained, decide_eq_true rfl]
  · have unspawned := World.nextTask_ne_of_unspawned absent
    rw [share other, if_neg self.symm, decide_eq_false unspawned, ← idle other]

end Booked

/-! ## What one operation does to all ledgers -/

section Operations

variable {world after : World S} {rights : Rights} {task : TaskId} {preferChanges : Bool}
  {ledgers : CompilerId → Ledger} {operation : Op S} {reply : operation.Reply}

/-- An operation that names another compiler. -/
def Op.Elsewhere (compiler : CompilerId) : Op S → Prop
  | .shift changed _ => changed ≠ compiler
  | .acquire changed => changed ≠ compiler
  | .release changed => changed ≠ compiler
  | .spawn (.run changed _) => changed ≠ compiler
  | .spawn (.phases changed) => changed ≠ compiler
  | .spawn (.watchPhases changed) => changed ≠ compiler
  | .spawn (.drive _ driver) => driver.compiler ≠ compiler
  | _ => False

theorem booked_elsewhere {compiler : CompilerId} {before : Ledger}
    (fits : before.Fits (world.compiler compiler)) (own : before.share task = rights compiler)
    (elsewhere : operation.Elsewhere compiler)
    (performed : world.perform task preferChanges operation = some (reply, after)) :
    Booked world after rights task operation reply compiler before
      (before.afterOp compiler task operation reply) := by
  have changed : ∀ {id : CompilerId} {change : CompilerRecord S → CompilerRecord S},
      id ≠ compiler →
        (world.changeCompiler id change).compiler compiler = world.compiler compiler := by
    intro id change different
    rw [World.compiler_change, if_neg fun same => different same.1]
  cases operation with
  | shift id transition =>
      have different : id ≠ compiler := elsewhere
      have same : before.afterOp compiler task (.shift id transition : Op S) reply = before := by
        cases transition <;> cases reply <;> simp [Ledger.afterOp, different]
      have kept : rights.after (.shift id transition : Op S) reply compiler = rights compiler := by
        cases transition <;> cases reply <;>
          simp [Rights.after, Rights.setOwns_of_ne rights id different]
      rw [same]
      cases performed
      exact .unchanged fits own (by rw [changed different]; exact ⟨rfl, rfl⟩) kept
        fun _ _ member => by cases member
  | acquire id =>
      have different : id ≠ compiler := elsewhere
      have kept : rights.after (.acquire id : Op S) reply compiler = rights compiler :=
        Rights.setGate_of_ne rights id different _
      obtain ⟨_, begun, same⟩ := Option.map_eq_some_iff.mp performed
      cases same
      rw [World.acquire?] at begun
      split at begun
      · cases begun
        rw [Ledger.afterOp, if_neg different]
        exact .unchanged fits own (by rw [changed different]; exact ⟨rfl, rfl⟩) kept
          fun _ _ member => by cases member
      · cases begun
  | release id =>
      have different : id ≠ compiler := elsewhere
      have kept : rights.after (.release id : Op S) reply compiler = rights compiler :=
        Rights.setGate_of_ne rights id different _
      rw [Ledger.afterOp, if_neg different]
      cases performed
      exact .unchanged fits own (by rw [changed different]; exact ⟨rfl, rfl⟩) kept
        fun _ _ member => by cases member
  | spawn job =>
      have absent : before.afterOp compiler task (.spawn job : Op S) reply = before ∧
          rights.after (.spawn job : Op S) reply compiler = rights compiler ∧
          Compiler.jobRights job compiler = {} := by
        cases job with
        | run id callback =>
            exact ⟨if_neg elsewhere, Rights.setOwns_of_ne rights id elsewhere _,
              Rights.only_of_ne id _ elsewhere⟩
        | phases id =>
            exact ⟨if_neg elsewhere, Rights.setGate_of_ne rights id elsewhere _,
              Rights.only_of_ne id _ elsewhere⟩
        | watchPhases id =>
            exact ⟨if_neg elsewhere, Rights.setGate_of_ne rights id elsewhere _,
              Rights.only_of_ne id _ elsewhere⟩
        | drive stage driver =>
            refine ⟨if_neg elsewhere, Rights.setOwns_of_ne rights _ elsewhere _, ?_⟩
            cases stage <;> exact Rights.only_of_ne _ _ elsewhere
      rw [absent.1]
      cases performed
      refine .unchanged fits own ⟨rfl, rfl⟩ absent.2.1 fun other began member => ?_
      cases List.mem_singleton.mp member
      exact absent.2.2
  | _ => exact elsewhere.elim

/-- A shift is booked at its compiler, and only answered as its task expects. -/
theorem booked_shift {compiler : CompilerId} {before : Ledger} {transition : Transition}
    {accepted : Bool} (fits : before.Fits (world.compiler compiler))
    (own : before.share task = rights compiler)
    (allowed : rights.Allows (.shift compiler transition : Op S))
    (performed : world.perform task preferChanges (.shift compiler transition) =
      some (accepted, after)) :
    rights.Expects (.shift compiler transition : Op S) accepted ∧
      Booked world after rights task (.shift compiler transition) accepted compiler before
        (before.afterOp compiler task (.shift compiler transition : Op S) accepted) := by
  cases transition with
  | beginRun => exact booked_enter fits own .single performed
  | beginWatch => exact booked_enter fits own .watch performed
  | endRun => exact ⟨trivial, booked_exit fits own .single allowed performed⟩
  | endWatch => exact ⟨trivial, booked_exit fits own .watch allowed performed⟩
  | beginWatchRun => exact ⟨trivial, booked_mark fits own (.inl rfl) allowed performed⟩
  | endWatchRun => exact ⟨trivial, booked_mark fits own (.inr rfl) allowed performed⟩

/-- A spawn is booked at the compiler of its job. -/
theorem booked_spawn {compiler : CompilerId} {before : Ledger} {job : Job S} {next : TaskId}
    (fits : before.Fits (world.compiler compiler)) (own : before.share task = rights compiler)
    (allowed : rights.Allows (.spawn job : Op S)) (old : task < world.nextTask)
    (performed : world.perform task preferChanges (.spawn job) = some (next, after)) :
    Booked world after rights task (.spawn job) next compiler before
      (before.afterOp compiler task (.spawn job : Op S) next) := by
  have different : next ≠ task := by
    cases performed
    exact (Nat.ne_of_lt old).symm
  have elsewhere : (Op.spawn job).Elsewhere compiler →
      Booked world after rights task (.spawn job) next compiler before
        (before.afterOp compiler task (.spawn job : Op S) next) :=
    fun there => booked_elsewhere fits own there performed
  cases job with
  | run id callback =>
      by_cases here : id = compiler
      · obtain rfl := here
        rw [Ledger.afterOp, if_pos rfl]
        exact booked_passOn fits own allowed different rfl (Rights.only_self _ _) performed
      · exact elsewhere here
  | phases id =>
      by_cases here : id = compiler
      · obtain rfl := here
        rw [Ledger.afterOp, if_pos rfl]
        exact booked_lend fits own allowed different rfl (Rights.only_self _ _) performed
      · exact elsewhere here
  | watchPhases id =>
      by_cases here : id = compiler
      · obtain rfl := here
        rw [Ledger.afterOp, if_pos rfl]
        exact booked_lend fits own allowed different rfl (Rights.only_self _ _) performed
      · exact elsewhere here
  | drive stage driver =>
      by_cases here : driver.compiler = compiler
      · obtain rfl := here
        rw [Ledger.afterOp, if_pos rfl]
        cases stage with
        | waiting =>
            exact booked_passOn fits own allowed different rfl (Rights.only_self _ _) performed
        | draining | drainingAfter => exact allowed.elim
      · exact elsewhere here

/-- The ledgers after any operation that a task may make. -/
theorem booked_of_perform (fits : ∀ compiler, (ledgers compiler).Fits (world.compiler compiler))
    (own : ∀ compiler, (ledgers compiler).share task = rights compiler)
    (allowed : rights.Allows operation) (old : task < world.nextTask)
    (done : ∀ worker, (world.results.get? worker).isSome = true →
      ∀ compiler, ∀ stretch ∈ (ledgers compiler).stretches, stretch.work ≠ .working worker)
    (performed : world.perform task preferChanges operation = some (reply, after)) :
    rights.Expects operation reply ∧
      ∀ compiler, Booked world after rights task operation reply compiler (ledgers compiler)
        ((ledgers compiler).afterOp compiler task operation reply) := by
  cases operation with
  | shift changed transition =>
      obtain ⟨expected, booked⟩ := booked_shift (fits changed) (own changed) allowed performed
      refine ⟨expected, fun compiler => ?_⟩
      by_cases here : changed = compiler
      · exact here ▸ booked
      · exact booked_elsewhere (fits compiler) (own compiler) here performed
  | acquire changed =>
      obtain ⟨expected, booked⟩ := booked_acquire (fits changed) (own changed) allowed performed
      refine ⟨expected, fun compiler => ?_⟩
      by_cases here : changed = compiler
      · obtain rfl := here
        rw [Ledger.afterOp, if_pos rfl]
        exact booked
      · exact booked_elsewhere (fits compiler) (own compiler) here performed
  | release changed =>
      refine ⟨trivial, fun compiler => ?_⟩
      by_cases here : changed = compiler
      · obtain rfl := here
        rw [Ledger.afterOp, if_pos rfl]
        exact booked_release (fits changed) (own changed) allowed performed
      · exact booked_elsewhere (fits compiler) (own compiler) here performed
  | spawn job =>
      exact ⟨trivial, fun compiler =>
        booked_spawn (fits compiler) (own compiler) allowed old performed⟩
  | report result =>
      exact ⟨trivial, fun compiler => booked_report (fits compiler) (own compiler) performed⟩
  | join worker =>
      have left : (world.results.get? worker).isSome = true := by
        rw [World.perform_join performed]
        rfl
      exact ⟨trivial, fun compiler =>
        booked_join (fits compiler) (own compiler) (done worker left compiler) performed⟩
  | createCompiler record =>
      exact ⟨trivial, fun compiler =>
        booked_neutral (fits compiler) (own compiler) allowed performed⟩
  | _ =>
      exact ⟨trivial, fun compiler =>
        booked_neutral (fits compiler) (own compiler) trivial performed⟩

end Operations

end Bundler
