import Bundler.Proofs.Compiler.ChangeDelivery
import Bundler.Proofs.Compiler.SessionPhases

/-!
# Surroundings that change by themselves

A machine changes the state of its surroundings by requests alone. Real surroundings also change
by themselves, between the steps of a machine. What a machine does there it does as well where
its surroundings follow a script, which holds the answers to all requests in advance. So what is
known of compilers and sessions from the traces of machines is known there too, and first of all
that a session which is not closed takes change sets.
-/

namespace Bundler

variable {S : Setting} {E : Environment S}

open Classical in
/-- The surroundings with the answers to requests taken from a script. -/
noncomputable def Environment.scripted (E : Environment S) : Environment S where
  State := List (Sigma S.Answer)
  answer := E.answer
  serve
    | _, [] => none
    | wish, ⟨asked, answer⟩ :: rest =>
      if same : asked = wish then some (same ▸ answer, rest) else none

theorem Environment.serve_scripted (wish : S.Request) (answer : S.Answer wish)
    (rest : List (Sigma S.Answer)) :
    E.scripted.serve wish (⟨wish, answer⟩ :: rest) = some (answer, rest) :=
  dif_pos rfl

namespace Machine

variable {start machine after : Machine E} {id : TaskId} {panics : Prop}

/-- A machine in surroundings that follow a script. -/
def scripted (machine : Machine E) (script : List (Sigma S.Answer)) : Machine E.scripted where
  world := machine.world
  state := script
  tasks := machine.tasks

/-- A step is made as well where the answer to its request is in the script. -/
theorem Step.scripted {seen : Option (Event S)} (step : machine.Step id seen after) :
    ∃ answers, ∀ rest, (machine.scripted (answers ++ rest)).Step id seen (after.scripted rest) := by
  cases step with
  | op runs performed => exact ⟨[], fun rest => .op (E := E.scripted) runs performed⟩
  | call runs => exact ⟨[], fun rest => .call (E := E.scripted) runs⟩
  | @request wish next answer state runs served =>
      exact ⟨[⟨wish, answer⟩], fun rest =>
        .request (E := E.scripted) runs (Environment.serve_scripted wish answer rest)⟩
  | turn runs => exact ⟨[], fun rest => .turn (E := E.scripted) runs⟩
  | finish runs => exact ⟨[], fun rest => .finish (E := E.scripted) runs⟩
  | crash runs => exact ⟨[], fun rest => .crash (E := E.scripted) runs⟩

theorem Vacant.scripted (vacant : start.Vacant panics) (script : List (Sigma S.Answer)) :
    (start.scripted script).Vacant panics where
  tidy := ⟨vacant.tidy.pending, vacant.tidy.below⟩
  noResults := vacant.noResults
  idle := vacant.idle
  noSessions := vacant.noSessions
  noDrivers := vacant.noDrivers
  visitors := vacant.visitors

/-! ## Who takes change sets -/

section Deaf

variable {session : SessionId} {events : List (TaskId × Event S)}

/-- Only a session that is there can take no change sets. -/
theorem lt_of_deaf {world : World S} (deaf : (world.session session).receives = false) :
    session < world.sessions.length := by
  by_contra absent
  rw [World.session, List.getElem?_eq_none (Nat.le_of_not_lt absent)] at deaf
  cases deaf

/-- No step makes a session take change sets again. -/
theorem Step.deaf {seen : Option (Event S)} (step : machine.Step id seen after)
    (deaf : (machine.world.session session).receives = false) :
    (after.world.session session).receives = false := by
  have there := lt_of_deaf deaf
  cases step with
  | op runs performed =>
      have moves := World.perform_moves there performed
      exact moves.receives_ended deaf
  | crash runs =>
      change ((machine.world.crash id).session session).receives = false
      rw [World.crash_session machine.world id there]
      split
      · rfl
      · exact deaf
  | call | request | turn | finish => exact deaf

/-- A change set is refused only by a session that takes none any more. -/
theorem Step.deaf_of_refused {changes : ChangeSet}
    (step : machine.Step id (some (.op (.deliver session changes) false)) after) :
    (after.world.session session).receives = false := by
  refine step.deaf ?_
  cases step with
  | op runs performed =>
      simp only [World.perform, World.deliver, Option.some.injEq] at performed
      split at performed
      · cases performed
      · rename_i unheard
        simpa using unheard

/-- A session that is there was opened. -/
theorem Trace.opened_of_lt (trace : start.Trace events machine)
    (none_ : start.world.sessions = []) (there : session < machine.world.sessions.length) :
    ∃ past opener compiler life,
      events = past ++ (opener, .op (.openSession compiler) session) :: life := by
  induction trace with
  | start =>
      rw [none_] at there
      cases there
  | @seen events machine id event after before step ih =>
      by_cases old : session < machine.world.sessions.length
      · obtain ⟨past, opener, compiler, life, rfl⟩ := ih old
        exact ⟨past, opener, compiler, life ++ [(id, event)], by simp⟩
      · cases step with
        | @op operation next reply world _ runs performed =>
            have longer := World.perform_sessions_length performed
            change session < world.sessions.length at there
            rw [longer] at there
            cases operation with
            | openSession compiler =>
                cases performed
                obtain rfl : session = machine.world.sessions.length :=
                  Nat.le_antisymm (Nat.le_of_lt_succ there) (Nat.le_of_not_lt old)
                exact ⟨events, id, compiler, [], rfl⟩
            | _ => exact absurd there old
        | call | request => exact absurd there old
  | unseen before step ih =>
      refine ih ?_
      cases step with
      | turn | finish => exact there
      | crash =>
          change session < (World.crash _ _).sessions.length at there
          rwa [World.crash_sessions_length] at there

/-- A session takes change sets until it is closed, where no task panics. -/
theorem Trace.receives_of_open (trace : start.Trace events machine) (vacant : start.Vacant False)
    (hosts : E.Hosts False) (going : (machine.world.session session).phase ≠ .closed) :
    (machine.world.session session).receives = true := by
  by_contra unheard
  rw [Bool.not_eq_true] at unheard
  obtain ⟨past, opener, compiler, life, rfl⟩ :=
    trace.opened_of_lt vacant.noSessions (lt_of_deaf unheard)
  have orderly := trace.orderly vacant hosts
  -- Whether the driver has begun or not, the session has lived with it.
  have lived : ∃ driver view, SessionView.Life False session compiler (marked driver life) view ∧
      view.session = machine.world.session session := by
    by_cases driven : ∃ driver same, (standingOf
        (past ++ (opener, .op (.openSession compiler) session) :: life) driver).driven =
          some (session, same)
    · obtain ⟨driver, same, driven⟩ := driven
      obtain ⟨before, opened, -, made, onward⟩ := trace.split_at
      obtain ⟨named, longer, fresh⟩ := made.opens
      have there : session < opened.world.sessions.length := by
        rw [named, longer]
        exact Nat.lt_succ_self _
      have own : same = compiler := by
        rw [← (orderly.kept driver _ _ (.inr driven)).2.1, (onward.kept_compiler there).2, fresh]
      exact ⟨driver, _, trace.life vacant hosts (.born (own ▸ driven)), rfl⟩
    · refine ⟨machine.world.nextTask, _, trace.life vacant hosts (.unborn (Nat.le_refl _) ?_), rfl⟩
      exact fun driver same found => driven ⟨driver, same, found⟩
  obtain ⟨driver, view, lived, same⟩ := lived
  obtain ⟨book, placed⟩ := lived.placed
  have shut : book.place = .shut := by
    rcases placed.receives (same ▸ unheard) with shut | gone
    · exact shut
    · exact (placed.ended gone).resolve_right id
  exact going (same ▸ placed.closed.mpr shut)

end Deaf

end Machine

end Bundler
