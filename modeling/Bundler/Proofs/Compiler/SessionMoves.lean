import Bundler.Proofs.Compiler.Execution

/-!
# What operations do to a session

`Session.Moves` says once what an operation with its answer makes of one session, guards
included. An operation that is aimed at another session, or at none, leaves it alone.
-/

namespace Bundler

variable {S : Setting}

/-- The session that an operation is aimed at, if it can change one. -/
def Op.aim? : Op S → Option SessionId
  | .send session _ => some session
  | .dropHandle session => some session
  | .deliver session _ => some session
  | .await session => some session
  | .takeSignals session => some session
  | .takeChanges session => some session
  | .setLastChange session _ => some session
  | .shut session => some session
  | .leave session => some session
  | _ => none

namespace Session

variable (id : SessionId) (session : Session S)

/-- The phase after a signal was sent to a session that is not closed. -/
def phaseAfter : Signal S → SessionPhase
  | .close _ => .closing
  | .invalidate _ => session.phase

/-- What becomes of a session by an operation that was answered. -/
inductive Moves : (operation : Op S) → operation.Reply → Session S → Prop where
  | other {operation reply} (elsewhere : operation.aim? ≠ some id) :
      Moves operation reply session
  | queued {signal} (open_ : session.phase ≠ .closed) (answers : session.answers = true) :
      Moves (.send id signal) true
        { session with phase := session.phaseAfter signal, signals := session.signals ++ [signal] }
  | refused {signal} (closed : session.phase = .closed) : Moves (.send id signal) false session
  | unheard {signal} (open_ : session.phase ≠ .closed) (answers : session.answers = false) :
      Moves (.send id signal) false { session with phase := session.phaseAfter signal }
  | dropped : Moves (.dropHandle id) () { session with held := false }
  | delivered {changes} (receives : session.receives = true) :
      Moves (.deliver id changes) true { session with arrivals := session.arrivals ++ [changes] }
  | undelivered {changes} (receives : session.receives = false) :
      Moves (.deliver id changes) false session
  | wokenBySignal {signal rest} (first : session.signals = signal :: rest) :
      Moves (.await id) (.signal signal) { session with signals := rest }
  | wokenByChanges {changes rest} (first : session.arrivals = changes :: rest) :
      Moves (.await id) (.changes changes) { session with arrivals := rest }
  | wokenByDrop (gone : session.held = false) : Moves (.await id) .gone session
  | tookSignals : Moves (.takeSignals id) (session.signals, !session.held)
      { session with signals := [] }
  | tookChanges {changes rest} (first : session.arrivals = changes :: rest) :
      Moves (.takeChanges id) (some changes) { session with arrivals := rest }
  | noChanges (none_ : session.arrivals = []) : Moves (.takeChanges id) none session
  | noted {changes} : Moves (.setLastChange id changes) ()
      { session with lastChange := some changes }
  | shut : Moves (.shut id) session.signals
      { session with phase := .closed, answers := false, signals := [] }
  | left : Moves (.leave id) ()
      { session with answers := false, receives := false, signals := [], arrivals := [] }

variable {id session} {operation : Op S} {reply : operation.Reply} {after : Session S}

/-- An operation that can change no session changes none. -/
theorem Moves.unaimed (aimless : operation.aim? = none) :
    session.Moves id operation reply session :=
  .other fun aimed => nomatch aimless.symm.trans aimed

/-- A session belongs to one compiler. -/
theorem Moves.compiler (moves : session.Moves id operation reply after) :
    after.compiler = session.compiler := by
  cases moves <;> rfl

end Session

namespace World

variable {world after : World S} {task : TaskId} {preferChanges : Bool} {id : SessionId}

theorem session_changeSession (there : id < world.sessions.length) (other : SessionId)
    (change : Session S → Session S) :
    (world.changeSession other change).session id =
      if other = id then change (world.session id) else world.session id := by
  have found := List.getElem?_eq_getElem there
  by_cases same : other = id
  · obtain rfl := same
    simp [session, changeSession, found]
  · simp [session, changeSession, same]

theorem length_changeSession (other : SessionId) (change : Session S → Session S) :
    (world.changeSession other change).sessions.length = world.sessions.length := by
  simp [changeSession]

/-- The number of sessions after an operation. -/
def sessionCountAfter (world : World S) : Op S → Nat
  | .openSession _ => world.sessions.length + 1
  | _ => world.sessions.length

theorem perform_sessions_length {operation : Op S} {reply : operation.Reply}
    (performed : world.perform task preferChanges operation = some (reply, after)) :
    after.sessions.length = world.sessionCountAfter operation := by
  cases operation with
  | acquire id =>
      simp only [perform, acquire?] at performed
      split at performed
      · cases performed
        rfl
      · cases performed
  | join other =>
      obtain ⟨result, -, same⟩ := Option.map_eq_some_iff.mp performed
      cases same
      rfl
  | openSession compiler =>
      cases performed
      simp [sessionCountAfter]
  | send id signal =>
      simp only [perform, send, Option.some.injEq] at performed
      repeat' split at performed
      all_goals
        cases performed
        first | rfl | exact length_changeSession _ _
  | deliver id changes =>
      simp only [perform, deliver, Option.some.injEq] at performed
      split at performed
      all_goals
        cases performed
        first | rfl | exact length_changeSession _ _
  | await id =>
      simp only [perform, wake?] at performed
      repeat' split at performed
      all_goals first
        | cases performed; rfl
        | cases performed; exact length_changeSession _ _
        | cases performed
  | takeChanges id =>
      simp only [perform, takeChanges, Option.some.injEq] at performed
      split at performed
      all_goals
        cases performed
        first | rfl | exact length_changeSession _ _
  | dropHandle | takeSignals | setLastChange | shut | leave =>
      cases performed
      exact length_changeSession _ _
  | _ =>
      cases performed
      rfl

/-- What an operation makes of a session that is there. -/
theorem perform_moves {operation : Op S} {reply : operation.Reply}
    (there : id < world.sessions.length)
    (performed : world.perform task preferChanges operation = some (reply, after)) :
    (world.session id).Moves id operation reply (after.session id) := by
  have aimed : ∀ {other : SessionId} {change : Session S → Session S}, other ≠ id →
      (world.changeSession other change).session id = world.session id := by
    intro other change different
    rw [session_changeSession there, if_neg different]
  have changed : ∀ {change : Session S → Session S},
      (world.changeSession id change).session id = change (world.session id) := by
    intro change
    rw [session_changeSession there, if_pos rfl]
  have elsewhere : ∀ {other : SessionId}, other ≠ id → some other ≠ some id :=
    fun different same => different (Option.some.inj same)
  cases operation with
  | send other signal =>
      simp only [perform, send, Option.some.injEq] at performed
      by_cases different : other = id
      · obtain rfl := different
        split at performed
        · rename_i closed
          cases performed
          exact .refused closed
        · rename_i open_
          split at performed
          · rename_i answers
            cases performed
            rw [changed]
            exact .queued open_ answers
          · rename_i unheard
            cases performed
            rw [changed]
            exact .unheard open_ (Bool.eq_false_iff.mpr unheard)
      · repeat' split at performed
        all_goals
          cases performed
          first | rw [aimed different] | skip
          exact .other (elsewhere different)
  | deliver other changes =>
      simp only [perform, deliver, Option.some.injEq] at performed
      by_cases different : other = id
      · obtain rfl := different
        split at performed
        · rename_i receives
          cases performed
          rw [changed]
          exact .delivered receives
        · rename_i unheard
          cases performed
          exact .undelivered (Bool.eq_false_iff.mpr unheard)
      · split at performed
        all_goals
          cases performed
          first | rw [aimed different] | skip
          exact .other (elsewhere different)
  | await other =>
      simp only [perform, wake?] at performed
      by_cases different : other = id
      · obtain rfl := different
        split at performed
        · split at performed
          · cases performed
          · rename_i gone
            cases performed
            exact .wokenByDrop (Bool.eq_false_iff.mpr gone)
        · rename_i first _
          cases performed
          rw [changed]
          exact .wokenBySignal first
        · rename_i first
          split at performed
          · cases performed
            rw [changed]
            exact .wokenByChanges first
          · rename_i unmoved
            cases performed
            simp only [Bool.or_eq_true, not_or, Bool.not_eq_true] at unmoved
            exact .wokenByDrop unmoved.1
        · rename_i firstSignal firstChanges
          split at performed
          · cases performed
            rw [changed]
            exact .wokenByChanges firstChanges
          · cases performed
            rw [changed]
            exact .wokenBySignal firstSignal
      · have kept : after.session id = world.session id := by
          repeat' split at performed
          all_goals first
            | cases performed; rfl
            | cases performed; exact aimed different
            | cases performed
        rw [kept]
        exact .other (elsewhere different)
  | takeChanges other =>
      simp only [perform, takeChanges, Option.some.injEq] at performed
      by_cases different : other = id
      · obtain rfl := different
        split at performed
        · rename_i none_
          cases performed
          exact .noChanges none_
        · rename_i first
          cases performed
          rw [changed]
          exact .tookChanges first
      · split at performed
        all_goals
          cases performed
          first | rw [aimed different] | skip
          exact .other (elsewhere different)
  | dropHandle other =>
      cases performed
      by_cases different : other = id
      · obtain rfl := different
        rw [changed]
        exact .dropped
      · rw [aimed different]
        exact .other (elsewhere different)
  | takeSignals other =>
      cases performed
      by_cases different : other = id
      · obtain rfl := different
        rw [changed]
        exact .tookSignals
      · rw [aimed different]
        exact .other (elsewhere different)
  | setLastChange other changes =>
      cases performed
      by_cases different : other = id
      · obtain rfl := different
        rw [changed]
        exact .noted
      · rw [aimed different]
        exact .other (elsewhere different)
  | shut other =>
      cases performed
      by_cases different : other = id
      · obtain rfl := different
        rw [changed]
        exact .shut
      · rw [aimed different]
        exact .other (elsewhere different)
  | leave other =>
      cases performed
      by_cases different : other = id
      · obtain rfl := different
        rw [abandon, changed]
        exact .left
      · rw [abandon, aimed different]
        exact .other (elsewhere different)
  | openSession compiler =>
      cases performed
      have kept : World.session { world with
          sessions := world.sessions ++ [{ compiler }] } id = world.session id := by
        simp [session, List.getElem?_append_left there]
      rw [kept]
      exact .unaimed rfl
  | acquire other =>
      simp only [perform, acquire?] at performed
      split at performed
      · cases performed
        exact .unaimed rfl
      · cases performed
  | join other =>
      obtain ⟨result, -, same⟩ := Option.map_eq_some_iff.mp performed
      cases same
      exact .unaimed rfl
  | _ =>
      cases performed
      exact .unaimed rfl

/-- A session that was just opened. -/
theorem session_opened (compiler : CompilerId) :
    World.session { world with sessions := world.sessions ++ [{ compiler }] }
      world.sessions.length = { compiler } := by
  simp [session]

end World

end Bundler
