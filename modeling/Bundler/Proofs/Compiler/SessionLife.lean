import Bundler.Proofs.Compiler.SessionOrder

/-!
# The life of a session

A session is seen together with the standing of its driver. `SessionView.Step` says what an
event can do to the two: the driver makes what its standing allows, everybody else only what
is not reserved to the driver, and the driver may be over, by its end or by a panic.
`Life` is a sequence of such steps from the opening of a session, and every execution of a
vacant machine gives one for each of its sessions. So whatever is to be said about the queues,
the runs and the callbacks of a session is proved by an induction along its life.
-/

namespace Bundler

variable {S : Setting} {E : Environment S}

/-- An operation on a session that only its driver makes. -/
def Op.Reserved (id : SessionId) : Op S → Prop
  | .await session => session = id
  | .takeSignals session => session = id
  | .takeChanges session => session = id
  | .setLastChange session _ => session = id
  | .shut session => session = id
  | .leave session => session = id
  | _ => False

/-- A session with the standing of the task that drives it. -/
structure SessionView (S : Setting) where
  session : Session S
  standing : Standing S
  /-- The driver is not over. -/
  alive : Bool := true

namespace SessionView

/-- A session that was just opened, and the standing that its driver will begin with. -/
def opened (id : SessionId) (compiler : CompilerId) : SessionView S where
  session := { compiler }
  standing := { book := some { session := id, compiler } }

/-- What becomes of a session and its driver in a step. What is seen of it is an event, and
whether it is one of the driver. -/
inductive Step (panics : Prop) (id : SessionId) (view : SessionView S) :
    Option (Bool × Event S) → SessionView S → Prop where
  | op {operation reply session} (alive : view.alive = true)
      (allowed : view.standing.Allows operation)
      (expected : view.standing.Expects operation reply)
      (moves : view.session.Moves id operation reply session) :
      Step panics id view (some (true, .op operation reply))
        { view with session, standing := view.standing.after operation reply }
  | call {outside} (alive : view.alive = true) (allowed : view.standing.AllowsCall outside) :
      Step panics id view (some (true, .call outside))
        { view with standing := view.standing.duringCall outside }
  | request {wish answer} (alive : view.alive = true) :
      Step panics id view (some (true, .request wish answer)) view
  | visit {operation reply session} (open_ : ¬ operation.Reserved id)
      (moves : view.session.Moves id operation reply session) :
      Step panics id view (some (false, .op operation reply)) { view with session }
  | visitCall {outside} : Step panics id view (some (false, .call outside)) view
  | visitRequest {wish answer} : Step panics id view (some (false, .request wish answer)) view
  | finish (alive : view.alive = true) (ends : view.standing.Ends) :
      Step panics id view none { view with alive := false }
  /-- The driver panics. -/
  | crash (alive : view.alive = true) (permitted : panics) : Step panics id view none
      { view with
        session := { view.session with
          answers := false, receives := false, signals := [], arrivals := [] }
        alive := false }

/-- The events in the life of a session so far, and what they have led to. -/
inductive Life (panics : Prop) (id : SessionId) (compiler : CompilerId) :
    List (Bool × Event S) → SessionView S → Prop where
  | opened : Life panics id compiler [] (opened id compiler)
  | seen {events view event after} (before : Life panics id compiler events view)
      (step : view.Step panics id (some event) after) : Life panics id compiler (events ++ [event]) after
  | unseen {events view after} (before : Life panics id compiler events view)
      (step : view.Step panics id none after) : Life panics id compiler events after

/-- A life up to one of its events, with the step of the event. -/
theorem Life.split {panics : Prop} {id : SessionId} {compiler : CompilerId} {first rest : List (Bool × Event S)}
    {entry : Bool × Event S} {view : SessionView S}
    (life : Life panics id compiler (first ++ entry :: rest) view) :
    ∃ before after, Life panics id compiler first before ∧ before.Step panics id (some entry) after := by
  generalize all : first ++ entry :: rest = events at life
  induction life generalizing rest with
  | opened => simp at all
  | @seen events view seen after life step ih =>
      rcases List.eq_nil_or_concat rest with rfl | ⟨earlier, final, rfl⟩
      · obtain ⟨rfl, same⟩ := List.append_inj' all rfl
        cases same
        exact ⟨view, after, life, step⟩
      · rw [List.concat_eq_append, ← List.cons_append, ← List.append_assoc] at all
        exact ih (List.append_inj' all rfl).1
  | unseen _ _ ih => exact ih all

/-- What is reserved to the driver of a session is done by nobody else. -/
theorem Life.reserved {panics : Prop} {id : SessionId} {compiler : CompilerId} {events : List (Bool × Event S)}
    {view : SessionView S} (life : Life panics id compiler events view) {mine : Bool} {operation : Op S}
    {reply : operation.Reply} (member : (mine, .op operation reply) ∈ events)
    (reserved : operation.Reserved id) : mine = true := by
  obtain ⟨first, rest, rfl⟩ := List.append_of_mem member
  obtain ⟨before, after, -, step⟩ := life.split
  cases step with
  | op => rfl
  | visit open_ => exact absurd reserved open_

end SessionView

/-- The events of everybody, with those of one task marked. -/
def marked (driver : TaskId) (events : List (TaskId × Event S)) : List (Bool × Event S) :=
  events.map fun entry => (decide (entry.1 = driver), entry.2)

@[simp]
theorem marked_append (driver : TaskId) (first rest : List (TaskId × Event S)) :
    marked driver (first ++ rest) = marked driver first ++ marked driver rest :=
  List.map_append

/-! ## Sessions of machines -/

namespace Machine

variable {start middle machine after : Machine E} {events more : List (TaskId × Event S)}

theorem Trace.append (first : start.Trace events middle) (rest : middle.Trace more machine) :
    start.Trace (events ++ more) machine := by
  induction rest with
  | start => rwa [List.append_nil]
  | seen _ step ih =>
      rw [← List.append_assoc]
      exact ih.seen step
  | unseen _ step ih => exact ih.unseen step

/-- A trace up to one of its events, with the step of the event, and from there on. -/
theorem Trace.split_at {first rest : List (TaskId × Event S)} {id : TaskId} {event : Event S}
    (trace : start.Trace (first ++ (id, event) :: rest) machine) :
    ∃ before after, start.Trace first before ∧ before.Step id (some event) after ∧
      after.Trace rest machine := by
  generalize all : first ++ (id, event) :: rest = events at trace
  induction trace generalizing rest with
  | start => simp at all
  | @seen events middle task seen last trace step ih =>
      rcases List.eq_nil_or_concat rest with rfl | ⟨earlier, final, rfl⟩
      · obtain ⟨rfl, same⟩ := List.append_inj' all rfl
        cases same
        exact ⟨middle, last, trace, step, .start⟩
      · rw [List.concat_eq_append, ← List.cons_append, ← List.append_assoc] at all
        obtain ⟨same, last⟩ := List.append_inj' all rfl
        obtain ⟨before, after, reached, made, onward⟩ := ih same
        refine ⟨before, after, reached, made, ?_⟩
        rw [List.concat_eq_append, List.singleton_inj.mp last]
        exact onward.seen step
  | unseen _ step ih =>
      obtain ⟨before, after, reached, made, onward⟩ := ih all
      exact ⟨before, after, reached, made, onward.unseen step⟩

/-- How a task is related to a session of which it is, or will be, the driver: it is not there
yet, and nobody drives the session, or it drives the session. -/
inductive Drives (machine : Machine E) (events : List (TaskId × Event S)) (id : SessionId)
    (compiler : CompilerId) (driver : TaskId) : SessionView S → Prop where
  | unborn (late : machine.world.nextTask ≤ driver)
      (nobody : ∀ task same, (standingOf events task).driven ≠ some (id, same)) :
      Drives machine events id compiler driver
        { SessionView.opened id compiler with session := machine.world.session id }
  | born (driven : (standingOf events driver).driven = some (id, compiler)) :
      Drives machine events id compiler driver
        { session := machine.world.session id
          standing := standingOf events driver
          alive := (machine.program? driver).isSome }

/-- What an operation of a task does to a session. -/
theorem Step.moves {id : TaskId} {session : SessionId} {operation : Op S}
    {reply : operation.Reply} (step : machine.Step id (some (.op operation reply)) after)
    (there : session < machine.world.sessions.length) :
    (machine.world.session session).Moves session operation reply (after.world.session session) := by
  cases step with
  | op runs performed =>
      have moved := World.perform_moves there performed
      exact moved

/-- A session that is opened is new. -/
theorem Step.opens {id : TaskId} {session : SessionId} {compiler : CompilerId}
    (step : machine.Step id (some (.op (.openSession compiler) session)) after) :
    session = machine.world.sessions.length ∧
      after.world.sessions.length = machine.world.sessions.length + 1 ∧
      after.world.session session = { compiler } := by
  cases step with
  | op runs performed =>
      have longer := World.perform_sessions_length performed
      cases performed
      exact ⟨rfl, longer, World.session_opened compiler⟩

/-- A task of which something is seen is not over. -/
theorem Tidy.alive {id : TaskId} {event : Event S} (tidy : machine.Tidy)
    (step : machine.Step id (some event) after) :
    (machine.program? id).isSome = true ∧ (after.program? id).isSome = true := by
  cases step with
  | op runs performed =>
      rw [runs, tidy.program?_performed runs (World.perform_changes performed), if_pos rfl]
      exact ⟨rfl, rfl⟩
  | call runs =>
      rw [runs, tidy.program?_moved runs, if_pos rfl]
      exact ⟨rfl, rfl⟩
  | @request _ _ _ state runs _ =>
      rw [runs, (tidy.with_state state).program?_moved runs, if_pos rfl]
      exact ⟨rfl, rfl⟩

namespace Orderly

variable {panics : Prop} {id : TaskId} {session : SessionId} {compiler : CompilerId}
  {driver : TaskId}

/-- Whoever makes an operation that is reserved to the driver of a session drives it. -/
theorem driven_of_reserved {operation : Op S} {reply : operation.Reply}
    (orderly : machine.Orderly events)
    (step : machine.Step id (some (.op operation reply)) after)
    (reserved : operation.Reserved session) :
    ∃ compiler, (standingOf events id).driven = some (session, compiler) := by
  have permits := (orderly.permits step).2
  have drives : ∀ {reading : Book S → Prop}, (standingOf events id).Drives session reading →
      ∃ compiler, (standingOf events id).driven = some (session, compiler) := by
    rintro reading ⟨book, held, rfl, -⟩
    exact ⟨book.compiler, by rw [Standing.driven, held]; rfl⟩
  cases operation with
  | await | takeSignals | takeChanges | setLastChange | shut | leave =>
      obtain rfl := reserved
      exact drives permits
  | _ => exact reserved.elim

/-- What somebody else than the driver of a session does to it. -/
theorem visits {event : Event S} (orderly : machine.Orderly events)
    (there : session < machine.world.sessions.length)
    (step : machine.Step id (some event) after)
    (undriven : ∀ compiler, (standingOf events id).driven ≠ some (session, compiler))
    (standing : Standing S) (alive : Bool) :
    SessionView.Step panics session ⟨machine.world.session session, standing, alive⟩
      (some (false, event)) ⟨after.world.session session, standing, alive⟩ := by
  cases event with
  | op operation reply =>
      have unreserved : ¬ operation.Reserved session := fun reserved =>
        let ⟨compiler, driven⟩ := orderly.driven_of_reserved step reserved
        undriven compiler driven
      exact .visit unreserved (step.moves there)
  | call outside =>
      cases step with
      | call runs => exact .visitCall
  | request wish answer =>
      cases step with
      | request runs served => exact .visitRequest

/-- A task that drives a session has begun. -/
theorem lt_of_driven (orderly : machine.Orderly events)
    (driven : (standingOf events driver).driven = some (session, compiler)) :
    driver < machine.world.nextTask := by
  by_contra late
  rw [orderly.unborn driver (Nat.le_of_not_lt late)] at driven
  cases driven

/-- A session is driven by one task. -/
theorem eq_of_driven {other : TaskId} {same : CompilerId} (orderly : machine.Orderly events)
    (driven : (standingOf events driver).driven = some (session, compiler))
    (also_ : (standingOf events other).driven = some (session, same)) : other = driver :=
  (orderly.sole driver other session compiler same (.inr driven) (.inr also_)).symm

/-- Nobody drives a session that a task has opened. -/
theorem undriven_of_opened {other : TaskId} {same : CompilerId} (orderly : machine.Orderly events)
    (opened : (standingOf events id).opening = some (.opened compiler session)) :
    (standingOf events other).driven ≠ some (session, same) := by
  intro driven
  obtain rfl := orderly.sole id other session compiler same (.inl opened) (.inr driven)
  exact orderly.apart id session compiler same opened driven

/-- An event that the driver of a session sees happen. -/
theorem drives_seen {event : Event S} {view : SessionView S} (orderly : machine.Orderly events)
    (tidy : start.Tidy) (trace : start.Trace events machine)
    (step : machine.Step id (some event) after)
    (there : session < machine.world.sessions.length)
    (later : after.Drives (events ++ [(id, event)]) session compiler driver view) :
    ∃ before : SessionView S, machine.Drives events session compiler driver before ∧
      before.Step panics session (some (decide (id = driver), event)) view := by
  have ready := tidy.trace trace
  obtain ⟨program, runs⟩ := step.runs
  have begun := ready.below id program runs
  cases later with
  | unborn late nobody =>
      have old : machine.world.nextTask ≤ driver := Nat.le_trans step.nextTask_le late
      have different : id ≠ driver := Nat.ne_of_lt (Nat.lt_of_lt_of_le begun old)
      have nobodyYet : ∀ task same, (standingOf events task).driven ≠ some (session, same) := by
        intro task same driven
        refine nobody task same ?_
        rcases standingOf_step tidy trace step task with
          ⟨rfl, now⟩ | ⟨job, -, new, -, -⟩ | ⟨-, -, now⟩
        · rw [now]
          cases event with
          | op operation reply => exact (Standing.driven_after _ _ _).trans driven
          | call outside => exact (Standing.driven_duringCall _ _).trans driven
          | request wish answer => exact driven
        · exact absurd (orderly.lt_of_driven driven) (new ▸ Nat.lt_irrefl _)
        · rw [now]
          exact driven
      refine ⟨_, .unborn old nobodyYet, ?_⟩
      rw [decide_eq_false different]
      exact orderly.visits there step (nobodyYet id) _ _
  | born driven =>
      rcases standingOf_step tidy trace step driver with
        ⟨rfl, now⟩ | ⟨job, spawned, new, different, now⟩ | ⟨different, -, now⟩
      · have before : (standingOf events driver).driven = some (session, compiler) := by
          rw [now] at driven
          cases event with
          | op operation reply => exact (Standing.driven_after _ _ _).symm.trans driven
          | call outside => exact (Standing.driven_duringCall _ _).symm.trans driven
          | request wish answer => exact driven
        obtain ⟨alive, still⟩ := ready.alive step
        refine ⟨_, .born before, ?_⟩
        rw [decide_eq_true rfl, now, alive, still]
        cases event with
        | op operation reply =>
            exact .op rfl (orderly.permits step) (orderly.expects step) (step.moves there)
        | call outside =>
            have same : after.world.session session = machine.world.session session := by
              cases step with
              | call runs => rfl
            rw [same]
            exact .call rfl (orderly.permitsCall step)
        | request wish answer =>
            have same : after.world.session session = machine.world.session session := by
              cases step with
              | request runs served => rfl
            rw [same]
            exact .request rfl
      · subst spawned
        rw [now] at driven
        cases job with
        | run | phases | watchPhases => cases driven
        | drive stage driver =>
            cases driven
            have opened := (orderly.permits step).2.1
            have nobody : ∀ task same,
                (standingOf events task).driven ≠ some (driver.session, same) :=
              fun task same => orderly.undriven_of_opened opened
            refine ⟨_, .unborn (Nat.le_of_eq new.symm) nobody, ?_⟩
            rw [decide_eq_false (Ne.symm different), now,
              (ready.program?_spawned step).2.2, Option.isSome_some]
            exact orderly.visits there step (nobody id) _ true
      · have before : (standingOf events driver).driven = some (session, compiler) :=
          now ▸ driven
        have undriven : ∀ same, (standingOf events id).driven ≠ some (session, same) :=
          fun same also_ => different (orderly.eq_of_driven before also_).symm
        refine ⟨_, .born before, ?_⟩
        rw [decide_eq_false (Ne.symm different), now,
          ready.program?_other step different (orderly.lt_of_driven before)]
        exact orderly.visits there step undriven _ _

/-- What becomes of a session in a step of which nothing is seen. -/
theorem drives_unseen {view : SessionView S} (orderly : machine.Orderly events)
    (tidy : machine.Tidy) (step : machine.Step id none after)
    (permitted : machine.program? id = some .panic → panics)
    (there : session < machine.world.sessions.length)
    (later : after.Drives events session compiler driver view) :
    ∃ before : SessionView S, machine.Drives events session compiler driver before ∧
      (before = view ∨ before.Step panics session none view) := by
  have drivers := orderly.drivers id
  -- Only a panic of its own driver changes a session.
  have untouched : (∀ same, (standingOf events id).driven ≠ some (session, same)) →
      after.world.session session = machine.world.session session := by
    intro undriven
    cases step with
    | turn runs => rfl
    | finish runs => rfl
    | crash runs =>
        refine (World.crash_session machine.world id there).trans (if_neg fun driven => ?_)
        rw [drivers] at driven
        obtain ⟨⟨driven, same⟩, found, rfl⟩ := Option.map_eq_some_iff.mp driven
        exact undriven same found
  cases later with
  | unborn late nobody =>
      refine ⟨_, .unborn (Nat.le_trans step.nextTask_le late) nobody, .inl ?_⟩
      rw [untouched (nobody id)]
  | born driven =>
      refine ⟨_, .born driven, ?_⟩
      by_cases self : id = driver
      · obtain rfl := self
        cases step with
        | turn runs =>
            left
            rw [program?_replace runs, if_pos rfl, runs]
            rfl
        | finish runs =>
            right
            have ends : (standingOf events id).Ends := by
              cases orderly.abides id _ runs with
              | done ends => exact ends
            rw [program?_remove, if_pos rfl, runs]
            exact .finish rfl ends
        | crash runs =>
            right
            have mine : machine.world.drivers.get? id = some session := by
              rw [drivers, driven]
              rfl
            have abandoned := World.crash_session machine.world id there
            rw [if_pos mine] at abandoned
            change SessionView.Step panics session _ none
              ⟨(machine.world.crash id).session session, _, ((machine.remove id).program? id).isSome⟩
            rw [program?_remove, if_pos rfl, runs, abandoned]
            exact .crash rfl (permitted runs)
      · have undriven : ∀ same, (standingOf events id).driven ≠ some (session, same) :=
          fun same also_ => self (orderly.eq_of_driven driven also_)
        left
        rw [untouched undriven, tidy.program?_other step (Ne.symm self)
          (orderly.lt_of_driven driven)]

end Orderly

section Life

variable {opened : Machine E} {panics : Prop} {opener driver : TaskId} {session : SessionId}
  {compiler : CompilerId} {past : List (TaskId × Event S)} {view : SessionView S}

/-- A task panics only if visitors may. -/
theorem Trace.permitted {id : TaskId} (trace : start.Trace events machine)
    (vacant : start.Vacant panics) (hosts : E.Hosts panics)
    (panicked : machine.program? id = some .panic) : panics := by
  by_contra calm
  cases trace.calm (vacant.fresh calm) (hosts.regular calm) id _ panicked

/-- A session is there from its opening on. -/
theorem Trace.sessions_le (trace : start.Trace events machine) :
    start.world.sessions.length ≤ machine.world.sessions.length := by
  induction trace with
  | start => exact Nat.le_refl _
  | seen before step ih =>
      refine Nat.le_trans ih ?_
      cases step with
      | op runs performed => exact (World.perform_grows performed).sessions
      | call runs => exact Nat.le_refl _
      | request runs served => exact Nat.le_refl _
  | unseen before step ih =>
      refine Nat.le_trans ih ?_
      cases step with
      | turn runs => exact Nat.le_refl _
      | finish runs => exact Nat.le_refl _
      | crash runs => exact (World.crash_grows _ _).sessions

/-- What was just opened is driven by nobody. -/
theorem Orderly.drives_opened (orderly : opened.Orderly past)
    (opening : (standingOf past opener).opening = some (.opened compiler session))
    (fresh : opened.world.session session = { compiler })
    (drives : opened.Drives past session compiler driver view) :
    view = SessionView.opened session compiler := by
  cases drives with
  | unborn late nobody => rw [fresh, SessionView.opened]
  | born driven => exact absurd driven (orderly.undriven_of_opened opening)

/-- From its opening on a session has a life, whoever is its driver. -/
theorem Trace.life {life : List (TaskId × Event S)} (trace : start.Trace
      (past ++ (opener, .op (.openSession compiler) session) :: life) machine)
    (vacant : start.Vacant panics) (hosts : E.Hosts panics)
    (drives : machine.Drives (past ++ (opener, .op (.openSession compiler) session) :: life)
      session compiler driver view) :
    SessionView.Life panics session compiler (marked driver life) view := by
  obtain ⟨before, opened, reached, made, onward⟩ := trace.split_at
  have whole := reached.seen made
  have fresh := made.opens
  have there : ∀ {life : List (TaskId × Event S)} {machine : Machine E},
      opened.Trace life machine → session < machine.world.sessions.length := by
    intro life machine onward
    refine Nat.lt_of_lt_of_le ?_ onward.sessions_le
    rw [fresh.1, fresh.2.1]
    exact Nat.lt_succ_self _
  rw [← List.singleton_append, ← List.append_assoc] at drives
  clear trace
  induction onward generalizing view with
  | start =>
      have opening : (standingOf (past ++ [(opener, .op (.openSession compiler) session)])
          opener).opening = some (.opened compiler session) := by
        have now : standingOf (past ++ [(opener, .op (.openSession compiler) session)]) opener =
            (standingOf past opener).note (.op (.openSession compiler) session) :=
          statusOf_self vacant.tidy reached made
        rw [now]
        rfl
      rw [List.append_nil] at drives
      rw [(whole.orderly vacant hosts).drives_opened opening fresh.2.2 drives]
      exact .opened
  | @seen life machine id event after earlier step ih =>
      rw [← List.append_assoc] at drives
      have trace := whole.append earlier
      obtain ⟨middle, drove, stepped⟩ := (trace.orderly vacant hosts).drives_seen vacant.tidy trace
        step (there earlier) drives
      rw [marked_append]
      exact (ih drove).seen stepped
  | unseen earlier step ih =>
      have trace := whole.append earlier
      obtain ⟨middle, drove, same | stepped⟩ := (trace.orderly vacant hosts).drives_unseen
        (vacant.tidy.trace trace) step (trace.permitted vacant hosts) (there earlier) drives
      · exact same ▸ ih drove
      · exact (ih drove).unseen stepped

end Life

end Machine

end Bundler
