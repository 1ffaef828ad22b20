import Bundler.Proofs.Compiler.LockRelease
import Bundler.Proofs.Compiler.OwnCalls

/-!
# Callbacks of sessions

What becomes of the callbacks that are given to a session, in every execution. A signal is
queued or refused. The callbacks of the signals that were queued are called by the driver, at
most once each and in the order `callOrder`, and all of them have been when its close sequence
is over. A run calls a callback only if its phases began after the invalidate was sent, and
between its handler and its `after_done`; the others are called after `watch_close` has fired.
The callback of a signal that was refused is called at once by whoever sent it. A signal is
refused because the session is closed, or because the driver has panicked: an observer that
panics in the task of the driver leaves a session that is not closed and refuses everything.
-/

namespace Bundler

variable {S : Setting} {E : Environment S}

open Compiler Compiler.History

/-- The driver calls a callback at the right moment. -/
inductive Timely (E : Environment S) (session : SessionId) (compiler : CompilerId)
    (driver : TaskId) (earlier : List (TaskId × Event S)) (callback : S.Callback) : Prop where
  /-- A run calls it: the handler was called since its phases began and no observer of
  `after_done`, and it is the first callback that was not called yet of the invalidates that
  were queued before the phases began. -/
  | answers {before worker after middle}
      (run : earlier = before ++ (driver, .op (.spawn (.watchPhases compiler)) worker) :: after)
      (did : Expands E middle (eventsOf driver after))
      (handled : handled middle = 1)
      (unfinished : ∀ deed ∈ middle, ¬ deed.EndsRun)
      (next : ((SessionView.sent session (marked driver before)).filterMap Signal.invalidator?)[
        (ownCalls none (eventsOf driver earlier)).length]? = some callback)
  /-- The session is closed: observers of `watch_close` have been told, and since then callbacks
  were called and nothing else was done. -/
  | dismisses {before left after ended fired ending rest}
      (shut : earlier = before ++ (driver, .op (.shut session) left) :: after)
      (did : Expands E (.op (.shift compiler .endWatch) ended :: (fired ++ rest))
        (eventsOf driver after))
      (fires : Fires compiler .watchClose (Told compiler .watchClose) () fired ending)
      (calls : ∀ deed ∈ rest, deed.calls?.isSome = true)

/-- Where a deed of a task stands among the events of all. -/
theorem Expands.locate {task : TaskId} {events : List (TaskId × Event S)}
    {before after : List (Deed S)} {operation : Op S} {reply : operation.Reply}
    (expands : Expands E (before ++ .op operation reply :: after) (eventsOf task events)) :
    ∃ first rest, events = first ++ (task, .op operation reply) :: rest ∧
      Expands E before (eventsOf task first) ∧ Expands E after (eventsOf task rest) := by
  obtain ⟨first, rest, same, early, late⟩ := expands.of_append
  cases late with
  | op late =>
      obtain ⟨first, rest, rfl, rfl, rfl⟩ := eventsOf_eq_append same
      exact ⟨first, rest, rfl, early, late⟩

theorem Expands.mem_events {deeds : List (Deed S)} {events : List (Event S)} {operation : Op S}
    {reply : operation.Reply} (expands : Expands E deeds events)
    (member : .op operation reply ∈ deeds) : .op operation reply ∈ events := by
  obtain ⟨before, after, rfl⟩ := List.append_of_mem member
  obtain ⟨first, rest, rfl, -, late⟩ := expands.of_append
  cases late with
  | op => exact List.mem_append_right _ (.head _)

namespace SessionView

variable {panics : Prop} {id : SessionId} {compiler : CompilerId} {driver : TaskId}
  {events : List (TaskId × Event S)} {view : SessionView S}

theorem mem_marked {event : Event S} :
    (true, event) ∈ marked driver events ↔ (driver, event) ∈ events := by
  simp [marked]

/-- A life up to something that the driver does. -/
theorem Life.split_own {first rest : List (TaskId × Event S)} {event : Event S}
    (life : Life panics id compiler (marked driver (first ++ (driver, event) :: rest)) view) :
    ∃ before after, Life panics id compiler (marked driver first) before ∧
      before.Step panics id (some (true, event)) after := by
  rw [marked_append, show marked driver ((driver, event) :: rest) =
    (decide (driver = driver), event) :: marked driver rest from rfl, decide_eq_true rfl] at life
  exact life.split

/-- What was heard of a session is what its driver took. -/
theorem Life.heard_eq (life : Life panics id compiler (marked driver events) view) :
    heard id (marked driver events) = (eventsOf driver events).flatMap (Event.heard id) := by
  have others : ∀ entry ∈ events, entry.1 ≠ driver → entry.2.heard id = [] := by
    intro entry member other
    by_contra takes
    have listed : (decide (entry.1 = driver), entry.2) ∈ marked driver events :=
      List.mem_map_of_mem member
    exact other (of_decide_eq_true (life.taken_by_driver listed (.inr takes)))
  clear life
  induction events with
  | nil => rfl
  | cons entry events ih =>
      obtain ⟨task, event⟩ := entry
      have later := ih fun entry member => others entry (.tail _ member)
      have split : heard id (marked driver ((task, event) :: events)) =
          event.heard id ++ heard id (marked driver events) := rfl
      rw [split, later]
      by_cases self : task = driver
      · obtain rfl := self
        rw [eventsOf_cons_self, List.flatMap_cons]
      · rw [eventsOf_cons_of_ne self, others (task, event) (.head _) self, List.nil_append]

/-- All signals that were queued were heard when a session is closed. -/
theorem Life.all_heard {events : Events S} (life : Life panics id compiler events view)
    (closed : view.session.phase = .closed) : sent id events = heard id events := by
  obtain ⟨book, placed⟩ := life.placed
  rw [life.signals (.inr closed), (placed.emptied closed).1, List.append_nil]

end SessionView

namespace Machine

variable {start machine after : Machine E} {events life first rest : List (TaskId × Event S)}
  {task spawner : TaskId} {session : SessionId} {compiler : CompilerId} {panics : Prop}
  {stage : DriverStage} {driver : Driver S}

/-! ## The task that was refused -/

/-- A task that owes a callback is about to call it. -/
theorem Trace.owes (trace : start.Trace events machine) (vacant : start.Vacant panics)
    (hosts : E.Hosts panics) {callback : S.Callback}
    (owing : owed none (eventsOf task events) = some callback) :
    ∃ next, machine.program? task = some (.call (.notify callback) next) := by
  induction trace with
  | start => cases owing
  | @seen events machine id event after before step ih =>
      have ready := vacant.tidy.trace before
      by_cases self : task = id
      · obtain rfl := self
        obtain ⟨program, runs⟩ := Option.isSome_iff_exists.mp (ready.alive step).2
        have pays := (before.seen step).pays vacant hosts runs
        rw [owing] at pays
        obtain ⟨next, rfl⟩ := pays.makes_up
        exact ⟨next, runs⟩
      · rw [eventsOf_append, eventsOf_of_ne (Ne.symm self), List.append_nil] at owing
        obtain ⟨next, runs⟩ := ih owing
        exact ⟨next, by rw [ready.program?_other step self (ready.below _ _ runs), runs]⟩
  | @unseen events machine id after before step ih =>
      have ready := vacant.tidy.trace before
      obtain ⟨next, runs⟩ := ih owing
      by_cases self : task = id
      · obtain rfl := self
        cases step with
        | turn other | finish other | crash other => cases other.symm.trans runs
      · exact ⟨next, by rw [ready.program?_other step self (ready.below _ _ runs), runs]⟩

/-- Whoever is refused calls the callback next. -/
theorem Trace.makes_up {sender : TaskId} {signal : Signal S} (vacant : start.Vacant panics)
    (hosts : E.Hosts panics)
    (trace : start.Trace (first ++ (sender, .op (.send session signal) false) :: rest) machine) :
    (∃ later, eventsOf sender rest = .call (.notify signal.callback) :: later) ∨
      eventsOf sender rest = [] ∧
        ∃ next, machine.program? sender = some (.call (.notify signal.callback) next) := by
  have turned : ∀ {more}, eventsOf sender more = [] →
      owed none (eventsOf sender (first ++ (sender, .op (.send session signal) false) :: more)) =
        some signal.callback := by
    intro more nothing
    rw [eventsOf_append, eventsOf_cons_self, nothing, owed_concat]
    rfl
  cases own : eventsOf sender rest with
  | nil => exact .inr ⟨rfl, trace.owes vacant hosts (turned own)⟩
  | cons event later =>
      obtain ⟨between, beyond, rfl, nothing, -⟩ :=
        eventsOf_eq_append (show eventsOf sender rest = [] ++ event :: later from own)
      rw [List.append_cons, ← List.append_assoc] at trace
      obtain ⟨before, after, reached, step, -⟩ := trace.split_at
      rw [← List.append_cons] at reached
      obtain ⟨next, runs⟩ := reached.owes vacant hosts (turned nothing)
      cases step with
      | op other | request other => cases runs.symm.trans other
      | call other =>
          cases runs.symm.trans other
          exact .inl ⟨later, rfl⟩

/-! ## What the driver does of its own accord -/

/-- A task that does something was spawned before. -/
theorem Tidy.unspawned_later {event : Event S} {job : Job S} (tidy : start.Tidy)
    (trace : start.Trace (first ++ (task, event) :: rest) machine) :
    (spawner, .op (.spawn job) task) ∉ (task, event) :: rest := by
  obtain ⟨before, after, reached, step, onward⟩ := trace.split_at
  have ready := tidy.trace reached
  obtain ⟨program, runs⟩ := step.runs
  have begun := ready.below task program runs
  intro spawned
  rcases List.mem_cons.mp spawned with same | late
  · obtain ⟨rfl, rfl⟩ := Prod.mk.inj same
    exact absurd (ready.program?_spawned step).1 (Nat.ne_of_lt begun)
  · have old := Nat.lt_of_lt_of_le begun step.nextTask_le
    exact absurd late ((ready.step step).unspawned onward old)

/-- What a driver has called of its own accord and taken from its queue is what its deeds have
called and taken. -/
theorem Trace.driver_did (tidy : start.Tidy) (trace : start.Trace events machine)
    (hosts : E.Hosts panics)
    (spawned : (spawner, .op (.spawn (.drive stage driver)) task) ∈ events)
    (own : ∀ operation reply, .op operation reply ∈ eventsOf task events →
      (Event.op operation reply).heard session = (Deed.op operation reply).heard) :
    ∃ deeds left, Course (.drive stage driver) deeds left ∧
      called deeds = ownCalls none (eventsOf task events) ∧
      taken deeds = (eventsOf task events).flatMap (Event.heard session) ∧
      ∀ operation reply, .op operation reply ∈ deeds → .op operation reply ∈ eventsOf task events := by
  have answers : ∀ outside, (E.answer outside).Prompt Op.OfClient False (fun _ => True) none :=
    fun outside => (hosts outside).prompt
  obtain ⟨deeds, left, seen, tail, course, expands, same, trailing⟩ := tidy.did trace spawned
  rw [same] at own ⊢
  have plain : ∀ operation reply, .op operation reply ∈ deeds → operation.Plain := by
    rintro operation reply member session signal rfl
    exact ofJob_of_course course member
  obtain ⟨calls, owes⟩ := expands.ownCalls_eq hosts plain
  have takes := expands.taken_eq hosts fun operation reply member =>
    own operation reply (List.mem_append_left _ member)
  cases trailing with
  | between =>
      rw [List.append_nil]
      exact ⟨deeds, left, course, calls.symm, takes.symm, fun _ _ => expands.mem_events⟩
  | @calling outside next inner code begun follows =>
      subst begun
      -- The call under way counts as a deed, whatever it will be answered.
      obtain ⟨reply⟩ := Prog.nonempty_answer outside
      have silent : ownCalls none inner = [] := (answers outside).ownCalls_eq answers follows
      have deaf : inner.flatMap (Event.heard session) = [] :=
        heard_of_client ((answers outside).follows answers follows).2
      refine ⟨deeds ++ [.call outside reply], next reply, course.extend (.call (.start _)), ?_, ?_, ?_⟩
      · rw [called_append, ownCalls_append, calls, owes]
        change _ = _ ++ (_ ++ ownCalls none inner)
        rw [silent]
        cases outside <;> rfl
      · rw [taken_append, List.flatMap_append, List.flatMap_cons, takes, deaf]
        rfl
      · intro operation answer member
        rcases List.mem_append.mp member with member | last
        · exact List.mem_append_left _ (expands.mem_events member)
        · cases List.mem_singleton.mp last

/-- A callback that a driver calls of its own accord is called by its job. -/
theorem Tidy.calls_own {callback : S.Callback} (tidy : start.Tidy)
    (trace : start.Trace events machine) (hosts : E.Hosts panics)
    (spawned : (spawner, .op (.spawn (.drive stage driver)) task) ∈ events)
    (step : machine.Step task (some (.call (.notify callback))) after)
    (free : owed none (eventsOf task events) = none) :
    ∃ deeds next, Course (.drive stage driver) deeds (.call (.notify callback) next) ∧
      Expands E deeds (eventsOf task events) := by
  have answers : ∀ outside, (E.answer outside).Prompt Op.OfClient False (fun _ => True) none :=
    fun outside => (hosts outside).prompt
  cases step with
  | call runs =>
      rcases tidy.history trace spawned with ⟨left, found, accounts⟩ | ⟨absent, -⟩
      · obtain rfl := Option.some.inj (runs.symm.trans found)
        rcases accounts.settled with ⟨deeds, course, expands⟩ |
          ⟨deeds, seen, outside, next, inner, code, -, -, follows, same, left, unfinished⟩
        · exact ⟨deeds, _, course, expands⟩
        · exfalso
          have prompt := ((answers outside).follows answers follows).1
          rw [same, owed_append, owed_cons, show (Event.call outside : Event S).turnedAway? = none
            from rfl] at free
          rw [free] at prompt
          cases code with
          | call other further =>
              cases left
              exact (prompt.owed_of_notify).elim nofun id
          | done reply => exact unfinished reply rfl
          | op | request | panic => cases left
      · cases runs.symm.trans absent

/-! ## The callbacks of a session -/

/-- What becomes of the callbacks that were given to a session, from its opening on. -/
structure CallsBack (machine : Machine E) (opening : List (TaskId × Event S)) (session : SessionId)
    (compiler : CompilerId) (job : Job S) (driver : TaskId) (life : List (TaskId × Event S)) :
    Prop where
  /-- The driver calls the callbacks of the signals that were queued, each at most once and in
  order. -/
  once : ∃ answered, ownCalls none (eventsOf driver life) <+:
    callOrder (SessionView.sent session (marked driver life)) answered
  /-- None of them is left when the close sequence is over. -/
  complete : ∀ history left, Course job history left → Expands E history (eventsOf driver life) →
    Closed session compiler history → ∃ answered, ownCalls none (eventsOf driver life) =
      callOrder (SessionView.sent session (marked driver life)) answered
  /-- Who calls a callback was refused just before, or is the driver at the right moment, or drives
  another session. -/
  timely : ∀ first task callback rest, life = first ++ (task, .call (.notify callback)) :: rest →
    TurnedAway (eventsOf task (opening ++ first)) callback ∨
    task = driver ∧ Timely E session compiler driver first callback ∨
    ∃ spawner stage other, (spawner, .op (.spawn (.drive stage other)) task) ∈ opening ++ first ∧
      other.session ≠ session
  /-- A signal is refused when the session is closed, or when the driver is over and has not closed
  it. Then the callback is what the sender calls next. -/
  refused : ∀ first sender signal rest,
    life = first ++ (sender, .op (.send session signal) false) :: rest →
    ((∃ left, (driver, .op (.shut session) left) ∈ first) ∨
      machine.program? driver = none ∧ (machine.world.session session).phase ≠ .closed ∧
        ∃ deeds outside, Ended E job (eventsOf driver life) deeds (some outside)) ∧
    ((∃ later, eventsOf sender rest = .call (.notify signal.callback) :: later) ∨
      eventsOf sender rest = [] ∧
        ∃ next, machine.program? sender = some (.call (.notify signal.callback) next))
  /-- The driver is over when its close sequence is, unless code outside has panicked in its
  task. -/
  ended : machine.program? driver = none →
    (∃ history, Course job history (.done none) ∧ Expands E history (eventsOf driver life) ∧
      Closed session compiler history) ∨
    ∃ deeds outside, Ended E job (eventsOf driver life) deeds (some outside)

section Session

variable {past : List (TaskId × Event S)} {opener : TaskId}

/-- A driver of a session, as it was spawned: what it has done closes its session once. -/
theorem Trace.closing_of_spawned (vacant : start.Vacant panics) (hosts : E.Hosts panics)
    (trace : start.Trace
      (past ++ (opener, .op (.openSession compiler) driver.session) :: life) machine)
    (spawned : (spawner, .op (.spawn (.drive stage driver)) task) ∈ life)
    {deeds : List (Deed S)} {left : Prog S (Next S)} (course : Course (.drive stage driver) deeds left) :
    Closing driver.session compiler deeds left := by
  have among : (spawner, .op (.spawn (.drive stage driver)) task) ∈
      past ++ (opener, .op (.openSession compiler) driver.session) :: life :=
    List.mem_append_right _ (List.mem_cons_of_mem _ spawned)
  have same : driver.compiler = compiler := by
    have known := trace.driven_of_spawned vacant among
    rw [(trace.life_of_spawned vacant hosts spawned).1] at known
    exact (Prod.mk.inj (Option.some.inj known)).2.symm
  obtain ⟨rfl, initial⟩ := trace.initial_of_spawned vacant hosts among
  have begins : Keeps driver ([] : History S) := by
    rw [Keeps, initial]
    exact Account.nil
  have closing := closing_of_course course begins
  rwa [List.nil_append, same] at closing

/-- A callback that the driver calls of its own accord is called at the right moment. -/
theorem Trace.timely {callback : S.Callback} (vacant : start.Vacant panics) (hosts : E.Hosts panics)
    (trace : start.Trace
      (past ++ (opener, .op (.openSession compiler) driver.session) :: first) machine)
    (spawned : (spawner, .op (.spawn (.drive stage driver)) task) ∈ first)
    (step : machine.Step task (some (.call (.notify callback))) after)
    (free : owed none (eventsOf task first) = none) :
    Timely E driver.session compiler task first callback := by
  obtain ⟨-, lived⟩ := trace.life_of_spawned vacant hosts spawned
  have unborn : eventsOf task
      (past ++ (opener, .op (.openSession compiler) driver.session) :: first) =
      eventsOf task first := by
    rw [List.append_cons] at trace ⊢
    exact trace.eventsOf_unborn vacant.tidy spawned
  have among : (spawner, .op (.spawn (.drive stage driver)) task) ∈
      past ++ (opener, .op (.openSession compiler) driver.session) :: first :=
    List.mem_append_right _ (List.mem_cons_of_mem _ spawned)
  obtain ⟨deeds, next, course, expands⟩ :=
    vacant.tidy.calls_own trace hosts among step (unborn ▸ free)
  rw [unborn] at expands
  have plain : ∀ operation reply, .op operation reply ∈ deeds → operation.Plain := by
    rintro operation reply member session signal rfl
    exact ofJob_of_course course member
  have calls := (expands.ownCalls_eq hosts plain).1
  have closing := trace.closing_of_spawned vacant hosts spawned
    (course.extend (.call (.start (next ()))))
  by_cases unshut : Open deeds
  · have open_ : Open (deeds ++ [.call (.notify callback) ()]) := unshut.snoc id
    have sound := closing.sane _ List.prefix_rfl
    rcases sound.right deeds _ rfl with
      ⟨-, before, spawnedFor, worker, middle, rfl, -, once, unfinished, due⟩ |
      ⟨before, left, other, ended, fired, ending, rest, rfl, -, -⟩
    · obtain ⟨earlier, later, rfl, early, late⟩ := expands.locate
      obtain ⟨view, viewed, living, moment⟩ := lived.split_own
      obtain rfl : spawnedFor = compiler := by
        cases moment with
        | op alive allowed =>
            obtain ⟨book, held, rfl, -⟩ := allowed.2
            have driven := living.driven
            rw [Standing.driven, held] at driven
            exact (Prod.mk.inj (Option.some.inj driven)).2
      have queued : invalidators before <+:
          (SessionView.sent driver.session (marked task earlier)).filterMap Signal.invalidator? := by
        have took : taken before = SessionView.heard driver.session (marked task earlier) := by
          rw [living.heard_eq, early.taken_eq hosts]
          exact fun operation reply member =>
            living.hears_own (SessionView.mem_marked.mpr (mem_eventsOf.mp member))
        exact (took ▸ living.heard_prefix).filterMap Signal.invalidator?
      refine .answers rfl late once unfinished ?_
      have next := next_of_called (List.prefix_append _ _) (sound.called open_) due
      rw [calls, ← next, List.getElem?_eq_getElem due]
      exact List.prefix_iff_getElem?.mp queued _ due
    · exact absurd (unshut _ (List.mem_append_right _ (.head _))) (not_not_intro trivial)
  · obtain ⟨more, closed⟩ := closing.once.resolve_left fun open_ => unshut open_.of_append
    rw [List.append_assoc] at closed
    obtain ⟨before, left, ended, fired, ending, rest, rfl, fires, called⟩ := closed.called_past unshut
    obtain ⟨earlier, later, rfl, -, late⟩ := expands.locate
    exact .dismisses rfl late fires called

/-- However the tasks are interleaved, and whatever panics: what becomes of the callbacks that are
given to a session. -/
theorem callbacks_called (vacant : start.Vacant panics) (hosts : E.Hosts panics)
    (trace : start.Trace
      (past ++ (opener, .op (.openSession compiler) driver.session) :: life) machine)
    (spawned : (spawner, .op (.spawn (.drive stage driver)) task) ∈ life) :
    machine.CallsBack (past ++ [(opener, .op (.openSession compiler) driver.session)])
      driver.session compiler (.drive stage driver) task life := by
  obtain ⟨driven, lived⟩ := trace.life_of_spawned vacant hosts spawned
  have among : (spawner, .op (.spawn (.drive stage driver)) task) ∈
      past ++ (opener, .op (.openSession compiler) driver.session) :: life :=
    List.mem_append_right _ (List.mem_cons_of_mem _ spawned)
  have own : eventsOf task (past ++ (opener, .op (.openSession compiler) driver.session) :: life) =
      eventsOf task life := by
    rw [List.append_cons] at trace ⊢
    exact trace.eventsOf_unborn vacant.tidy spawned
  have mine : ∀ operation reply, .op operation reply ∈ eventsOf task life →
      (Event.op operation reply).heard driver.session = (Deed.op operation reply).heard :=
    fun operation reply member =>
      lived.hears_own (SessionView.mem_marked.mpr (mem_eventsOf.mp member))
  -- All signals were taken when the driver has shut the session.
  have emptied : ∀ {left}, .op (.shut driver.session) left ∈ eventsOf task life →
      SessionView.sent driver.session (marked task life) =
        (eventsOf task life).flatMap (Event.heard driver.session) := by
    intro left member
    rw [← lived.heard_eq]
    exact lived.all_heard (lived.closed_iff.mpr ⟨left, SessionView.mem_marked.mpr (mem_eventsOf.mp member)⟩)
  have history := own ▸ vacant.tidy.history trace among
  refine
    { once := ?_
      complete := fun history left course expands closed => ?_
      timely := fun first other callback rest split => ?_
      refused := fun first sender signal rest split => ⟨?_, ?_⟩
      ended := fun gone => ?_ }
  · obtain ⟨deeds, left, course, calls, takes, shown⟩ :=
      trace.driver_did vacant.tidy hosts among fun operation reply member =>
        mine operation reply (own ▸ member)
    rw [own] at calls takes shown
    have closing := trace.closing_of_spawned vacant hosts spawned course
    rw [← calls]
    refine ordered closing.sane closing.once ?_ fun shut => ?_
    · rw [takes, ← lived.heard_eq]
      exact lived.heard_prefix
    · obtain ⟨more, closed⟩ := closing.once.resolve_left shut
      obtain ⟨left, member⟩ := closed.shut.resolve_left shut
      rw [takes, emptied (shown _ _ member)]
  · have plain : ∀ operation reply, .op operation reply ∈ history → operation.Plain := by
      rintro operation reply member session signal rfl
      exact ofJob_of_course course member
    obtain ⟨left, member⟩ := closed.shut_mem
    rw [(expands.ownCalls_eq hosts plain).1, emptied (expands.mem_events member),
      expands.taken_eq hosts mine]
    exact closed.called_eq
  · subst split
    rw [← List.cons_append, ← List.append_assoc] at trace
    rw [← List.append_cons]
    obtain ⟨before, after, reached, step, -⟩ := trace.split_at
    cases owes : owed none (eventsOf other
        (past ++ (opener, .op (.openSession compiler) driver.session) :: first)) with
    | some callback' =>
        obtain ⟨next, about⟩ := reached.owes vacant hosts owes
        cases step with
        | call runs =>
            cases runs.symm.trans about
            exact .inl (turnedAway_of_owed owes)
    | none =>
        right
        by_cases self : other = task
        · subst self
          have earlier : (spawner, .op (.spawn (.drive stage driver)) other) ∈ first :=
            (List.mem_append.mp spawned).resolve_right (vacant.tidy.unspawned_later trace)
          refine .inl ⟨rfl, reached.timely vacant hosts earlier step ?_⟩
          rw [List.append_cons] at owes reached
          rwa [reached.eventsOf_unborn vacant.tidy earlier] at owes
        · refine .inr ?_
          cases step with
          | call runs =>
              have pays := reached.pays vacant hosts runs
              rw [owes] at pays
              obtain ⟨guided, stage', guide, member⟩ := pays.owed_of_notify.resolve_left nofun
              refine ⟨guided, stage', guide, member, fun same => ?_⟩
              have guides := trace.driven_of_spawned vacant (List.mem_append_left _ member)
              rw [List.append_assoc, List.cons_append] at trace guides
              rw [same] at guides
              exact self ((trace.orderly vacant hosts).eq_of_driven driven guides)
  · subst split
    rcases lived.refused (marked_append ..) with ⟨left, member⟩ | ⟨gone, open_, -⟩
    · exact .inl ⟨left, SessionView.mem_marked.mp member⟩
    · have absent : machine.program? task = none := by simpa using gone
      refine .inr ⟨absent, open_, ?_⟩
      rcases history with ⟨left, found, -⟩ | ⟨-, deeds, broken, stops⟩
      · cases absent.symm.trans found
      generalize own : eventsOf task _ = events at stops
      cases stops with
      | finished course expands =>
          have closing := trace.closing_of_spawned vacant hosts spawned course
          obtain ⟨left, member⟩ := (closing.complete rfl).shut_mem
          refine absurd (lived.closed_iff.mpr ⟨left, SessionView.mem_marked.mpr ?_⟩) open_
          exact mem_eventsOf.mp (own ▸ expands.mem_events member)
      | broken course expands panicked => exact ⟨_, _, .broken course expands panicked⟩
  · subst split
    rw [← List.cons_append, ← List.append_assoc] at trace
    exact trace.makes_up vacant hosts
  · rcases history with ⟨left, found, -⟩ | ⟨-, deeds, broken, stops⟩
    · cases gone.symm.trans found
    · generalize eventsOf task life = events at stops
      cases stops with
      | finished course expands =>
          have closing := trace.closing_of_spawned vacant hosts spawned course
          exact .inl ⟨_, course, expands, closing.complete rfl⟩
      | broken course expands panicked => exact .inr ⟨_, _, .broken course expands panicked⟩

end Session

end Machine

namespace Compiler

/-- The callback of the one close was called by the driver, after `watch_close`. -/
theorem stopped_callbacks_called :
    stopped.2.CallsBack ([(0, .op (.shift 0 .beginWatch) true)] ++ [(0, .op (.openSession 0) 0)]) 0 0
      (.drive .waiting { session := 0, compiler := 0, options := {}, handler := () }) 1 stoppedLife ∧
    ownCalls none (eventsOf 1 stoppedLife) = [()] := by
  have spawned : (0, .op (.spawn (.drive .waiting
      { session := 0, compiler := 0, options := {}, handler := () })) 1) ∈ stoppedLife :=
    List.mem_append_left _ (.head _)
  refine ⟨?_, by cbv⟩
  exact Machine.callbacks_called stopper_vacant (Environment.granting_hosts False) stopped_trace spawned

/-! ## A driver that panics -/

/-- A compiler with an observer that is told of the ends of runs. -/
def reportedCompiler : CompilerRecord Setting.plain where
  options := Options.forContext (.of "/")
  registry := [⟨.afterDone, ⟨"report", .outside ()⟩⟩]

/-- Who is told of the end of a run panics. -/
def panickingEnd : Occasion → Prog Setting.plain (Except String Unit)
  | .afterDone _ => .panic
  | _ => return .ok ()

theorem panickingEnd_visitor (occasion : Occasion) : (panickingEnd occasion).Visitor True := by
  cases occasion with
  | afterDone => exact .panic trivial
  | _ => exact .done _

/-- The task watches the compiler and asks for the end after the first run. -/
def deserted : Machine (Environment.observing panickingEnd) :=
  .hosting () [reportedCompiler] stopping

theorem deserted_vacant : deserted.Vacant True := by
  have visitor : stopping.Visitor True := by
    refine .watch fun session => ?_
    cases session with
    | none => exact .done ()
    | some session =>
        have asks : (close session () >>= pure : Prog Setting.plain Unit).Visitor True :=
          .close fun _ => .done ()
        rw [bind_pure] at asks
        exact asks
  refine Machine.vacant_hosting visitor fun record member => ?_
  obtain rfl : record = reportedCompiler := by simpa using member
  exact ⟨rfl, rfl⟩

def deserting :
    List (TaskId × Event Setting.plain) × Machine (Environment.observing panickingEnd) :=
  Machine.playback [] deserted
    (List.replicate 3 0 ++ List.replicate 12 1 ++ List.replicate 20 2 ++ List.replicate 20 1 ++
      List.replicate 10 0)

/-- Observers are told that a session was closed. -/
def tellsClose : Event Setting.plain → Bool
  | .call (.observe _ _ .watchClose) => true
  | _ => false

/-- A panic of an observer of `after_done` leaves a session that is not closed and refuses the
close: its callback is called at once, and `watch_close` has not fired. No handler and no callback
panicked. -/
theorem deserting_calls_back :
    deserted.Vacant True ∧ (Environment.observing panickingEnd).Hosts True ∧
      deserted.Trace deserting.1 deserting.2 ∧
      deserting.1.drop 34 = [(0, .op (.send 0 (.close ())) false), (0, .call (.notify ()))] ∧
      (deserting.2.world.session 0).phase = .closing ∧
      (deserting.1.any fun entry => tellsClose entry.2) = false ∧
      (∀ handler result, (Environment.observing panickingEnd).answer (.handle handler result) = .done ()) ∧
      ∀ callback, (Environment.observing panickingEnd).answer (.notify callback) = .done () :=
  ⟨deserted_vacant, Environment.observing_hosts panickingEnd_visitor,
    Machine.trace_playback .start _, rfl, rfl, rfl, fun _ _ => rfl, fun _ => rfl⟩

end Compiler

end Bundler
