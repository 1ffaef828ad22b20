import Bundler.Proofs.Compiler.SessionPhases

/-!
# Queues of sessions

What is queued for a session is taken by its driver, in the order in which it came, and by
nobody else. As long as the driver takes change sets, those that were delivered are those that
were received and those that are queued. The same holds of signals, also when the session is
closed: then all that were sent were heard.
-/

namespace Bundler

variable {S : Setting} {E : Environment S}

/-! ## What is seen of a session -/

namespace Event

/-- A change set that was queued for the driver of a session. -/
def delivered? (id : SessionId) : Event S → Option ChangeSet
  | .op (.deliver session changes) true => if session = id then some changes else none
  | _ => none

/-- A change set that was taken from the queue of a session. -/
def received? (id : SessionId) : Event S → Option ChangeSet
  | .op (.await session) (.changes changes) => if session = id then some changes else none
  | .op (.takeChanges session) (some changes) => if session = id then some changes else none
  | _ => none

/-- A signal that was queued for the driver of a session. -/
def sent? (id : SessionId) : Event S → Option (Signal S)
  | .op (.send session signal) true => if session = id then some signal else none
  | _ => none

/-- The signals that were taken from the queue of a session. -/
def heard (id : SessionId) : Event S → List (Signal S)
  | .op (.await session) (.signal signal) => if session = id then [signal] else []
  | .op (.takeSignals session) (signals, _) => if session = id then signals else []
  | .op (.shut session) signals => if session = id then signals else []
  | _ => []

end Event

namespace SessionView

/-- The events in the life of a session, with those of its driver marked. -/
abbrev Events (S : Setting) := List (Bool × Event S)

def delivered (id : SessionId) (events : Events S) : List ChangeSet :=
  events.filterMap fun entry => entry.2.delivered? id

def received (id : SessionId) (events : Events S) : List ChangeSet :=
  events.filterMap fun entry => entry.2.received? id

def sent (id : SessionId) (events : Events S) : List (Signal S) :=
  events.filterMap fun entry => entry.2.sent? id

def heard (id : SessionId) (events : Events S) : List (Signal S) :=
  events.flatMap fun entry => entry.2.heard id

section Lists

variable {id : SessionId} {events : Events S}

theorem delivered_append (more : Events S) :
    delivered id (events ++ more) = delivered id events ++ delivered id more :=
  List.filterMap_append

theorem received_append (more : Events S) :
    received id (events ++ more) = received id events ++ received id more :=
  List.filterMap_append

theorem sent_append (more : Events S) :
    sent id (events ++ more) = sent id events ++ sent id more :=
  List.filterMap_append

theorem heard_append (more : Events S) :
    heard id (events ++ more) = heard id events ++ heard id more :=
  List.flatMap_append

theorem delivered_one (entry : Bool × Event S) :
    delivered id [entry] = (entry.2.delivered? id).toList := by
  rw [delivered]
  cases found : entry.2.delivered? id <;> simp [found]

theorem received_one (entry : Bool × Event S) :
    received id [entry] = (entry.2.received? id).toList := by
  rw [received]
  cases found : entry.2.received? id <;> simp [found]

theorem sent_one (entry : Bool × Event S) : sent id [entry] = (entry.2.sent? id).toList := by
  rw [sent]
  cases found : entry.2.sent? id <;> simp [found]

theorem heard_one (entry : Bool × Event S) : heard id [entry] = entry.2.heard id := by
  simp [heard]

end Lists

section Queues

variable {panics : Prop} {id : SessionId} {compiler : CompilerId} {events : Events S}
  {session after : Session S} {operation : Op S} {reply : operation.Reply} {view : SessionView S}

/-- An operation that is aimed at another session neither fills nor empties the queues of this
one. -/
theorem queues_elsewhere (reply : operation.Reply) (elsewhere : operation.aim? ≠ some id) :
    (Event.op operation reply).delivered? id = none ∧
      (Event.op operation reply).received? id = none ∧
      (Event.op operation reply).sent? id = none ∧ (Event.op operation reply).heard id = [] := by
  have different : ∀ {other : SessionId}, operation.aim? = some other → other ≠ id :=
    fun aimed same => elsewhere (aimed.trans (congrArg some same))
  cases operation with
  | deliver other | await other | takeChanges other | send other =>
      have other_ := different rfl
      cases reply <;>
        simp [Event.delivered?, Event.received?, Event.sent?, Event.heard, other_]
  | takeSignals other | shut other =>
      have other_ := different rfl
      simp [Event.delivered?, Event.received?, Event.sent?, Event.heard, other_]
  | _ => exact ⟨rfl, rfl, rfl, rfl⟩

/-- The queue of change sets of a session holds what was delivered and is not received yet. -/
theorem arrivals_moves (mine : Bool) (moves : session.Moves id operation reply after)
    (queue : session.receives = true →
      delivered id events = received id events ++ session.arrivals)
    (receives : after.receives = true) :
    delivered id (events ++ [(mine, .op operation reply)]) =
      received id (events ++ [(mine, .op operation reply)]) ++ after.arrivals := by
  rw [delivered_append, received_append, delivered_one, received_one]
  cases moves with
  | other elsewhere =>
      obtain ⟨undelivered, unreceived, -, -⟩ := queues_elsewhere reply elsewhere
      simp [undelivered, unreceived, queue receives]
  | left => cases receives
  | undelivered unheard => exact nomatch unheard.symm.trans receives
  | delivered | noChanges => simp [Event.delivered?, Event.received?, queue receives]
  | wokenByChanges first | tookChanges first =>
      simp [Event.delivered?, Event.received?, queue receives, first]
  | _ => simp [Event.delivered?, Event.received?, queue receives]

/-- The queue of signals of a session holds what was sent and is not heard yet. -/
theorem signals_moves (mine : Bool) (moves : session.Moves id operation reply after)
    (emptied : session.Emptied)
    (ready : operation = .shut id → session.answers = true ∨ session.phase = .closed)
    (queue : session.answers = true ∨ session.phase = .closed →
      sent id events = heard id events ++ session.signals)
    (answers : after.answers = true ∨ after.phase = .closed) :
    sent id (events ++ [(mine, .op operation reply)]) =
      heard id (events ++ [(mine, .op operation reply)]) ++ after.signals := by
  rw [sent_append, heard_append, sent_one, heard_one]
  cases moves with
  | other elsewhere =>
      obtain ⟨-, -, unsent, unheard⟩ := queues_elsewhere reply elsewhere
      simp [unsent, unheard, queue answers]
  | queued open_ hears => simp [Event.sent?, Event.heard, queue (.inl hears)]
  | unheard open_ deaf =>
      rename_i signal
      rcases answers with hears | closed
      · exact nomatch deaf.symm.trans hears
      · cases signal with
        | invalidate callback => exact absurd closed open_
        | close callback => cases closed
  | wokenBySignal first => simp [Event.sent?, Event.heard, queue answers, first]
  | shut => simp [Event.sent?, Event.heard, queue (ready rfl)]
  | left =>
      rcases answers with hears | closed
      · cases hears
      · simp [Event.sent?, Event.heard, queue (.inr closed), (emptied closed).1]
  | _ => simp [Event.sent?, Event.heard, queue answers]

/-- What waits in the queue of change sets: what was delivered and is not received yet. -/
theorem Life.arrivals (life : Life panics id compiler events view) :
    view.session.receives = true →
      delivered id events = received id events ++ view.session.arrivals := by
  have aside : ∀ {entry : Bool × Event S} {events : Events S} {arrivals : List ChangeSet},
      entry.2.delivered? id = none ∧ entry.2.received? id = none →
      delivered id events = received id events ++ arrivals →
      delivered id (events ++ [entry]) = received id (events ++ [entry]) ++ arrivals := by
    intro entry events arrivals quiet same
    rw [delivered_append, received_append, delivered_one, received_one, quiet.1, quiet.2]
    simpa using same
  induction life with
  | opened => exact fun _ => rfl
  | seen before step ih =>
      intro receives
      cases step with
      | op alive allowed expected moves => exact arrivals_moves true moves ih receives
      | visit open_ moves => exact arrivals_moves false moves ih receives
      | call | request | visitCall | visitRequest => exact aside ⟨rfl, rfl⟩ (ih receives)
  | unseen before step ih =>
      cases step with
      | finish => exact ih
      | crash => exact nofun

/-- What waits in the queue of signals: what was sent and is not heard yet. When a session is
closed, all that was sent was heard. -/
theorem Life.signals (life : Life panics id compiler events view) :
    view.session.answers = true ∨ view.session.phase = .closed →
      sent id events = heard id events ++ view.session.signals := by
  have aside : ∀ {entry : Bool × Event S} {events : Events S} {signals : List (Signal S)},
      entry.2.sent? id = none ∧ entry.2.heard id = [] →
      sent id events = heard id events ++ signals →
      sent id (events ++ [entry]) = heard id (events ++ [entry]) ++ signals := by
    intro entry events signals quiet same
    rw [sent_append, heard_append, sent_one, heard_one, quiet.1, quiet.2]
    simpa using same
  induction life with
  | opened => exact fun _ => rfl
  | seen before step ih =>
      obtain ⟨book, placed⟩ := before.placed
      intro answers
      cases step with
      | op alive allowed expected moves =>
          refine signals_moves true moves placed.emptied (fun shuts => ?_) ih answers
          by_contra deaf
          rw [not_or, Bool.not_eq_true] at deaf
          rcases placed.answers deaf.1 with shut | gone
          · exact deaf.2 (placed.closed.mpr shut)
          · exact nomatch alive.symm.trans gone
      | visit open_ moves =>
          exact signals_moves false moves placed.emptied
            (fun shuts => absurd (by rw [shuts]; rfl) open_) ih answers
      | call | request | visitCall | visitRequest => exact aside ⟨rfl, rfl⟩ (ih answers)
  | unseen before step ih =>
      obtain ⟨book, placed⟩ := before.placed
      cases step with
      | finish => exact ih
      | crash =>
          rintro (hears | closed)
          · cases hears
          · have same := ih (.inr closed)
            rwa [(placed.emptied closed).1] at same

/-- Only its driver takes from the queues of a session. -/
theorem Life.taken_by_driver (life : Life panics id compiler events view)
    {entry : Bool × Event S} (member : entry ∈ events)
    (takes : entry.2.received? id ≠ none ∨ entry.2.heard id ≠ []) : entry.1 = true := by
  obtain ⟨mine, event⟩ := entry
  cases event with
  | op operation reply =>
      by_cases reserved : operation.Reserved id
      · exact life.reserved member reserved
      · exfalso
        cases operation with
        | await other | takeChanges other =>
            have different : other ≠ id := reserved
            rcases takes with takes | takes <;> cases reply <;>
              exact takes (by simp [Event.received?, Event.heard, different])
        | takeSignals other | shut other =>
            have different : other ≠ id := reserved
            rcases takes with takes | takes <;>
              exact takes (by simp [Event.received?, Event.heard, different])
        | _ => rcases takes with takes | takes <;> exact takes rfl
  | call | request => rcases takes with takes | takes <;> exact absurd rfl takes

end Queues

end SessionView

end Bundler
