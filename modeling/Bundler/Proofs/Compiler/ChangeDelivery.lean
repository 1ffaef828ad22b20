import Bundler.Proofs.Compiler.SessionQueues
import Mathlib

/-!
# Delivery of changes

What the life of a session says about the change sets that were delivered to it. The events
are cut where the runs of the driver take their changes. A run takes the merge of exactly what
the driver received since the cut before, the session remembers the last of these that was not
empty, and after the first run there is none without a change or an invalidate behind it.
-/

namespace Bundler

variable {S : Setting} {E : Environment S}

/-! ## Runs among the events of a session -/

namespace Event

/-- The change set that a run of a compiler takes. -/
def takes? : Event S → Option (CompilerId × ChangeSet)
  | .op (.setChanges compiler changes) _ => some (compiler, changes)
  | _ => none

end Event

def Signal.asksForRun : Signal S → Bool
  | .invalidate _ => true
  | .close _ => false

namespace SessionView

/-- The change sets that the runs of the driver took, with the compilers of the runs. -/
def taken (events : Events S) : List (CompilerId × ChangeSet) :=
  events.filterMap fun entry => if entry.1 then entry.2.takes? else none

/-- A run of the driver takes its changes. -/
def begins (entry : Bool × Event S) : Bool := entry.1 && entry.2.takes?.isSome

/-- One more event of a life that is cut where runs begin. -/
def cutOne (cut : List (Events S) × Events S) (entry : Bool × Event S) :
    List (Events S) × Events S :=
  if begins entry then (cut.1 ++ [cut.2], []) else (cut.1, cut.2 ++ [entry])

/-- The life of a session, cut where runs begin: what came before each of them, and what has
come since the last. -/
def cut (events : Events S) : List (Events S) × Events S := events.foldl cutOne ([], [])

def beforeRuns (events : Events S) : List (Events S) := (cut events).1

def sinceRun (events : Events S) : Events S := (cut events).2

/-- What the driver of a session took in with some events. -/
def intake (id : SessionId) (events : Events S) : Intake where
  sets := received id events
  invalidated := (heard id events).any Signal.asksForRun

/-- The last change set that is not empty. -/
def latest (changes : List ChangeSet) : Option ChangeSet :=
  (changes.filter fun changes => !changes.isEmpty).getLast?

section Lists

variable {id : SessionId} {events : Events S} {entry : Bool × Event S}

theorem taken_append (more : Events S) : taken (events ++ more) = taken events ++ taken more :=
  List.filterMap_append

theorem taken_one (entry : Bool × Event S) :
    taken [entry] = if entry.1 then entry.2.takes?.toList else [] := by
  rw [taken]
  cases mine : entry.1 <;> cases found : entry.2.takes? <;> simp [mine, found]

theorem cut_append (entry : Bool × Event S) :
    cut (events ++ [entry]) = cutOne (cut events) entry := by
  rw [cut, List.foldl_append]
  rfl

/-- A run cuts the events. -/
theorem cut_begins (events : Events S) (run : begins entry = true) :
    beforeRuns (events ++ [entry]) = beforeRuns events ++ [sinceRun events] ∧
      sinceRun (events ++ [entry]) = [] := by
  simp [beforeRuns, sinceRun, cut_append, cutOne, run]

theorem cut_goes_on (events : Events S) (other : begins entry = false) :
    beforeRuns (events ++ [entry]) = beforeRuns events ∧
      sinceRun (events ++ [entry]) = sinceRun events ++ [entry] := by
  simp [beforeRuns, sinceRun, cut_append, cutOne, other]

/-- Every change set that was received was received before one of the runs, or since the
last one. -/
theorem received_cut (id : SessionId) (events : Events S) :
    received id events = (beforeRuns events).flatMap (received id) ++ received id (sinceRun events) := by
  induction events using List.reverseRecOn with
  | nil => rfl
  | append_singleton events entry ih =>
      rw [received_append, ih]
      cases run : begins entry with
      | true =>
          have none_ : received id [entry] = [] := by
            obtain ⟨mine, event⟩ := entry
            cases event with
            | op operation reply => cases operation <;> first | rfl | simp [begins, Event.takes?] at run
            | call | request => rfl
          obtain ⟨before, since⟩ := cut_begins events run
          rw [before, since, none_]
          simp [received]
      | false =>
          obtain ⟨before, since⟩ := cut_goes_on events run
          rw [before, since, received_append, List.append_assoc]

end Lists

/-! ## Books and events -/

/-- What is taken in with one more event. -/
theorem intake_append (id : SessionId) (events : Events S) (entry : Bool × Event S) :
    intake id (events ++ [entry]) =
      { sets := (intake id events).sets ++ (entry.2.received? id).toList
        invalidated := (intake id events).invalidated ||
          (entry.2.heard id).any Signal.asksForRun } := by
  simp only [intake, received_append, heard_append, received_one, heard_one, List.any_append]

/-- What the book of a driver says is what is seen of its session. -/
structure Recorded (id : SessionId) (compiler : CompilerId) (events : Events S)
    (session : Session S) (book : Book S) : Prop where
  driven : book.session = id ∧ book.compiler = compiler
  runs : book.runs = (beforeRuns events).map (intake id)
  pending : book.pending = intake id (sinceRun events)
  began : taken events = book.runs.map fun run => (compiler, run.merged)
  reasons : ∀ run ∈ book.runs.tail, run.calls = true
  announced : ∀ changes, book.announced = some changes →
    session.lastChange = some changes ∧ changes = book.pending.merged ∧
      changes.isEmpty = false ∧ (true, .op (.setLastChange id changes) ()) ∈ sinceRun events
  lastChange : book.announced = none →
    session.lastChange = latest (book.runs.map Intake.merged)

/-- A signal is noted in what is pending, and nowhere else among the changes. -/
theorem signals_pending (book : Book S) (signals : List (Signal S)) :
    (signals.foldl Book.signal book).pending =
        { book.pending with
          invalidated := book.pending.invalidated || signals.any Signal.asksForRun } ∧
      (signals.foldl Book.signal book).announced = book.announced := by
  induction signals generalizing book with
  | nil => simp
  | cons signal rest ih =>
      obtain ⟨pending, announced⟩ := ih (book.signal signal)
      rw [List.foldl_cons, pending, announced]
      cases signal <;> simp [Book.signal, Signal.asksForRun]

/-- Whatever the driver of a session does, unless it begins a run, adds to its book what is
seen of it. -/
theorem after_pending {id : SessionId} (book : Book S) {operation : Op S}
    (reply : operation.Reply) (aimed : ∀ other, operation.Reserved other → other = id)
    (plain : (Event.op operation reply).takes? = none) :
    (book.after operation reply).runs = book.runs ∧
      (book.after operation reply).pending =
        { sets := book.pending.sets ++ ((Event.op operation reply).received? id).toList
          invalidated := book.pending.invalidated ||
            ((Event.op operation reply).heard id).any Signal.asksForRun } := by
  cases operation with
  | await session =>
      obtain rfl := aimed session rfl
      cases reply with
      | signal signal => cases signal <;> simp [Book.after, Book.wake, Book.signal, Event.received?,
          Event.heard, Signal.asksForRun]
      | changes changes => simp [Book.after, Book.wake, Book.receive, Intake.receive,
          Event.received?, Event.heard]
      | gone => simp [Book.after, Book.wake, Event.received?, Event.heard]
  | takeSignals session =>
      obtain rfl := aimed session rfl
      obtain ⟨signals, gone⟩ := reply
      simp [Book.after, Book.drain, signals_pending, Event.received?, Event.heard]
  | takeChanges session =>
      obtain rfl := aimed session rfl
      cases reply <;> simp [Book.after, Book.receive, Intake.receive, Event.received?, Event.heard]
  | shut session =>
      obtain rfl := aimed session rfl
      simp [Book.after, signals_pending, Event.received?, Event.heard]
  | setChanges => cases plain
  | release compiler =>
      simp only [Book.after, Book.release]
      split <;> simp [Event.received?, Event.heard]
  | spawn job => cases job <;> simp [Book.after, Event.received?, Event.heard]
  | _ => simp [Book.after, Event.received?, Event.heard]

/-- No call changes what is pending. -/
theorem during_pending (book : Book S) (outside : Call S) :
    (book.during outside).runs = book.runs ∧ (book.during outside).pending = book.pending ∧
      (book.during outside).announced = book.announced := by
  cases outside with
  | notify callback =>
      simp only [Book.during, Book.settle]
      split <;> exact ⟨rfl, rfl, rfl⟩
  | observe compiler observer occasion =>
      cases occasion with
      | afterDone finished =>
          simp only [Book.during]
          split <;> exact ⟨rfl, rfl, rfl⟩
      | _ => exact ⟨rfl, rfl, rfl⟩
  | _ => exact ⟨rfl, rfl, rfl⟩

theorem latest_append (earlier : List ChangeSet) (changes : ChangeSet) :
    latest (earlier ++ [changes]) = if changes.isEmpty then latest earlier else some changes := by
  rw [latest, List.filter_append]
  cases empty : changes.isEmpty <;> simp [latest, empty]

section Steps

variable {id : SessionId} {compiler : CompilerId} {events : Events S} {session after : Session S}
  {book : Book S} {operation : Op S} {reply : operation.Reply}

/-- The session remembers the changes that its driver announced last. -/
theorem lastChange_moves (moves : session.Moves id operation reply after) :
    (∃ changes, operation = .setLastChange id changes ∧ after.lastChange = some changes) ∨
    (∀ changes, operation ≠ .setLastChange id changes) ∧ after.lastChange = session.lastChange := by
  cases moves with
  | noted => exact .inl ⟨_, rfl, rfl⟩
  | other elsewhere =>
      refine .inr ⟨fun changes same => elsewhere ?_, rfl⟩
      rw [same]
      rfl
  | _ => exact .inr ⟨nofun, rfl⟩

/-- A driver uses only its own session. -/
theorem aimed_of_allows {standing : Standing S} (held : standing.book = some book)
    (mine : book.session = id) (allowed : standing.Allows operation) (other : SessionId)
    (reserved : operation.Reserved other) : other = id := by
  have drives : ∀ {session reading}, standing.Drives session reading → session = id := by
    rintro session reading ⟨kept, found, rfl, -⟩
    rw [held] at found
    exact Option.some.inj found ▸ mine
  have permits := allowed.2
  cases operation with
  | await | takeSignals | takeChanges | setLastChange | shut | leave =>
      obtain rfl := reserved
      exact drives permits
  | _ => exact reserved.elim

/-- Between the announcement of a run and its beginning no change set is taken. -/
theorem received?_of_announced (id : SessionId) (reply : operation.Reply)
    {standing : Standing S} (held : standing.book = some book)
    (allowed : standing.Allows operation) {changes : ChangeSet}
    (announced : book.announced = some changes) :
    (Event.op operation reply).received? id = none ∧ ∀ changes, operation ≠ .setLastChange id changes := by
  have permits := allowed.2
  have unannounced : ∀ {session reading}, standing.Drives session reading →
      (∀ kept : Book S, reading kept → kept.announced = none) → False := by
    rintro session reading ⟨kept, found, -, said⟩ none_
    rw [held] at found
    obtain rfl := Option.some.inj found
    exact nomatch announced.symm.trans (none_ _ said)
  cases operation with
  | await => exact (unannounced permits fun _ said => said.announced).elim
  | takeChanges => exact (unannounced permits fun _ said => said.announced).elim
  | setLastChange => exact (unannounced permits fun _ said => said.1).elim
  | _ => exact ⟨rfl, nofun⟩

/-- What an operation of the driver leaves of an announcement, unless it is one or begins a
run. -/
theorem after_announced (plain : (Event.op operation reply).takes? = none)
    (quiet : ∀ session changes, operation ≠ .setLastChange session changes) :
    (book.after operation reply).announced = book.announced := by
  cases operation with
  | await session =>
      cases reply with
      | signal signal => cases signal <;> rfl
      | changes | gone => rfl
  | takeSignals session => exact (signals_pending book reply.1).2
  | takeChanges session => cases reply <;> rfl
  | shut session => exact (signals_pending book reply).2
  | setChanges => cases plain
  | setLastChange session changes => exact absurd rfl (quiet session changes)
  | release compiler =>
      simp only [Book.after, Book.release]
      split <;> rfl
  | spawn job => cases job <;> rfl
  | _ => rfl

/-- A run takes its changes. -/
theorem Recorded.begin {standing : Standing S} {taker : CompilerId} {changes : ChangeSet}
    (recorded : Recorded id compiler events session book) (held : standing.book = some book)
    (allowed : standing.Allows (.setChanges taker changes))
    (moves : session.Moves id (.setChanges taker changes) () after) :
    Recorded id compiler (events ++ [(true, .op (.setChanges taker changes) ())]) after
      (book.after (.setChanges taker changes) ()) := by
  obtain ⟨sameTaker, ready⟩ := allowed.2.2 book held
  have run : begins (S := S) (true, .op (.setChanges taker changes) ()) = true := rfl
  obtain ⟨before, since⟩ := cut_begins events run
  have kept : after.lastChange = session.lastChange := by
    rcases lastChange_moves moves with ⟨_, same, -⟩ | ⟨-, kept⟩
    · cases same
    · exact kept
  refine
    { driven := recorded.driven
      runs := ?_
      pending := ?_
      began := ?_
      reasons := ?_
      announced := nofun
      lastChange := fun _ => ?_ }
  · rw [before, List.map_append, ← recorded.runs, List.map_singleton, ← recorded.pending]
    rfl
  · rw [since]
    rfl
  · have taken_ : (book.after (.setChanges taker changes) ()).runs =
        book.runs ++ [book.pending] := rfl
    rw [taken_append, recorded.began, taken_one, taken_, List.map_append, List.map_singleton,
      ← ready.merged, ← recorded.driven.2, sameTaker]
    rfl
  · intro run member
    have later : run ∈ (book.runs ++ [book.pending]).tail := member
    cases runs : book.runs with
    | nil =>
        rw [runs] at later
        cases later
    | cons first rest =>
        rw [runs, List.cons_append, List.tail_cons] at later
        rcases List.mem_append.mp later with earlier | last
        · exact recorded.reasons run (by rw [runs]; exact earlier)
        · rw [List.mem_singleton.mp last]
          exact ready.reason (by rw [runs]; exact List.cons_ne_nil _ _)
  · have merged : ((book.after (.setChanges taker changes) ()).runs).map Intake.merged =
        book.runs.map Intake.merged ++ [changes] := by
      rw [ready.merged]
      exact List.map_append
    rw [merged, latest_append, kept]
    have known := ready.announced
    cases empty : changes.isEmpty with
    | true =>
        rw [empty] at known
        exact recorded.lastChange known
    | false =>
        rw [empty] at known
        exact (recorded.announced changes known).1

/-- The driver does something else. -/
theorem Recorded.own {standing : Standing S} (recorded : Recorded id compiler events session book)
    (held : standing.book = some book) (allowed : standing.Allows operation)
    (moves : session.Moves id operation reply after) :
    Recorded id compiler (events ++ [(true, .op operation reply)]) after
      (book.after operation reply) := by
  by_cases takes : ∃ taker changes, operation = .setChanges taker changes
  · obtain ⟨taker, changes, rfl⟩ := takes
    exact recorded.begin held allowed moves
  have plain : (Event.op operation reply).takes? = none := by
    cases operation with
    | setChanges taker changes => exact absurd ⟨taker, changes, rfl⟩ takes
    | _ => rfl
  have unbegun : begins (true, .op operation reply) = false := by simp [begins, plain]
  obtain ⟨before, since⟩ := cut_goes_on events unbegun
  have aimed := aimed_of_allows held recorded.driven.1 allowed
  obtain ⟨runs, pending⟩ := after_pending book reply aimed plain
  obtain ⟨session_, compiler_⟩ := book.after_same operation reply
  have announcement : ((book.after operation reply).announced = book.announced ∧
        after.lastChange = session.lastChange) ∨
      ∃ changes, operation = .setLastChange id changes ∧
        (book.after operation reply).announced = some changes ∧
        after.lastChange = some changes ∧ changes = book.pending.merged ∧
        changes.isEmpty = false := by
    rcases lastChange_moves moves with ⟨changes, rfl, kept⟩ | ⟨others, kept⟩
    · obtain ⟨_, found, -, -, -, -, merged, full⟩ := allowed.2
      obtain rfl := Option.some.inj (held.symm.trans found)
      exact .inr ⟨changes, rfl, rfl, kept, merged, full⟩
    · refine .inl ⟨after_announced plain fun other changes same => ?_, kept⟩
      subst same
      exact others changes (by rw [aimed other rfl])
  refine
    { driven := ⟨session_.trans recorded.driven.1, compiler_.trans recorded.driven.2⟩
      runs := by rw [runs, before, recorded.runs]
      pending := by rw [pending, since, intake_append, recorded.pending]
      began := by
        rw [taken_append, taken_one, plain, runs, recorded.began]
        simp
      reasons := runs.symm ▸ recorded.reasons
      announced := fun changes announced => ?_
      lastChange := fun unannounced => ?_ }
  · rw [since]
    rcases announcement with ⟨same, kept⟩ | ⟨noted, rfl, now, kept, merged, full⟩
    · have earlier := same.symm.trans announced
      obtain ⟨unreceived, -⟩ := received?_of_announced id reply held allowed earlier
      obtain ⟨last, merged, full, member⟩ := recorded.announced changes earlier
      refine ⟨kept.trans last, ?_, full, List.mem_append_left _ member⟩
      rw [merged, pending, unreceived]
      simp [Intake.merged]
    · obtain rfl := Option.some.inj (now.symm.trans announced)
      exact ⟨kept, merged, full, List.mem_append_right _ (List.mem_singleton.mpr rfl)⟩
  · rcases announcement with ⟨same, kept⟩ | ⟨noted, rfl, now, -⟩
    · rw [kept, runs]
      exact recorded.lastChange (same.symm.trans unannounced)
    · cases now.symm.trans unannounced

/-- What a visitor does is nothing that a book is about. -/
theorem Recorded.visit (recorded : Recorded id compiler events session book)
    (open_ : ¬ operation.Reserved id) (moves : session.Moves id operation reply after) :
    Recorded id compiler (events ++ [(false, .op operation reply)]) after book := by
  have unbegun : begins (false, .op operation reply) = false := rfl
  obtain ⟨before, since⟩ := cut_goes_on events unbegun
  have unseen : (Event.op operation reply).received? id = none ∧
      (Event.op operation reply).heard id = [] := by
    cases operation with
    | await other =>
        have different : other ≠ id := open_
        cases reply <;> simp [Event.received?, Event.heard, different]
    | takeSignals other =>
        have different : other ≠ id := open_
        simp [Event.received?, Event.heard, different]
    | takeChanges other =>
        have different : other ≠ id := open_
        cases reply <;> simp [Event.received?, Event.heard, different]
    | shut other =>
        have different : other ≠ id := open_
        simp [Event.received?, Event.heard, different]
    | _ => exact ⟨rfl, rfl⟩
  have kept : after.lastChange = session.lastChange := by
    rcases lastChange_moves moves with ⟨_, rfl, -⟩ | ⟨-, kept⟩
    · exact absurd rfl open_
    · exact kept
  exact
    { driven := recorded.driven
      runs := by rw [before, recorded.runs]
      pending := by
        rw [since, intake_append, recorded.pending, unseen.1, unseen.2]
        simp
      began := by
        rw [taken_append, taken_one, recorded.began]
        simp
      reasons := recorded.reasons
      announced := fun changes announced => by
        obtain ⟨last, merged, full, member⟩ := recorded.announced changes announced
        rw [since]
        exact ⟨kept.trans last, merged, full, List.mem_append_left _ member⟩
      lastChange := fun unannounced => kept.trans (recorded.lastChange unannounced) }

/-- Events that neither a session nor the changes of a book depend on. -/
theorem Recorded.aside {entry : Bool × Event S} {later : Book S}
    (recorded : Recorded id compiler events session book)
    (quiet : entry.2.received? id = none ∧ entry.2.heard id = [] ∧ entry.2.takes? = none)
    (same : (later.session = book.session ∧ later.compiler = book.compiler) ∧
      later.runs = book.runs ∧ later.pending = book.pending ∧ later.announced = book.announced) :
    Recorded id compiler (events ++ [entry]) session later := by
  obtain ⟨unreceived, unheard, plain⟩ := quiet
  obtain ⟨named, runs, pending, announced⟩ := same
  have unbegun : begins entry = false := by simp [begins, plain]
  obtain ⟨before, since⟩ := cut_goes_on events unbegun
  exact
    { driven := ⟨named.1.trans recorded.driven.1, named.2.trans recorded.driven.2⟩
      runs := by rw [runs, before, recorded.runs]
      pending := by
        rw [pending, since, intake_append, recorded.pending, unreceived, unheard]
        simp
      began := by
        rw [runs, taken_append, taken_one, plain, recorded.began]
        simp
      reasons := runs.symm ▸ recorded.reasons
      announced := fun changes noted => by
        obtain ⟨last, merged, full, member⟩ :=
          recorded.announced changes (announced.symm.trans noted)
        rw [since, pending]
        exact ⟨last, merged, full, List.mem_append_left _ member⟩
      lastChange := fun unannounced => by
        rw [runs]
        exact recorded.lastChange (announced.symm.trans unannounced) }

end Steps

/-- The book of a driver agrees with what is seen of its session, all its life long. -/
theorem Life.recorded {panics : Prop} {id : SessionId} {compiler : CompilerId}
    {events : Events S} {view : SessionView S} (life : Life panics id compiler events view) :
    ∃ book, view.standing.book = some book ∧
      Recorded id compiler events view.session book := by
  induction life with
  | opened =>
      refine ⟨_, rfl, ⟨rfl, rfl⟩, rfl, rfl, rfl, ?_, nofun, fun _ => rfl⟩
      simp
  | @seen events view event after before step ih =>
      obtain ⟨book, held, recorded⟩ := ih
      cases step with
      | @op operation reply session alive allowed expected moves =>
          refine ⟨book.after operation reply, ?_, recorded.own held allowed moves⟩
          simp [Standing.after, held]
      | @call outside alive allowed =>
          have quiet : (Event.call outside).received? id = none ∧
              (Event.call outside).heard id = [] ∧
              (Event.call outside : Event S).takes? = none := ⟨rfl, rfl, rfl⟩
          cases refused : view.standing.refused with
          | some callback =>
              refine ⟨book, ?_, recorded.aside quiet ⟨⟨rfl, rfl⟩, rfl, rfl, rfl⟩⟩
              simp [Standing.duringCall, refused, held]
          | none =>
              refine ⟨book.during outside, ?_, recorded.aside quiet
                ⟨book.during_same outside, ?_⟩⟩
              · simp [Standing.duringCall, refused, held]
              · exact during_pending book outside
      | request => exact ⟨book, held, recorded.aside ⟨rfl, rfl, rfl⟩ ⟨⟨rfl, rfl⟩, rfl, rfl, rfl⟩⟩
      | visit open_ moves => exact ⟨book, held, recorded.visit open_ moves⟩
      | visitCall => exact ⟨book, held, recorded.aside ⟨rfl, rfl, rfl⟩ ⟨⟨rfl, rfl⟩, rfl, rfl, rfl⟩⟩
      | visitRequest =>
          exact ⟨book, held, recorded.aside ⟨rfl, rfl, rfl⟩ ⟨⟨rfl, rfl⟩, rfl, rfl, rfl⟩⟩
  | unseen before step ih =>
      obtain ⟨book, held, recorded⟩ := ih
      cases step with
      | finish => exact ⟨book, held, recorded⟩
      | crash => exact ⟨book, held, { recorded with }⟩

end SessionView

/-! ## The record of a run -/

namespace World

variable {world after : World S} {task : TaskId} {preferChanges : Bool}

/-- Only a run changes the changes behind the runs of a compiler. -/
theorem perform_record_changes {operation : Op S} {reply : operation.Reply}
    (performed : world.perform task preferChanges operation = some (reply, after))
    {compiler : CompilerId} (there : compiler < world.compilers.length) :
    (∃ changes, operation = .setChanges compiler changes ∧
      (after.compiler compiler).changes = changes) ∨
    (∀ changes, operation ≠ .setChanges compiler changes) ∧
      (after.compiler compiler).changes = (world.compiler compiler).changes := by
  have kept : ∀ (id : CompilerId) (change : CompilerRecord S → CompilerRecord S),
      (∀ record, (change record).changes = record.changes) →
      ((world.changeCompiler id change).compiler compiler).changes =
        (world.compiler compiler).changes := by
    intro id change same
    rw [compiler_change]
    split
    · exact same _
    · rfl
  by_cases sessional : OnSessions operation
  · obtain ⟨sessions, rfl⟩ := perform_onSessions sessional performed
    refine .inr ⟨fun changes same => ?_, rfl⟩
    subst same
    exact sessional
  · cases operation with
    | setChanges id changes =>
        cases performed
        by_cases same : id = compiler
        · obtain rfl := same
          refine .inl ⟨changes, rfl, ?_⟩
          rw [compiler_change, if_pos ⟨rfl, there⟩]
        · refine .inr ⟨fun _ other => same (by cases other; rfl), ?_⟩
          rw [compiler_change, if_neg fun here => same here.1]
    | shift | setParent | setInput | setOutput | setWatcher | register | release =>
        cases performed
        refine .inr ⟨by simp, kept _ _ ?_⟩
        exact fun _ => rfl
    | acquire id =>
        simp only [perform, acquire?] at performed
        split at performed
        · cases performed
          refine .inr ⟨by simp, kept _ _ ?_⟩
          exact fun _ => rfl
        · cases performed
    | join other =>
        obtain ⟨result, -, same⟩ := Option.map_eq_some_iff.mp performed
        cases same
        exact .inr ⟨by simp, rfl⟩
    | createCompiler record =>
        cases performed
        refine .inr ⟨by simp, ?_⟩
        simp [World.compiler, List.getElem?_append_left there]
    | look | newCompilation | lookCache | setCache | retain | spawn | report =>
        cases performed
        exact .inr ⟨by simp, rfl⟩
    | _ => exact (sessional trivial).elim

theorem crash_record_changes (world : World S) (task : TaskId) (compiler : CompilerId) :
    ((world.crash task).compiler compiler).changes = (world.compiler compiler).changes := by
  rw [World.compiler, crash_compilers, World.compiler, List.getElem?_map]
  cases world.compilers[compiler]? with
  | none => rfl
  | some record =>
      simp only [Option.map_some, Option.getD_some]
      split <;> rfl

end World

namespace Machine

open SessionView

variable {start machine after : Machine E} {events life : List (TaskId × Event S)}
  {task : TaskId} {session : SessionId} {compiler : CompilerId}

/-- While a driver has a run of its compiler under way, the compiler has the changes that the
run took. -/
def Equipped (machine : Machine E) (events life : List (TaskId × Event S)) (task : TaskId)
    (compiler : CompilerId) : Prop :=
  (∃ program, machine.program? task = some program) →
    ∀ taker changes, (taken (marked task life)).getLast? = some (taker, changes) →
      (true, .op (.release compiler) ()) ∉ sinceRun (marked task life) →
      compiler ∈ (standingOf events task).holds ∧
        (machine.world.compiler compiler).changes = changes

section Equipped

variable {id : TaskId} {event : Event S}

/-- A task of which nothing was seen took no changes. -/
theorem taken_eq_nil (unseen : ∀ event, (task, event) ∉ life) :
    SessionView.taken (marked task life) = [] := by
  rw [SessionView.taken, List.filterMap_eq_nil_iff]
  rintro ⟨mine, event⟩ member
  obtain ⟨⟨id, seen⟩, listed, same⟩ := List.mem_map.mp member
  cases same
  have different : id ≠ task := fun same => unseen seen (same ▸ listed)
  simp [different]

/-- A driver that did not begin a run goes on with the one that it has. -/
theorem Equipped.goes_on (equipped : machine.Equipped events life task compiler)
    (other : begins (decide (id = task), event) = false)
    (alive : (∃ program, after.program? task = some program) →
      ∃ program, machine.program? task = some program)
    (holds : compiler ∈ (standingOf events task).holds →
      ((decide (id = task), event) : Bool × Event S) ≠ (true, .op (.release compiler) ()) →
      compiler ∈ (standingOf (events ++ [(id, event)]) task).holds)
    (kept : compiler ∈ (standingOf events task).holds →
      (∃ program, machine.program? task = some program) →
      (after.world.compiler compiler).changes = (machine.world.compiler compiler).changes) :
    after.Equipped (events ++ [(id, event)]) (life ++ [(id, event)]) task compiler := by
  intro found taker changes last unreleased
  obtain ⟨-, since⟩ := cut_goes_on (marked task life) other
  rw [marked_append] at last unreleased
  change (SessionView.taken (marked task life ++ [(decide (id = task), event)])).getLast? = _ at last
  change _ ∉ sinceRun (marked task life ++ [(decide (id = task), event)]) at unreleased
  rw [since, List.mem_append, not_or] at unreleased
  have untaken : SessionView.taken [(decide (id = task), event)] = [] := by
    rw [taken_one]
    rw [begins] at other
    cases mine : decide (id = task) <;> simp_all
  rw [taken_append, untaken, List.append_nil] at last
  obtain ⟨held, same⟩ := equipped (alive found) taker changes last unreleased.1
  refine ⟨holds held fun same => unreleased.2 (List.mem_singleton.mpr same.symm), ?_⟩
  rw [kept held (alive found), same]

/-- What somebody else does leaves a run its changes. -/
theorem Equipped.others (equipped : machine.Equipped events life task compiler)
    (orderly : machine.Orderly events) (tidy : start.Tidy) (trace : start.Trace events machine)
    (step : machine.Step id (some event) after)
    (driven : (standingOf events task).driven = some (session, compiler))
    (different : task ≠ id) :
    after.Equipped (events ++ [(id, event)]) (life ++ [(id, event)]) task compiler := by
  have old := orderly.lt_of_driven driven
  have there := (orderly.kept task session compiler (.inr driven)).2.2
  have same : (after.program? task) = machine.program? task :=
    (tidy.trace trace).program?_other step different old
  have stands : standingOf (events ++ [(id, event)]) task = standingOf events task := by
    rcases standingOf_step tidy trace step task with ⟨self, -⟩ | ⟨job, -, new, -⟩ | ⟨-, -, now⟩
    · exact absurd self different
    · exact absurd new (Nat.ne_of_lt old)
    · exact now
  refine equipped.goes_on ?_ (fun found => same ▸ found) (fun held _ => stands ▸ held)
    fun held ⟨program, found⟩ => ?_
  · simp [begins, Ne.symm different]
  · cases event with
    | op operation reply =>
        have permits := (orderly.permits step).2
        obtain ⟨other, runs⟩ := step.runs
        cases step with
        | op _ performed =>
            rcases World.perform_record_changes performed there with ⟨changes, rfl, -⟩ | ⟨-, kept⟩
            · have theirs := orderly.holding id other runs compiler
              have ours := orderly.holding task program found compiler
              have owned : ∀ {holder}, List.count compiler (standingOf events holder).holds =
                  (if (machine.world.compiler compiler).owner = some holder then 1 else 0) →
                  compiler ∈ (standingOf events holder).holds →
                  (machine.world.compiler compiler).owner = some holder := by
                intro holder counted holds
                by_contra unowned
                rw [if_neg unowned] at counted
                exact List.count_eq_zero.mp counted holds
              have clash := (owned ours held).symm.trans (owned theirs permits.1)
              exact absurd (Option.some.inj clash) different
            · exact kept
    | call outside =>
        cases step with
        | call => rfl
    | request wish answer =>
        cases step with
        | request => rfl

/-- What the driver does leaves its run its changes, or begins another run with its own. -/
theorem Equipped.own (equipped : machine.Equipped events life task compiler)
    (orderly : machine.Orderly events) (tidy : start.Tidy) (trace : start.Trace events machine)
    (step : machine.Step task (some event) after)
    (driven : (standingOf events task).driven = some (session, compiler)) :
    after.Equipped (events ++ [(task, event)]) (life ++ [(task, event)]) task compiler := by
  have there := (orderly.kept task session compiler (.inr driven)).2.2
  have stands : standingOf (events ++ [(task, event)]) task =
      (standingOf events task).note event := statusOf_self tidy trace step
  obtain ⟨program, runs⟩ := step.runs
  cases event with
  | op operation reply =>
      by_cases takes : ∃ taker changes, operation = .setChanges taker changes
      · obtain ⟨taker, changes, rfl⟩ := takes
        obtain ⟨book, held, same⟩ := Option.map_eq_some_iff.mp driven
        cases same
        obtain ⟨holds, begins⟩ := (orderly.permits step).2
        obtain ⟨rfl, -⟩ := begins book held
        rintro - _ _ last -
        rw [marked_append] at last
        change (SessionView.taken (_ ++ [(decide (task = task), _)])).getLast? = _ at last
        rw [taken_append, taken_one, decide_eq_true rfl] at last
        obtain ⟨rfl, rfl⟩ : book.compiler = _ ∧ changes = _ := by
          simpa [Event.takes?] using last
        refine ⟨by rw [stands]; exact holds, ?_⟩
        cases step with
        | op _ performed =>
            rcases World.perform_record_changes performed there with ⟨_, same, kept⟩ | ⟨other, -⟩
            · cases same
              exact kept
            · exact absurd rfl (other _)
      · have plain : (Event.op operation reply).takes? = none := by
          cases operation with
          | setChanges taker changes => exact absurd ⟨taker, changes, rfl⟩ takes
          | _ => rfl
        refine equipped.goes_on (by simp [begins, plain]) (fun _ => ⟨program, runs⟩)
          (fun held unreleased => ?_) fun _ _ => ?_
        · rw [stands]
          change compiler ∈ (standingOf events task).holdsAfter operation
          cases operation with
          | acquire other => exact List.mem_cons_of_mem other held
          | release other =>
              have different : compiler ≠ other := by
                rintro rfl
                exact unreleased (by rw [decide_eq_true rfl])
              exact (List.mem_erase_of_ne different).mpr held
          | _ => exact held
        · cases step with
          | op _ performed =>
              rcases World.perform_record_changes performed there with ⟨_, same, -⟩ | ⟨-, kept⟩
              · exact absurd ⟨_, _, same⟩ takes
              · exact kept
  | call outside =>
      refine equipped.goes_on (by simp [begins, Event.takes?]) (fun _ => ⟨program, runs⟩)
        (fun held _ => ?_) fun _ _ => ?_
      · rw [stands]
        exact (Standing.holds_duringCall _ _).symm ▸ held
      · cases step with
        | call => rfl
  | request wish answer =>
      refine equipped.goes_on (by simp [begins, Event.takes?]) (fun _ => ⟨program, runs⟩)
        (fun held _ => ?_) fun _ _ => ?_
      · rw [stands]
        exact held
      · cases step with
        | request => rfl

/-- Who drives a session after a step did so before, or was spawned by the step. -/
theorem driven_before (tidy : start.Tidy) (trace : start.Trace events machine)
    (step : machine.Step id (some event) after)
    (driven : (standingOf (events ++ [(id, event)]) task).driven = some (session, compiler)) :
    (standingOf events task).driven = some (session, compiler) ∨
      task = machine.world.nextTask ∧ task ≠ id := by
  rcases standingOf_step tidy trace step task with
    ⟨rfl, now⟩ | ⟨job, -, new, different, -⟩ | ⟨-, -, now⟩
  · rw [now] at driven
    cases event with
    | op operation reply => exact .inl ((Standing.driven_after _ _ _).symm.trans driven)
    | call outside => exact .inl ((Standing.driven_duringCall _ _).symm.trans driven)
    | request wish answer => exact .inl driven
  · exact .inr ⟨new, different⟩
  · exact .inl (now ▸ driven)

theorem Trace.equipped {panics : Prop} {past : List (TaskId × Event S)}
    {entry : TaskId × Event S} (trace : start.Trace (past ++ entry :: life) machine)
    (vacant : start.Vacant panics) (hosts : E.Hosts panics)
    (driven : (standingOf (past ++ entry :: life) task).driven = some (session, compiler)) :
    machine.Equipped (past ++ entry :: life) life task compiler := by
  obtain ⟨opener, opens⟩ := entry
  obtain ⟨before, opened, reached, made, onward⟩ := trace.split_at
  have whole := reached.seen made
  rw [← List.singleton_append, ← List.append_assoc] at driven ⊢
  clear trace
  induction onward with
  | start => exact fun _ _ _ last => nomatch last
  | @seen life machine id event after earlier step ih =>
      have trace := whole.append earlier
      have orderly := trace.orderly vacant hosts
      rw [← List.append_assoc] at driven ⊢
      rcases driven_before vacant.tidy trace step driven with drove | ⟨new, different⟩
      · by_cases self : task = id
        · obtain rfl := self
          exact (ih drove).own orderly vacant.tidy trace step drove
        · exact (ih drove).others orderly vacant.tidy trace step drove self
      · have unseen : ∀ seen, (task, seen) ∉ life ++ [(id, event)] := by
          intro seen member
          rcases List.mem_append.mp member with member | member
          · have begun := vacant.tidy.lt_nextTask trace (List.mem_append_right _ member)
            exact absurd new (Nat.ne_of_lt begun)
          · cases List.mem_singleton.mp member
            exact different rfl
        intro _ taker changes last
        rw [taken_eq_nil unseen] at last
        cases last
  | @unseen life machine id after earlier step ih =>
      have trace := whole.append earlier
      have equipped := ih driven
      have ready := vacant.tidy.trace trace
      intro found taker changes last unreleased
      have alive : ∃ program, machine.program? task = some program := by
        obtain ⟨program, found⟩ := found
        rcases ready.program?_cases step found with rfl | ⟨job, same, -⟩ | ⟨-, held⟩
        · exact step.runs
        · cases same
        · exact ⟨program, held⟩
      obtain ⟨holds, kept⟩ := equipped alive taker changes last unreleased
      refine ⟨holds, ?_⟩
      cases step with
      | turn => exact kept
      | finish => exact kept
      | crash => exact (World.crash_record_changes _ _ _).trans kept

end Equipped

/-! ## Sessions with a driver -/

/-- A task that was spawned to drive a session drives it. -/
theorem Trace.driven_of_spawned {panics : Prop} {spawner : TaskId} {stage : DriverStage}
    {driver : Driver S} (trace : start.Trace events machine) (vacant : start.Vacant panics)
    (spawned : (spawner, .op (.spawn (.drive stage driver)) task) ∈ events) :
    (standingOf events task).driven = some (driver.session, driver.compiler) := by
  induction trace with
  | start => cases spawned
  | @seen events machine id event after before step ih =>
      rcases List.mem_append.mp spawned with earlier | now
      · have driven := ih earlier
        rcases standingOf_step vacant.tidy before step task with
          ⟨rfl, now⟩ | ⟨job, -, new, -, -⟩ | ⟨-, -, now⟩
        · rw [now]
          cases event with
          | op operation reply => exact (Standing.driven_after _ _ _).trans driven
          | call outside => exact (Standing.driven_duringCall _ _).trans driven
          | request wish answer => exact driven
        · exact absurd new (Nat.ne_of_lt (vacant.tidy.spawned_lt before earlier))
        · exact now ▸ driven
      · cases List.mem_singleton.mp now
        have begun : standingOf (events ++ [(spawner, .op (.spawn (.drive stage driver)) task)]) task =
            Standing.entry (.drive stage driver) := statusOf_spawned vacant.tidy before step
        rw [begun]
        rfl
  | unseen before step ih => exact ih spawned

/-- A session has one compiler. -/
theorem Trace.kept_compiler (trace : start.Trace events machine)
    (there : session < start.world.sessions.length) :
    session < machine.world.sessions.length ∧
      (machine.world.session session).compiler = (start.world.session session).compiler := by
  have grows : ∀ {machine : Machine E} {world : World S},
      session < machine.world.sessions.length ∧
        (machine.world.session session).compiler = (start.world.session session).compiler →
      machine.world.Grows world →
      session < world.sessions.length ∧
        (world.session session).compiler = (start.world.session session).compiler :=
    fun earlier grown => ⟨Nat.lt_of_lt_of_le earlier.1 grown.sessions,
      (grown.kept _ earlier.1).trans earlier.2⟩
  induction trace with
  | start => exact ⟨there, rfl⟩
  | seen before step ih =>
      cases step with
      | op runs performed =>
          have later := grows ih (World.perform_grows performed)
          exact later
      | call runs => exact ih
      | request runs served => exact ih
  | unseen before step ih =>
      cases step with
      | turn runs => exact ih
      | finish runs => exact ih
      | crash runs =>
          rename_i machine id
          have later := grows ih (World.crash_grows machine.world id)
          exact later

/-- A session that a task was spawned to drive, and how it has lived. -/
theorem Trace.life_of_spawned {panics : Prop} {past : List (TaskId × Event S)}
    {opener spawner : TaskId} {stage : DriverStage} {driver : Driver S} (trace : start.Trace
      (past ++ (opener, .op (.openSession compiler) driver.session) :: life) machine)
    (vacant : start.Vacant panics) (hosts : E.Hosts panics)
    (spawned : (spawner, .op (.spawn (.drive stage driver)) task) ∈ life) :
    (standingOf (past ++ (opener, .op (.openSession compiler) driver.session) :: life)
        task).driven = some (driver.session, compiler) ∧
      SessionView.Life panics driver.session compiler (marked task life)
        { session := machine.world.session driver.session
          standing := standingOf
            (past ++ (opener, .op (.openSession compiler) driver.session) :: life) task
          alive := (machine.program? task).isSome } := by
  have driven := trace.driven_of_spawned vacant
    (List.mem_append_right past (List.mem_cons_of_mem _ spawned))
  have orderly := trace.orderly vacant hosts
  obtain ⟨before, opened, reached, made, onward⟩ := trace.split_at
  obtain ⟨named, longer, fresh⟩ := made.opens
  have same : driver.compiler = compiler := by
    have there : driver.session < opened.world.sessions.length := by
      rw [named, longer]
      exact Nat.lt_succ_self _
    rw [← (orderly.kept task _ _ (.inr driven)).2.1, (onward.kept_compiler there).2, fresh]
  rw [same] at driven
  exact ⟨driven, trace.life vacant hosts (.born driven)⟩

/-! ## No change is lost, duplicated or invented -/

/-- What becomes of the changes that were delivered to a session, as far as its life goes. -/
structure ChangesKept (machine : Machine E) (panics : Prop) (session : SessionId)
    (compiler : CompilerId) (driver : TaskId) (events : Events S) : Prop where
  /-- Only the driver takes change sets and signals. -/
  sole : ∀ entry ∈ events, entry.2.received? session ≠ none ∨ entry.2.heard session ≠ [] →
    entry.1 = true
  /-- Change sets are received as they were delivered, once each. -/
  changes : (machine.world.session session).phase ≠ .closed → machine.program? driver ≠ none →
    delivered session events =
      received session events ++ (machine.world.session session).arrivals
  /-- Signals are heard as they were sent, once each. -/
  signals : (machine.world.session session).phase = .closed ∨ machine.program? driver ≠ none →
    sent session events = heard session events ++ (machine.world.session session).signals
  /-- A change set is received before one run, or since the last one. -/
  received : received session events =
    (beforeRuns events).flatMap (received session) ++ received session (sinceRun events)
  /-- A run takes the merge of what was received since the last run took its changes. -/
  runs : taken events =
    (beforeRuns events).map fun before => (compiler, (intake session before).merged)
  /-- After the first, no run begins without a reason. -/
  reasons : ∀ before ∈ (beforeRuns events).tail, (intake session before).calls = true
  /-- The compiler has these changes as long as the run is under way. -/
  during : machine.program? driver ≠ none → ∀ taker changes,
    (taken events).getLast? = some (taker, changes) →
    (true, .op (.release compiler) ()) ∉ sinceRun events →
    (machine.world.compiler compiler).changes = changes
  /-- The session has the last changes that were not empty: those of a run that has taken
  them, or of one that is just about to. -/
  lastChange :
    (machine.world.session session).lastChange = latest ((taken events).map Prod.snd) ∨
    ∃ changes, (machine.world.session session).lastChange = some changes ∧
      (true, .op (.setLastChange session changes) ()) ∈ sinceRun events ∧
      changes = (intake session (sinceRun events)).merged ∧ changes.isEmpty = false
  /-- A driver that waits has nothing to run for. -/
  rests : ∀ next, machine.program? driver = some (.op (.await session) next) →
    (intake session (sinceRun events)).calls = false
  /-- A driver does not go away before its session is closed. -/
  ends : machine.program? driver = none →
    (machine.world.session session).phase = .closed ∨ panics

/-- However the tasks are interleaved, no change set and no invalidate of a session is lost,
duplicated or invented. -/
theorem changes_kept {panics : Prop} {past : List (TaskId × Event S)} {opener spawner : TaskId}
    {stage : DriverStage} {driver : Driver S} (vacant : start.Vacant panics)
    (hosts : E.Hosts panics) (trace : start.Trace
      (past ++ (opener, .op (.openSession compiler) driver.session) :: life) machine)
    (spawned : (spawner, .op (.spawn (.drive stage driver)) task) ∈ life) :
    machine.ChangesKept panics driver.session compiler task (marked task life) := by
  obtain ⟨driven, lived⟩ := trace.life_of_spawned vacant hosts spawned
  have orderly := trace.orderly vacant hosts
  obtain ⟨book, placed⟩ := lived.placed
  obtain ⟨_, found, recorded⟩ := lived.recorded
  obtain rfl := Option.some.inj (placed.held.symm.trans found)
  have gone : ∀ {over_ : Prop}, (book.place = .shut ∨ (machine.program? task).isSome = false) →
      (book.place = .shut → over_) → machine.program? task ≠ none → over_ := by
    rintro over_ (shut | absent) closed alive
    · exact closed shut
    · exact absurd (Option.not_isSome_iff_eq_none.mp (by simp [absent])) alive
  refine
    { sole := fun entry member => lived.taken_by_driver member
      changes := fun open_ alive => lived.arrivals ?_
      signals := fun ready => lived.signals ?_
      received := received_cut _ _
      runs := ?_
      reasons := ?_
      during := fun alive taker changes last unreleased => ?_
      lastChange := ?_
      rests := fun next runs => ?_
      ends := fun absent => ?_ }
  · by_contra deaf
    exact open_ (placed.closed.mpr
      (gone (placed.receives (Bool.not_eq_true _ ▸ deaf)) id alive))
  · refine or_iff_not_imp_left.mpr fun deaf => ?_
    rcases ready with closed | alive
    · exact closed
    · exact placed.closed.mpr (gone (placed.answers (Bool.not_eq_true _ ▸ deaf)) id alive)
  · rw [recorded.began, recorded.runs, List.map_map]
    rfl
  · intro before member
    refine recorded.reasons _ ?_
    rw [recorded.runs, ← List.map_tail]
    exact List.mem_map_of_mem member
  · exact (trace.equipped vacant hosts driven (Option.ne_none_iff_exists'.mp alive) taker changes
      last unreleased).2
  · cases announced : book.announced with
    | none =>
        left
        have same := recorded.lastChange announced
        rw [recorded.began, List.map_map]
        exact same
    | some changes =>
        obtain ⟨last, merged, full, member⟩ := recorded.announced changes announced
        exact .inr ⟨changes, last, member, recorded.pending ▸ merged, full⟩
  · obtain ⟨_, found, -, resting⟩ : (standingOf (past ++ _ :: life) task).Drives driver.session
        Book.Rests := by
      cases orderly.abides task _ runs with
      | op allowed => exact allowed.2
    obtain rfl := Option.some.inj (placed.held.symm.trans found)
    exact recorded.pending ▸ resting.calls
  · exact (placed.ended (by simp [absent])).imp_left placed.closed.mpr

end Machine

/-! ## A file that is saved after the first run -/

namespace Compiler

open SessionView (taken)

def edit : ChangeSet := ChangeSet.empty.markChanged (.of "/a")

/-- A task watches a compiler, tells of a changed file and asks for a run. -/
def saving : Prog Setting.plain Unit := do
  match ← watch 0 {} () with
  | none => pure ()
  | some session =>
    let _ ← Prog.perform (.deliver session edit)
    invalidate session ()

def saver : Machine Environment.inert := .hosting () [observedCompiler] saving

theorem saver_vacant : saver.Vacant False := by
  have visitor : saving.Visitor False := by
    refine .watch fun session => ?_
    cases session with
    | none => exact .done ()
    | some session =>
        have asks : (invalidate session () >>= pure : Prog Setting.plain Unit).Visitor False :=
          .invalidate fun _ => .done ()
        rw [bind_pure] at asks
        exact .op trivial fun _ => asks
  refine Machine.vacant_hosting visitor fun record member => ?_
  obtain rfl : record = observedCompiler := by simpa using member
  exact ⟨rfl, rfl⟩

/-- The session and its driver are there. -/
def attended : List (TaskId × Event Setting.plain) × Machine Environment.inert :=
  Machine.playback [] saver [0, 0, 0]

/-- The file changes after the first run, and the second run begins. -/
def saved : List (TaskId × Event Setting.plain) × Machine Environment.inert :=
  Machine.playback [] attended.2
    (List.replicate 12 1 ++ List.replicate 20 2 ++ List.replicate 20 1 ++ List.replicate 10 0 ++
      List.replicate 20 1)

/-- What is seen from the opening of the session on. -/
def savedLife : List (TaskId × Event Setting.plain) := attended.1.drop 2 ++ saved.1

theorem saved_trace : saver.Trace
    ([(0, .op (.shift 0 .beginWatch) true)] ++ (0, .op (.openSession 0) 0) :: savedLife) saved.2 := by
  have first : saver.Trace attended.1 attended.2 := Machine.trace_playback .start _
  have rest : attended.2.Trace saved.1 saved.2 := Machine.trace_playback .start _
  exact first.append rest

/-- The first run takes no changes, and the second takes the one that was delivered. -/
theorem saved_changes_kept :
    saved.2.ChangesKept False 0 0 1 (marked 1 savedLife) ∧
      taken (marked 1 savedLife) = [(0, ChangeSet.empty), (0, edit)] := by
  have spawned : (0, .op (.spawn (.drive .waiting
      { session := 0, compiler := 0, options := {}, handler := () })) 1) ∈ savedLife :=
    List.mem_append_left _ (.head _)
  refine ⟨?_, by cbv⟩
  exact Machine.changes_kept saver_vacant (Environment.inert_hosts False) saved_trace spawned

end Compiler

end Bundler
