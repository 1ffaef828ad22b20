import Bundler.Proofs.Compiler.SessionConduct

/-!
# Conduct of drivers

The driver of a session and its book say the same at the end of every turn, and in between
the book says where in its turn the driver is. Each function of a driver has one lemma that
gives the book after it. `protocol_governs` puts them together with the conduct of everybody
else: if all code outside is code of visitors, every task keeps to the protocol.
-/

namespace Bundler

variable {S : Setting}

/-! ## Books of drivers -/

namespace Book

section Laws

variable {book : Book S} {driver : Driver S}

theorem matches_initial (session : SessionId) (compiler : CompilerId) (options : WatchOptions)
    (handler : S.Handler) :
    Book.Matches ({ session, compiler } : Book S) { session, compiler, options, handler } where
  session := rfl
  compiler := rfl
  closing := rfl
  waiting := rfl
  closers := rfl
  current := rfl
  announced := rfl
  dismissed := rfl
  changes _ := rfl
  requested _ := rfl

/-- A signal goes into the book as the driver notes it. -/
theorem Matches.signal (same : book.Matches driver) (signal : Signal S) :
    (book.signal signal).Matches (Compiler.onSignal driver signal) := by
  cases signal with
  | invalidate callback =>
      exact
        { same with
          waiting := congrArg (· ++ [callback]) same.waiting
          changes := same.changes
          requested := fun _ => by simp [Book.signal, Intake.calls, Compiler.onSignal] }
  | close callback =>
      exact
        { same with
          closing := rfl
          closers := congrArg (· ++ [callback]) same.closers
          changes := fun open_ => nomatch open_
          requested := fun open_ => nomatch open_ }

theorem Matches.signals (same : book.Matches driver) (signals : List (Signal S)) :
    (signals.foldl Book.signal book).Matches (signals.foldl Compiler.onSignal driver) := by
  induction signals generalizing book driver with
  | nil => exact same
  | cons signal rest ih => exact ih (same.signal signal)

/-- Whoever sees that the handle is gone begins to close. -/
theorem Matches.close (same : book.Matches driver) (gone : Bool) :
    ({ book with closing := book.closing || gone } : Book S).Matches
      { driver with closing := driver.closing || gone } :=
  { same with
    closing := by simp only [same.closing]
    changes := fun open_ => same.changes (Bool.or_eq_false_iff.mp open_).1
    requested := fun open_ => same.requested (Bool.or_eq_false_iff.mp open_).1 }

theorem Matches.drain (same : book.Matches driver) (signals : List (Signal S)) (gone : Bool) :
    (book.drain signals gone).Matches
      { signals.foldl Compiler.onSignal driver with
        closing := (signals.foldl Compiler.onSignal driver).closing || gone } :=
  (same.signals signals).close gone

/-- A change set that the driver drops makes no difference: it is empty, or the session is
closing. -/
theorem Matches.drop (same : book.Matches driver) {changes : ChangeSet}
    (dropped : driver.closing = true ∨ changes.isEmpty = true) :
    (book.receive changes).Matches driver := by
  refine { same with changes := fun open_ => ?_, requested := fun open_ => ?_ }
  all_goals
    have empty : changes.isEmpty = true := by
      rcases dropped with closing | empty
      · exact nomatch closing.symm.trans open_
      · exact empty
  · simp only [receive, Intake.merged_receive, ChangeSet.merge_of_isEmpty empty, same.changes open_]
  · simp only [receive, Intake.calls_receive, empty, Bool.not_true, Bool.or_false,
      same.requested open_]

/-- A change set that counts is folded into the changes of the next run. -/
theorem Matches.receive (same : book.Matches driver) {changes : ChangeSet}
    (counts : changes.isEmpty = false) :
    (book.receive changes).Matches { driver with
      pendingChanges := driver.pendingChanges.merge changes
      runRequested := true } :=
  { same with
    changes := fun open_ => by
      simp only [Book.receive, Intake.merged_receive, same.changes open_]
    requested := fun _ => by simp [Book.receive, counts] }

/-- Whenever the driver and its book agree, the driver may take what is queued. -/
theorem Matches.listens (same : book.Matches driver)
    (place : book.place = .between ∨ book.place = .handled) : book.Listens :=
  ⟨place, same.announced, same.current⟩

@[simp]
theorem place_signal (signal : Signal S) : (book.signal signal).place = book.place := by
  cases signal <;> rfl

@[simp]
theorem runs_signal (signal : Signal S) : (book.signal signal).runs = book.runs := by
  cases signal <;> rfl

@[simp]
theorem place_signals (signals : List (Signal S)) :
    (signals.foldl signal book).place = book.place := by
  induction signals generalizing book with
  | nil => rfl
  | cons signal rest ih => rw [List.foldl_cons, ih, place_signal]

@[simp]
theorem runs_signals (signals : List (Signal S)) :
    (signals.foldl signal book).runs = book.runs := by
  induction signals generalizing book with
  | nil => rfl
  | cons signal rest ih => rw [List.foldl_cons, ih, runs_signal]

@[simp]
theorem place_drain (signals : List (Signal S)) (gone : Bool) :
    (book.drain signals gone).place = book.place := place_signals signals

@[simp]
theorem runs_drain (signals : List (Signal S)) (gone : Bool) :
    (book.drain signals gone).runs = book.runs := runs_signals signals

/-! ### Callbacks -/

@[simp]
theorem place_settle (callback : S.Callback) : (book.settle callback).place = book.place := by
  rw [settle]
  split <;> rfl

@[simp]
theorem compiler_settle (callback : S.Callback) :
    (book.settle callback).compiler = book.compiler := by
  rw [settle]
  split <;> rfl

theorem owed_settle (callback : S.Callback) : (book.settle callback).owed = book.owed.tail := by
  obtain ⟨_, _, place, _, _, _, _, _, _, _, closers, _, _⟩ := book
  cases place <;> cases closers <;> rfl

/-- A run calls its callbacks. -/
theorem settle_current {callbacks : List S.Callback} (place : book.place = .handled)
    (current : book.current = callbacks) :
    callbacks.foldl settle book =
      { book with current := [], answered := book.answered ++ callbacks } := by
  induction callbacks generalizing book with
  | nil =>
      obtain ⟨⟩ := book
      simp_all
  | cons callback rest ih =>
      have called : book.settle callback =
          { book with current := rest, answered := book.answered ++ [callback] } := by
        rw [settle, place, current]
        rfl
      rw [List.foldl_cons, called, @ih { book with
        current := rest, answered := book.answered ++ [callback] } place rfl]
      simp

/-- The callbacks of closes are called. -/
theorem settle_closers {callbacks : List S.Callback} (place : book.place = .shut)
    (closers : book.closers = callbacks) :
    callbacks.foldl settle book =
      { book with closers := [], dismissed := book.dismissed ++ callbacks } := by
  induction callbacks generalizing book with
  | nil =>
      obtain ⟨⟩ := book
      simp_all
  | cons callback rest ih =>
      have called : book.settle callback =
          { book with closers := rest, dismissed := book.dismissed ++ [callback] } := by
        rw [settle, place, closers]
      rw [List.foldl_cons, called, @ih { book with
        closers := rest, dismissed := book.dismissed ++ [callback] } place rfl]
      simp

/-- After them, the callbacks that still wait for a run are called. -/
theorem settle_waiting {callbacks : List S.Callback} (place : book.place = .shut)
    (closers : book.closers = []) (waiting : book.waiting = callbacks) :
    callbacks.foldl settle book =
      { book with waiting := [], dismissed := book.dismissed ++ callbacks } := by
  induction callbacks generalizing book with
  | nil =>
      obtain ⟨⟩ := book
      simp_all
  | cons callback rest ih =>
      have called : book.settle callback =
          { book with waiting := rest, dismissed := book.dismissed ++ [callback] } := by
        rw [settle, place, closers, waiting]
        rfl
      rw [List.foldl_cons, called, @ih { book with
        waiting := rest, dismissed := book.dismissed ++ [callback] } place closers rfl]
      simp

end Laws

end Book

/-! ## Parts of turns -/

namespace Standing

/-- The standing of a driver between the calls that it makes. -/
def driving (holds : List CompilerId) (book : Book S) : Standing S := { holds, book := some book }

variable {holds : List CompilerId} {book : Book S}

theorem settled_driving (held : book.place.inRun = true → book.compiler ∈ holds) :
    (driving holds book).Settled where
  opening := rfl
  held _ found := Option.some.inj found ▸ held
  refused := rfl

theorem settled_between (place : book.place = .between) : (driving holds book).Settled :=
  settled_driving fun inRun => by simp [place, Place.inRun] at inRun

theorem settled_shut (place : book.place = .shut) : (driving holds book).Settled :=
  settled_driving fun inRun => by simp [place, Place.inRun] at inRun

/-- What only the driver of a session may do. -/
theorem drives {reading : Book S → Prop} (said : reading book) :
    (driving holds book).Drives book.session reading := ⟨book, rfl, rfl, said⟩

end Standing

namespace Compiler

open Standing (driving)

variable {driver : Driver S} {book : Book S} {holds : List CompilerId}

/-- A call that the book takes no notice of. -/
theorem allows_plain {outside : Call S} (settled : (driving holds book).Settled)
    (permitted : (driving holds book).PermitsCall outside) :
    (driving holds book).AllowsCall outside :=
  ⟨settled.toSteady, .inr ⟨rfl, permitted⟩⟩

theorem tellInvalid_minds {standing : Standing S} {compiler : CompilerId}
    (settled : standing.Settled) (paths : List Path) :
    (tellInvalid compiler paths : Prog S Unit).Minds (protocol S) standing := by
  induction paths with
  | nil => exact .done rfl
  | cons path rest ih =>
      rw [tellInvalid]
      exact .after_minds (tell_invalid_minds settled (some path)) fun _ => ih

/-- The callbacks that are owed first are called, and settled in the book. -/
theorem notifyAll_heeds (book : Book S) (callbacks rest : List S.Callback)
    (held : book.place.inRun = true → book.compiler ∈ holds)
    (owed : book.owed = callbacks ++ rest) :
    (notifyAll callbacks).Heeds (protocol S)
      (fun _ standing => standing = driving holds (callbacks.foldl Book.settle book))
      (driving holds book) := by
  induction callbacks generalizing book with
  | nil => exact .done rfl
  | cons callback more ih =>
      rw [notifyAll]
      have first : (driving holds book).PermitsCall (.notify callback) := ⟨book, rfl, by simp [owed]⟩
      refine .moveCall (driving holds (book.settle callback))
        (allows_plain (Standing.settled_driving held) first) rfl fun _ => ?_
      refine ih (book.settle callback) (fun inRun => ?_) ?_
      · rw [Book.place_settle] at inRun
        rw [Book.compiler_settle]
        exact held inRun
      · rw [Book.owed_settle, owed]
        rfl

/-- A change set is noted in the book when it is taken, and by the driver after observers
were told. -/
theorem onChanges_heeds (same : book.Matches driver)
    (held : book.place.inRun = true → book.compiler ∈ holds) (changes : ChangeSet) :
    (onChanges driver changes).Heeds (protocol S)
      (fun other standing => standing = driving holds (book.receive changes) ∧
        (book.receive changes).Matches other ∧ other.compiler = driver.compiler)
      (driving holds (book.receive changes)) := by
  have settled : (driving holds (book.receive changes)).Settled := Standing.settled_driving held
  rw [onChanges]
  split
  · rename_i dropped
    exact .done ⟨rfl, same.drop (by simpa using dropped), rfl⟩
  · rename_i counts
    have counted : changes.isEmpty = false := by
      simp only [Bool.or_eq_true, not_or, Bool.not_eq_true] at counts
      exact counts.2
    exact .after_minds (tellInvalid_minds settled _) fun _ => .done ⟨rfl, same.receive counted, rfl⟩

/-- A driver waits only when its book has nothing for it to do. -/
theorem awaitEvent_heeds (same : book.Matches driver) (place : book.place = .between) :
    (awaitEvent driver).Heeds (protocol S)
      (fun other standing => ∃ book : Book S, standing = driving [] book ∧ book.Matches other ∧
        book.place = .between)
      (driving [] book) := by
  rw [awaitEvent]
  split
  · exact .done ⟨book, rfl, same, place⟩
  · rename_i idle
    simp only [Bool.or_eq_true, not_or, Bool.not_eq_true] at idle
    obtain ⟨unasked, open_⟩ := idle
    have reasons := (same.requested open_).symm.trans unasked
    simp only [Bool.or_eq_false_iff, List.isEmpty_eq_false_iff] at reasons
    have rests : book.Rests :=
      ⟨place, same.announced, same.closing.trans open_, reasons.2, reasons.1⟩
    refine .move (fun wake => driving [] (book.wake wake))
      ⟨rfl, same.session ▸ Standing.drives rests⟩ (fun _ => rfl) fun wake _ => ?_
    cases wake with
    | signal signal =>
        exact .done ⟨_, rfl, same.signal signal, (Book.place_signal signal).trans place⟩
    | changes changes =>
        have unheld : book.place.inRun = true → book.compiler ∈ ([] : List CompilerId) := by
          simp [place, Place.inRun]
        refine (onChanges_heeds same unheld changes).mono ?_
        rintro other _ ⟨rfl, noted, -⟩
        exact ⟨_, rfl, noted, place⟩
    | gone =>
        have closed := same.close true
        rw [Bool.or_true, Bool.or_true] at closed
        exact .done ⟨_, rfl, closed, place⟩

/-- What the book says when the close sequence is over. -/
structure Dismissed (driver : Driver S) (book : Book S) : Prop where
  session : book.session = driver.session
  compiler : book.compiler = driver.compiler
  place : book.place = .shut
  closers : book.closers = []
  waiting : book.waiting = []

/-- In a closed session the callbacks of closes are called, and then all that still wait. -/
theorem dismissAll_heeds (place : book.place = .shut) :
    (notifyAll book.closers >>= fun _ => notifyAll book.waiting).Heeds (protocol S)
      (fun _ standing => standing = driving holds { book with
        closers := []
        waiting := []
        dismissed := book.dismissed ++ book.closers ++ book.waiting })
      (driving holds book) := by
  have outside : book.place.inRun = true → book.compiler ∈ holds := by simp [place, Place.inRun]
  have first := notifyAll_heeds book book.closers book.waiting outside (by rw [Book.owed, place])
  rw [Book.settle_closers place rfl] at first
  refine first.bind ?_
  rintro _ _ rfl
  let called : Book S :=
    { book with closers := [], dismissed := book.dismissed ++ book.closers }
  have second := notifyAll_heeds called book.waiting [] outside
    (by simp [called, Book.owed, place])
  have settled : book.waiting.foldl Book.settle called = _ :=
    Book.settle_waiting place rfl rfl
  rw [settled] at second
  exact second

/-- The session is closed, `watch_close` is told, and all callbacks are called. -/
theorem closeNow_heeds (same : book.Matches driver)
    (held : book.place.inRun = true → book.compiler ∈ holds)
    (place : book.place = .between ∨ book.place = .handled) (closing : driver.closing = true) :
    (closeNow driver).Heeds (protocol S)
      (fun other standing => other.compiler = driver.compiler ∧
        ∃ book, standing = driving holds book ∧ Dismissed other book)
      (driving holds book) := by
  have shuts : (do
      let left ← Prog.perform (.shut driver.session)
      let driver := left.foldl onSignal driver
      let _ ← Prog.perform (.shift driver.compiler .endWatch)
      tell driver.compiler .watchClose
      notifyAll driver.closeCallbacks
      notifyAll driver.pendingCallbacks
      return { driver with subscription := none, closeCallbacks := [], pendingCallbacks := [] } :
        Prog S (Driver S)).Heeds (protocol S)
      (fun other standing => other.compiler = driver.compiler ∧
        ∃ book, standing = driving holds book ∧ Dismissed other book)
      (driving holds book) := by
    refine .move (fun left => driving holds { left.foldl Book.signal book with place := .shut })
      ⟨rfl, same.session ▸ Standing.drives ⟨place, same.current, same.closing.trans closing⟩⟩
      (fun _ => rfl) fun left _ => ?_
    have later := same.signals left
    have settled : (driving holds
        ({ left.foldl Book.signal book with place := .shut } : Book S)).Settled :=
      Standing.settled_shut rfl
    refine .stay ⟨rfl, trivial⟩ (shift_keeps nofun nofun) fun _ => ?_
    refine .after_minds (minds_of_within settled (within_tell trivial fun observer =>
      ⟨allows_plain settled ⟨_, rfl, later.compiler, rfl, later.dismissed⟩, rfl⟩)) fun _ => ?_
    rw [← later.closers, ← later.waiting, ← LawfulMonad.bind_assoc]
    refine (dismissAll_heeds rfl).bind ?_
    rintro _ _ rfl
    exact .done ⟨(sameSession_foldl_onSignal left driver).1, _, rfl, later.session,
      later.compiler, rfl, rfl, rfl⟩
  rw [closeNow]
  cases driver.subscription with
  | none => exact shuts
  | some subscription =>
      exact .moveCall _ (allows_plain (Standing.settled_driving held) trivial) rfl fun _ => shuts

/-- A new subscription concerns no book. -/
theorem resubscribe_heeds (settled : (driving holds book).Settled) (same : book.Matches driver)
    (compilation : Compilation) :
    (resubscribe driver compilation).Heeds (protocol S)
      (fun other standing => standing = driving holds book ∧ book.Matches other ∧
        other.compiler = driver.compiler)
      (driving holds book) := by
  have resubscribed : ∀ subscription, book.Matches { driver with subscription } :=
    fun _ => { same with changes := same.changes, requested := same.requested }
  obtain ⟨allowed, kept⟩ := settled.opens (.look driver.compiler) trivial
  rw [resubscribe]
  refine .stay allowed kept fun record => ?_
  refine .moveCall _ (allows_plain settled trivial) rfl fun reply => ?_
  cases reply with
  | none => exact .done ⟨rfl, same, rfl⟩
  | some subscription =>
      cases driver.subscription with
      | none => exact .done ⟨rfl, resubscribed _, rfl⟩
      | some old =>
          exact .moveCall _ (allows_plain settled trivial) rfl fun _ =>
            .done ⟨rfl, resubscribed _, rfl⟩

/-- A run is announced to its session, if there are changes behind it. -/
theorem prepareChanges_heeds (same : book.Matches driver) (place : book.place = .between)
    (open_ : driver.closing = false) :
    (prepareChanges driver).Heeds (protocol S)
      (fun _ standing => standing = driving [driver.compiler] { book with
        announced := if driver.pendingChanges.isEmpty then none else some driver.pendingChanges })
      (driving [driver.compiler] book) := by
  have settled : (driving [driver.compiler] book).Settled := Standing.settled_between place
  obtain ⟨allowed, kept⟩ := settled.opens (.look driver.compiler) trivial
  rw [prepareChanges]
  by_cases empty : driver.pendingChanges.isEmpty = true
  · simp only [empty, Bool.not_true, Bool.false_eq_true, if_false, if_true]
    refine .done (congrArg (driving _) ?_)
    rw [← same.announced]
  · rw [Bool.not_eq_true] at empty
    simp only [empty, Bool.not_false, if_true, Bool.false_eq_true, if_false]
    refine .stay allowed kept fun record => ?_
    refine .moveCall _ (allows_plain settled trivial) rfl fun _ => ?_
    exact .op ⟨rfl, same.session ▸ Standing.drives ⟨same.announced, place,
      same.closing.trans open_, same.changes open_, empty⟩⟩ fun _ _ => .done rfl

/-- A run takes what the book has, works, and calls the callbacks that waited for it. -/
theorem watchRun_heeds (same : book.Matches driver) (place : book.place = .between)
    (open_ : driver.closing = false) (requested : driver.runRequested = true) :
    (watchRun driver).Heeds (protocol S)
      (fun value standing => value.2.compiler = driver.compiler ∧
        ∃ book : Book S, standing = driving [driver.compiler] book ∧ book.Matches value.2 ∧
          book.place = .handled ∧ book.runs ≠ [])
      (driving [] book) := by
  have reason : book.runs ≠ [] → book.pending.calls = true := by
    intro ran
    have calls := (same.requested open_).symm.trans requested
    simpa [List.isEmpty_eq_false_iff.mpr ran] using calls
  have begins : Book.Begins ({ book with
      announced := if driver.pendingChanges.isEmpty then none else some driver.pendingChanges } :
        Book S) driver.pendingChanges :=
    ⟨place, same.current, same.closing.trans open_, same.changes open_, rfl, reason⟩
  have works : (driving [driver.compiler]
      ({ book.begin with place := .working } : Book S)).Settled :=
    Standing.settled_driving fun _ => List.mem_singleton.mpr same.compiler
  have calls : (notifyAll driver.pendingCallbacks).Heeds (protocol S)
      (fun _ standing => standing = driving [driver.compiler] { book.begin with
        place := .handled
        current := []
        answered := book.answered ++ driver.pendingCallbacks })
      (driving [driver.compiler] { book.begin with place := .handled }) := by
    have called := notifyAll_heeds { book.begin with place := .handled } driver.pendingCallbacks []
      (fun _ => List.mem_singleton.mpr same.compiler) (by simp [Book.owed, Book.begin, same.waiting])
    rw [Book.settle_current rfl same.waiting] at called
    exact called
  rw [watchRun_eq]
  refine .move (fun _ => driving [driver.compiler] book) ⟨rfl, .inr ⟨rfl, book, rfl, same.compiler⟩⟩
    (fun _ => rfl) fun _ _ => ?_
  refine (prepareChanges_heeds same place open_).bind ?_
  rintro _ _ rfl
  rw [watchRest]
  refine .move (fun _ => driving [driver.compiler] book.begin)
    ⟨rfl, List.mem_singleton.mpr rfl, fun _ found => Option.some.inj found ▸
      ⟨same.compiler, begins⟩⟩ (fun _ => rfl) fun _ _ => ?_
  refine .stay ⟨rfl, trivial⟩ (shift_keeps nofun nofun) fun _ => ?_
  refine .move (fun _ => driving [driver.compiler] { book.begin with place := .working })
    ⟨rfl, _, rfl, same.compiler, rfl⟩ (fun _ => rfl) fun worker _ => ?_
  refine .stay ⟨rfl, trivial⟩ (fun _ => rfl) fun result => ?_
  refine .stay ⟨rfl, trivial⟩ (shift_keeps nofun nofun) fun _ => ?_
  refine .after_minds (tellFailure_minds works result) fun _ => ?_
  refine .moveCall (driving [driver.compiler] { book.begin with place := .handled })
    (allows_plain works ⟨_, rfl, rfl⟩) rfl fun _ => ?_
  refine calls.bind ?_
  rintro _ _ rfl
  refine .done ⟨rfl, _, rfl, ?_, rfl, by simp [Book.begin]⟩
  exact
    { same with
      waiting := rfl
      current := rfl
      announced := rfl
      changes := fun _ => rfl
      requested := fun _ => by simp [Book.begin, Intake.calls] }

/-! ## Turns -/

/-- A driver leaves its session when it owes nothing any more. -/
theorem retire_heeds (dismissed : Dismissed driver book) :
    (retire driver).Heeds (protocol S) (protocol S).goesOn (driving holds book) :=
  .perform ⟨rfl, dismissed.session ▸ Standing.drives
    ⟨dismissed.place, dismissed.closers, dismissed.waiting⟩⟩ fun _ _ => .done
      ⟨rfl, fun _ found => Option.some.inj found ▸
        ⟨dismissed.place, dismissed.closers, dismissed.waiting⟩⟩

theorem decideNext_heeds (same : book.Matches driver) (place : book.place = .between) :
    (decideNext driver).Heeds (protocol S) (protocol S).goesOn (driving [] book) := by
  have between : book.place.inRun = true → book.compiler ∈ ([] : List CompilerId) := by
    simp [place, Place.inRun]
  rw [decideNext]
  split
  · rename_i closing
    refine (closeNow_heeds same between (.inl place) closing).bind ?_
    rintro other _ ⟨-, book, rfl, dismissed⟩
    exact retire_heeds dismissed
  · rename_i open_
    rw [Bool.not_eq_true] at open_
    split
    · rename_i requested
      refine (watchRun_heeds same place open_ requested).bind ?_
      rintro ⟨finished, later⟩ _ ⟨compiler, book, rfl, same, place, ran⟩
      refine .move (fun taken => driving [driver.compiler] (book.drain taken.1 taken.2))
        ⟨rfl, same.session ▸ Standing.drives (same.listens (.inr place))⟩ (fun _ => rfl) fun taken _ => ?_
      have drained := same.drain taken.1 taken.2
      have here := (sameSession_foldl_onSignal taken.1 later).1.trans compiler
      refine .done ⟨_, drained, (Book.place_drain _ _).trans place, ?_, ?_⟩
      · rw [Book.runs_drain]
        exact ran
      · rw [here]
        rfl
    · exact .done ⟨book, same, place, rfl⟩

/-- With its first observer `after_done` has begun. -/
theorem tell_afterDone_heeds (finished : Option Compilation) (held : book.compiler ∈ holds)
    (place : book.place = .handled) (current : book.current = []) :
    (tell book.compiler (.afterDone finished)).Heeds (protocol S)
      (fun _ standing => ∃ place, (place = .handled ∨ place = .ending) ∧
        standing = driving holds { book with place })
      (driving holds book) := by
  have within : (tell book.compiler (.afterDone finished)).Within (Op.Open (S := S)) fun outside =>
      ∃ observer, outside = .observe book.compiler observer (.afterDone finished) :=
    within_tell trivial fun observer => ⟨observer, rfl⟩
  refine .within_statuses within ?_ ?_ ⟨_, .inl rfl, by rw [← place]⟩
  · rintro operation _ allowed ⟨place, ends, rfl⟩
    have settled : (driving holds { book with place }).Settled :=
      Standing.settled_driving fun _ => held
    obtain ⟨permitted, kept⟩ := settled.opens operation allowed
    exact ⟨permitted, fun reply => ⟨place, ends, kept reply⟩⟩
  · rintro _ _ ⟨observer, rfl⟩ ⟨place, ends, rfl⟩
    have settled : (driving holds { book with place }).Settled :=
      Standing.settled_driving fun _ => held
    have inRun : place.inRun = true := by rcases ends with rfl | rfl <;> rfl
    refine ⟨allows_plain settled fun _ found => Option.some.inj found ▸ fun _ _ =>
      ⟨ends, current⟩, .ending, .inr rfl, congrArg (driving holds) (if_pos ⟨rfl, inRun⟩)⟩

/-- The observers of `after_done` are called, and the run is over. -/
theorem finishRun_heeds (finished : Option Compilation) (same : book.Matches driver)
    (place : book.place = .handled) :
    Prog.Heeds (protocol S) (protocol S).goesOn (driving [driver.compiler] book) (do
      tell driver.compiler (.afterDone finished)
      Prog.perform (.release driver.compiler)
      return some (.drive .waiting driver)) := by
  rw [← same.compiler]
  refine (tell_afterDone_heeds finished List.mem_cons_self place same.current).bind ?_
  rintro _ _ ⟨place, ends, rfl⟩
  have inRun : place.inRun = true := by rcases ends with rfl | rfl <;> rfl
  refine .move (fun _ => driving [] { book with place := .between })
    ⟨rfl, List.mem_cons_self, fun _ found => Option.some.inj found ▸ fun _ _ =>
      ⟨ends, same.current⟩⟩ (fun _ => ?_) fun _ _ => ?_
  · have ended : Book.release { book with place } book.compiler = { book with place := .between } :=
      if_pos ⟨rfl, inRun⟩
    simp [Standing.after, driving, Standing.holdsAfter, Standing.openingAfter,
      Standing.refusedAfter, Book.after, ended]
  · exact .done ⟨{ book with place := .between },
      { same with changes := same.changes, requested := same.requested }, rfl, rfl⟩

/-- A close that came during the run is carried out before `after_done`. -/
theorem endRun_heeds (finished : Option Compilation) (same : book.Matches driver)
    (place : book.place = .handled) :
    (endRun finished driver).Heeds (protocol S) (protocol S).goesOn
      (driving [driver.compiler] book) := by
  have held : book.compiler ∈ [driver.compiler] := List.mem_singleton.mpr same.compiler
  by_cases closing : driver.closing = true
  · simp only [endRun, closing, if_true]
    refine (closeNow_heeds same (fun _ => held) (.inr place) closing).bind ?_
    rintro other _ ⟨compiler, closed, rfl, dismissed⟩
    rw [compiler]
    have settled : (driving [driver.compiler] closed).Settled :=
      Standing.settled_shut dismissed.place
    have spares : (driving [driver.compiler] closed).Spares driver.compiler := by
      rintro _ found ⟨-, inRun⟩
      obtain rfl := Option.some.inj found
      rw [dismissed.place] at inRun
      cases inRun
    refine .after_minds (minds_of_within settled (within_tell trivial fun observer =>
      (settled.allowsPhases spares).observing observer _ trivial)) fun _ => ?_
    refine .move _ ⟨rfl, List.mem_cons_self, fun book found here inRun =>
        absurd ⟨here, inRun⟩ (spares book found)⟩
      (fun _ => Standing.after_release_of_spares spares) fun _ _ => retire_heeds dismissed
  · rw [Bool.not_eq_true] at closing
    simp only [endRun, closing, Bool.false_eq_true, if_false]
    cases finished with
    | none => exact finishRun_heeds none same place
    | some compilation =>
        have settled : (driving [driver.compiler] book).Settled :=
          Standing.settled_driving fun _ => held
        refine (resubscribe_heeds settled same compilation).bind ?_
        rintro other _ ⟨rfl, later, compiler⟩
        have finishes := finishRun_heeds (some compilation) later place
        rw [compiler] at finishes ⊢
        exact finishes

/-- A driver of any stage begins a turn as its book says, and ends it so. -/
theorem drive_heeds {stage : DriverStage} {standing : Standing S}
    (fits : standing.Fits (.drive stage driver)) :
    (drive stage driver).Heeds (protocol S) (protocol S).goesOn standing := by
  cases stage with
  | waiting =>
      obtain ⟨book, same, place, rfl⟩ := fits
      refine (awaitEvent_heeds same place).bind ?_
      rintro later _ ⟨book, rfl, same, place⟩
      exact .move (fun taken => driving [] (book.drain taken.1 taken.2))
        ⟨rfl, same.session ▸ Standing.drives (same.listens (.inl place))⟩ (fun _ => rfl) fun taken _ =>
          .done ⟨_, same.drain taken.1 taken.2, (Book.place_drain _ _).trans place, rfl⟩
  | draining =>
      obtain ⟨book, same, place, rfl⟩ := fits
      refine .perform ⟨rfl, same.session ▸ Standing.drives (same.listens (.inl place))⟩
        fun reply _ => ?_
      cases reply with
      | none => exact decideNext_heeds same place
      | some changes =>
          have unheld : book.place.inRun = true → book.compiler ∈ ([] : List CompilerId) := by
            simp [place, Place.inRun]
          refine (onChanges_heeds same unheld changes).bind ?_
          rintro later _ ⟨rfl, noted, -⟩
          exact .done ⟨_, noted, place, rfl⟩
  | drainingAfter finished =>
      obtain ⟨book, same, place, ran, rfl⟩ := fits
      refine .perform ⟨rfl, same.session ▸ Standing.drives (same.listens (.inr place))⟩
        fun reply _ => ?_
      cases reply with
      | none => exact endRun_heeds finished same place
      | some changes =>
          have held : book.place.inRun = true → book.compiler ∈ [driver.compiler] :=
            fun _ => List.mem_singleton.mpr same.compiler
          refine (onChanges_heeds same held changes).bind ?_
          rintro later _ ⟨rfl, noted, compiler⟩
          exact .done ⟨_, noted, place, ran, by rw [compiler]; rfl⟩

end Compiler

/-! ## Everybody keeps to the protocol -/

/-- Code that is called is called by a settled task, whatever book it has. -/
theorem Standing.AllowsCall.settled {standing : Standing S} {outside : Call S}
    (allowed : standing.AllowsCall outside) : (standing.duringCall outside).Settled := by
  have steady := allowed.1
  obtain ⟨holds, opening, refused, held⟩ := standing
  cases refused with
  | some callback => exact ⟨⟨steady.opening, steady.held⟩, rfl⟩
  | none =>
      have permitted := allowed.permits rfl
      refine ⟨⟨steady.opening, fun later found inRun => ?_⟩, rfl⟩
      obtain ⟨book, rfl, rfl⟩ := Option.map_eq_some_iff.mp found
      cases outside with
      | handle handler result =>
          obtain ⟨_, same, working⟩ := permitted
          obtain rfl := Option.some.inj same
          exact steady.held book rfl (by rw [working]; rfl)
      | notify callback =>
          have placed : (book.settle callback).place.inRun = true := inRun
          rw [Book.place_settle] at placed
          change (book.settle callback).compiler ∈ holds
          rw [Book.compiler_settle]
          exact steady.held book rfl placed
      | observe compiler observer occasion =>
          cases occasion with
          | afterDone finished =>
              by_cases running : book.compiler = compiler ∧ book.place.inRun = true
              · have ended : book.during (.observe compiler observer (.afterDone finished)) =
                    { book with place := .ending } := if_pos running
                rw [ended]
                exact steady.held book rfl running.2
              · have kept : book.during (.observe compiler observer (.afterDone finished)) = book :=
                  if_neg running
                rw [kept] at inRun ⊢
                exact steady.held book rfl inRun
          | _ => exact steady.held book rfl inRun
      | _ => exact steady.held book rfl inRun

/-- If all code that is called is code of visitors, every task keeps to the protocol. -/
theorem protocol_governs {E : Environment S} {panics : Prop} (hosts : E.Hosts panics) :
    (protocol S).Governs E where
  code outside _ allowed := Compiler.visitor_minds (hosts outside) allowed.settled
  jobs job standing fits := by
    cases job with
    | run compiler callback =>
        obtain rfl : standing = { opening := some (.called compiler) } := fits
        exact (Compiler.runToEnd_heeds callback).bind fun _ _ ends => ends ▸ .done
          Standing.ends_empty
    | phases compiler =>
        obtain rfl : standing = {} := fits
        exact Compiler.phases_heeds
    | watchPhases compiler =>
        obtain rfl : standing = {} := fits
        exact Compiler.watchPhases_heeds
    | drive stage driver => exact Compiler.drive_heeds fits
  spawns standing job allowed := by
    cases job with
    | run | phases | watchPhases => rfl
    | drive stage driver =>
        obtain ⟨-, -, rfl, same⟩ := allowed
        refine ⟨_, ?_, rfl, rfl⟩
        rw [same]
        exact Book.matches_initial _ _ _ _

end Bundler
