import Bundler.Proofs.Compiler.DriverHistory

/-!
# The close sequence

Between two turns a driver knows from its own state what its history comes to: `Driver.dues`
are the accounts that it keeps, and `Account` says that a history in which nothing was closed
comes to them. Each part of a turn does what is right at its moment and keeps the account, up
to the close sequence, which ends it. So every history of a driver is sane, and it either
closes nothing or is part of one with a single close sequence.
-/

namespace Bundler.Compiler

variable {S : Setting}

namespace History

/-- What a history in which nothing was closed comes to. -/
structure Dues (S : Setting) where
  /-- A close was asked for. -/
  closing : Bool
  /-- The callbacks of the closes that were taken. -/
  closers : List S.Callback
  /-- The callbacks of invalidates that were not called yet. -/
  waiting : List S.Callback
  /-- The subscription that is open. -/
  held : Option Subscription
  /-- Phases were set going, and the handler was not called. -/
  working : Bool

/-- A history in which nothing was closed, and what it comes to. -/
structure Account (session : SessionId) (dues : Dues S) (history : History S) : Prop where
  sane : Sane session history
  asked : asked history = dues.closing
  closers : closers history = dues.closers
  waiting : invalidators history = called history ++ dues.waiting
  held : (obtained history).Perm (givenUp history ++ dues.held.toList)
  working : begun history = handled history + dues.working.toNat
  unclosed : Open history

theorem length_held (held : Option Subscription) : held.toList.length ≤ 1 := by
  cases held <;> simp

namespace Account

variable {session : SessionId} {dues now : Dues S} {history more : History S} {deed : Deed S}

theorem nil : Account session ⟨false, [], [], none, false⟩ ([] : History S) :=
  ⟨sane_nil session, rfl, rfl, rfl, .refl _, rfl, open_nil⟩

/-- A deed at the right moment, with what the history comes to afterwards. -/
theorem step (account : Account session dues history) (right : Right session history deed)
    (open_ : ¬ deed.Closes)
    (asks : (dues.closing || History.asked [deed]) = now.closing)
    (closes : dues.closers ++ History.closers [deed] = now.closers)
    (waits : dues.waiting ++ invalidators [deed] = called [deed] ++ now.waiting)
    (holds : (dues.held.toList ++ obtained [deed]).Perm (givenUp [deed] ++ now.held.toList))
    (works : dues.working.toNat + begun [deed] = History.handled [deed] + now.working.toNat) :
    Account session now (history ++ [deed]) := by
  have held : (obtained (history ++ [deed])).Perm
      (givenUp (history ++ [deed]) ++ now.held.toList) := by
    rw [obtained_append, givenUp_append, List.append_assoc]
    refine (account.held.append_right _).trans ?_
    rw [List.append_assoc]
    exact holds.append_left _
  have waiting : invalidators (history ++ [deed]) = called (history ++ [deed]) ++ now.waiting := by
    rw [invalidators_append, called_append, account.waiting, List.append_assoc, waits,
      List.append_assoc]
  have working : begun (history ++ [deed]) =
      History.handled (history ++ [deed]) + now.working.toNat := by
    rw [begun_append, handled_append, account.working]
    omega
  have unclosed := account.unclosed.snoc open_
  exact
    { sane := account.sane.snoc _ right held (.inl (length_held _))
        (fun closed => absurd unclosed closed) (fun _ => waiting ▸ List.prefix_append _ _)
        (working ▸ Nat.le_add_right _ _)
      asked := by rw [asked_append, account.asked, asks]
      closers := by rw [closers_append, account.closers, closes]
      waiting, held, working, unclosed }

variable (deed) in
/-- A deed that changes no account. -/
theorem quiet (account : Account session dues history) (right : Right session history deed)
    (open_ : ¬ deed.Closes) (silent : Silent deed) :
    Account session dues (history ++ [deed]) :=
  account.step right open_ (by simp [Deed.asksForClose, silent.seesDrop, silent.heard])
    (by simp [silent.heard]) (by simp [silent.heard, silent.calls])
    (by simp [silent.obtains, silent.givesUp]) (by simp [silent.setsOut, silent.handles])

/-- Deeds that change no account and are right at any moment. -/
theorem aside (account : Account session dues history)
    (aside : ∀ deed ∈ more, Silent deed ∧ ¬ deed.Closes ∧ ∀ earlier, Right session earlier deed) :
    Account session dues (history ++ more) := by
  induction more using List.reverseRecOn with
  | nil => rwa [List.append_nil]
  | append_singleton earlier deed ih =>
      have before := ih fun other member => aside other (List.mem_append_left _ member)
      obtain ⟨silent, open_, right⟩ := aside deed (List.mem_append_right _ (.head _))
      rw [← List.append_assoc]
      exact before.quiet _ (right _) open_ silent

variable (deed) in
/-- Signals are taken, and perhaps the handle is seen to be dropped. -/
theorem hear (account : Account session dues history) (right : Right session history deed)
    (open_ : ¬ deed.Closes) (uncalled : called [deed] = [])
    (level : obtained [deed] = [] ∧ givenUp [deed] = [])
    (still : begun [deed] = 0 ∧ handled [deed] = 0) :
    Account session { dues with
      closing := dues.closing || History.asked [deed]
      closers := dues.closers ++ History.closers [deed]
      waiting := dues.waiting ++ invalidators [deed] } (history ++ [deed]) :=
  account.step right open_ rfl rfl (by rw [uncalled]; rfl)
    (by rw [level.1, level.2, List.append_nil]; rfl) (by rw [still.1, still.2, Nat.add_comm])

theorem acquire (account : Account session dues history) (unasked : dues.closing = false)
    (compiler : CompilerId) :
    Account session dues (history ++ [.op (.acquire compiler) ()]) :=
  account.quiet _ (account.asked.trans unasked) id ⟨rfl, rfl, rfl, rfl, rfl, rfl, rfl⟩

theorem setOut (account : Account session dues history) (resting : dues.working = false)
    (compiler : CompilerId) (worker : TaskId) :
    Account session { dues with working := true }
      (history ++ [.op (.spawn (.watchPhases compiler)) worker]) :=
  account.step trivial id (Bool.or_false _) (List.append_nil _) (List.append_nil _)
    (.of_eq (List.append_nil _)) (by rw [resting]; rfl)

theorem handle (account : Account session dues history) (working : dues.working = true)
    (handler : S.Handler) (result : RunResult) :
    Account session { dues with working := false }
      (history ++ [.call (.handle handler result) ()]) :=
  account.step trivial id (Bool.or_false _) (List.append_nil _) (List.append_nil _)
    (.of_eq (List.append_nil _)) (by rw [working]; rfl)

/-- A run calls its callbacks. -/
theorem notify {callbacks rest : List S.Callback} {before middle : History S}
    {compiler : CompilerId} {worker : TaskId} (account : Account session dues history)
    (waiting : dues.waiting = callbacks ++ rest)
    (run : history = before ++ .op (.spawn (.watchPhases compiler)) worker :: middle)
    (still : begun middle = 0) (once : handled middle = 1)
    (unfinished : ∀ deed ∈ middle, ¬ deed.EndsRun)
    (due : (called history).length + callbacks.length ≤ (invalidators before).length) :
    Account session { dues with waiting := rest }
      (history ++ callbacks.map fun callback => .call (.notify callback) ()) := by
  induction callbacks generalizing history dues middle with
  | nil =>
      rw [List.map_nil, List.append_nil]
      rw [List.nil_append] at waiting
      rwa [← waiting]
  | cons callback callbacks ih =>
      have answers : Answers history := by
        refine
          ⟨account.unclosed, before, compiler, worker, middle, run, still, once, unfinished, ?_⟩
        exact Nat.lt_of_lt_of_le (Nat.lt_add_of_pos_right (Nat.succ_pos _)) due
      have next : Account session { dues with waiting := callbacks ++ rest }
          (history ++ [.call (.notify callback) ()]) :=
        account.step (.inl answers) id (Bool.or_false _) (List.append_nil _)
          (by rw [waiting]; exact List.append_nil _) (.of_eq (List.append_nil _)) (Nat.add_comm _ 0)
      rw [List.map_cons, List.append_cons]
      have extended : history ++ [.call (.notify callback) ()] =
          before ++ .op (.spawn (.watchPhases compiler)) worker ::
            (middle ++ [.call (.notify callback) ()]) := by
        rw [run, List.append_assoc, List.cons_append]
      have remaining : (called (history ++ [.call (.notify callback) ()])).length +
          callbacks.length ≤ (invalidators before).length := by
        simp only [called_append, called_cons, called_nil, Deed.calls?, Option.toList_some,
          List.append_nil, List.length_append, List.length_singleton]
        rw [List.length_cons] at due
        omega
      have later := ih next rfl extended (by simpa [Deed.setsOut] using still)
        (by simpa [Deed.handles] using once)
        (fun deed member => (List.mem_append.mp member).elim (unfinished deed)
          fun last => List.mem_singleton.mp last ▸ id) remaining
      exact later

section Subscriptions

variable {watcher : StorageId} {id : SessionId} {request : WatchRequest}
  {subscription : Subscription}

/-- A subscription that is refused changes nothing. -/
theorem refused (account : Account session dues history) :
    Account session dues (history ++ [.call (.subscribe watcher id request) none]) :=
  account.quiet _ trivial False.elim ⟨rfl, rfl, rfl, rfl, rfl, rfl, rfl⟩

/-- The first subscription. -/
theorem subscribe (account : Account session dues history) (unheld : dues.held = none) :
    Account session { dues with held := some subscription }
      (history ++ [.call (.subscribe watcher id request) (some subscription)]) :=
  account.step trivial False.elim (Bool.or_false _) (List.append_nil _) (List.append_nil _)
    (by rw [unheld]; exact .refl _) (Nat.add_comm _ 0)

theorem giveUp (account : Account session dues history) (held : dues.held = some subscription) :
    Account session { dues with held := none }
      (history ++ [.call (.unsubscribe subscription) ()]) :=
  account.step trivial False.elim (Bool.or_false _) (List.append_nil _) (List.append_nil _)
    (by rw [held]; exact .refl _) (Nat.add_comm _ 0)

/-- A subscription is exchanged for a new one. For a moment both are open. -/
theorem exchange {old : Subscription} (account : Account session dues history)
    (held : dues.held = some old) :
    Account session { dues with held := some subscription }
      (history ++ [.call (.subscribe watcher id request) (some subscription)] ++
        [.call (.unsubscribe old) ()]) := by
  have owned := account.held
  rw [held] at owned
  have opened : Open (history ++ [.call (.subscribe watcher id request) (some subscription)]) :=
    account.unclosed.snoc False.elim
  have both : Sane session
      (history ++ [.call (.subscribe watcher id request) (some subscription)]) := by
    refine account.sane.snoc [old, subscription] trivial ?_ (.inr ⟨rfl, rfl⟩)
      (fun closed => absurd opened closed) (fun _ => ?_) ?_
    · simpa [Deed.obtains?, Deed.givesUp?] using owned.append_right [subscription]
    · simp [Deed.calls?, Deed.heard, account.waiting]
    · simp [Deed.setsOut, Deed.handles, account.working]
  have unclosed : Open (history ++ [.call (.subscribe watcher id request) (some subscription)] ++
      [.call (.unsubscribe old) ()]) := opened.snoc False.elim
  refine
    { sane := both.snoc [subscription] trivial ?_ (.inl (Nat.le_refl 1))
        (fun closed => absurd unclosed closed) (fun _ => ?_) ?_
      asked := ?_, closers := ?_, waiting := ?_, held := ?_, working := ?_, unclosed }
  · simpa [Deed.obtains?, Deed.givesUp?] using owned.append_right [subscription]
  · simp [Deed.calls?, Deed.heard, account.waiting]
  · simp [Deed.setsOut, Deed.handles, account.working]
  · simp [Deed.asksForClose, Deed.seesDrop, Deed.heard, account.asked]
  · simp [Deed.heard, account.closers]
  · simp [Deed.calls?, Deed.heard, account.waiting]
  · simpa [Deed.obtains?, Deed.givesUp?] using owned.append_right [subscription]
  · simp [Deed.setsOut, Deed.handles, account.working]

end Subscriptions

end Account

/-! ## Closing a session -/

/-- A history in which the session was shut, while no subscription was open and no run under
way. -/
structure Settled (session : SessionId) (history : History S) : Prop where
  sane : Sane session history
  level : (obtained history).Perm (givenUp history)
  idle : begun history = handled history
  shut : ¬ Open history

section Settled

variable {session : SessionId} {compiler : CompilerId} {dues : Dues S} {history more : History S}
  {deed : Deed S}

theorem not_open_append (closed : ¬ Open history) : ¬ Open (history ++ more) :=
  fun opened => closed opened.of_append

/-- The session is shut. -/
theorem Account.shut (account : Account session dues history) (asked : dues.closing = true)
    (unheld : dues.held = none) (resting : dues.working = false) (left : List (Signal S)) :
    Settled session (history ++ [.op (.shut session) left]) := by
  have shut : ¬ Open (history ++ [.op (.shut session) left]) :=
    fun opened => opened _ (List.mem_append_right _ (.head _)) trivial
  have level : (obtained (history ++ [.op (.shut session) left])).Perm
      (givenUp (history ++ [.op (.shut session) left])) := by
    simpa [Deed.obtains?, Deed.givesUp?, unheld] using account.held
  have idle : begun (history ++ [.op (.shut session) left]) =
      handled (history ++ [.op (.shut session) left]) := by
    simpa [Deed.setsOut, Deed.handles, resting] using account.working
  refine ⟨account.sane.snoc [] (account.asked.trans asked) ?_ (.inl (Nat.zero_le 1))
    (fun _ => rfl) (fun opened => absurd opened shut) (Nat.le_of_eq idle.symm), level, idle, shut⟩
  rwa [List.append_nil]

variable (deed) in
/-- A deed after the session was shut. -/
theorem Settled.step (settled : Settled session history) (right : Right session history deed)
    (level : deed.obtains? = none ∧ deed.givesUp? = none)
    (still : deed.setsOut = false ∧ deed.handles = false) :
    Settled session (history ++ [deed]) := by
  have shut : ¬ Open (history ++ [deed]) := not_open_append settled.shut
  have levelled : (obtained (history ++ [deed])).Perm (givenUp (history ++ [deed])) := by
    simpa [level.1, level.2] using settled.level
  have idle : begun (history ++ [deed]) = handled (history ++ [deed]) := by
    simpa [still.1, still.2] using settled.idle
  refine ⟨settled.sane.snoc [] right ?_ (.inl (Nat.zero_le 1)) (fun _ => rfl)
    (fun opened => absurd opened shut) (Nat.le_of_eq idle.symm), levelled, idle, shut⟩
  rwa [List.append_nil]

/-- Observers are called after the session was shut, at the right moment for each of them. -/
theorem Settled.tells {occasion : Occasion} (settled : Settled session history)
    (right : ∀ earlier, (∀ deed ∈ earlier, deed.Tells compiler occasion) →
      Settled session (history ++ earlier) → ∀ observer reply,
      Right session (history ++ earlier) (.call (.observe compiler observer occasion) reply))
    (told : ∀ deed ∈ more, deed.Tells compiler occasion) : Settled session (history ++ more) := by
  induction more using List.reverseRecOn with
  | nil => rwa [List.append_nil]
  | append_singleton earlier deed ih =>
      have early : ∀ deed ∈ earlier, deed.Tells compiler occasion :=
        fun other member => told other (List.mem_append_left _ member)
      have last := told deed (List.mem_append_right _ (.head _))
      have before := ih early
      rw [← List.append_assoc]
      cases deed with
      | op operation reply =>
          obtain rfl : operation = .look compiler := last
          exact before.step _ trivial ⟨rfl, rfl⟩ ⟨rfl, rfl⟩
      | call outside reply =>
          obtain ⟨observer, rfl⟩ : ∃ observer, outside = .observe compiler observer occasion := last
          exact before.step _ (right earlier early before observer reply) ⟨rfl, rfl⟩ ⟨rfl, rfl⟩
      | request => exact last.elim

/-- Callbacks are called after `watch_close` has fired. -/
theorem Settled.dismiss {rest : History S} (settled : Settled session (history ++ rest))
    (dismisses : ∀ rest, (∀ deed ∈ rest, deed.calls?.isSome = true) →
      Dismisses session (history ++ rest))
    (called : ∀ deed ∈ rest, deed.calls?.isSome = true) (callbacks : List S.Callback) :
    Settled session (history ++ rest ++
      callbacks.map fun callback => .call (.notify callback) ()) := by
  induction callbacks generalizing rest with
  | nil => rwa [List.map_nil, List.append_nil]
  | cons callback callbacks ih =>
      have next : Settled session (history ++ (rest ++ [.call (.notify callback) ()])) := by
        rw [← List.append_assoc]
        exact settled.step _ (.inr (dismisses rest called)) ⟨rfl, rfl⟩ ⟨rfl, rfl⟩
      rw [List.map_cons, List.append_cons, List.append_assoc history]
      refine ih next fun deed member => ?_
      rcases List.mem_append.mp member with member | member
      · exact called deed member
      · rw [List.mem_singleton.mp member]
        rfl

/-- The driver closes its session. -/
theorem Account.closes {left : List (Signal S)} {ended : Bool} {fired : History S}
    {ending : HookResult Unit Empty} (account : Account session dues history)
    (asked : dues.closing = true) (resting : dues.working = false)
    (fires : Fires compiler .watchClose (Told compiler .watchClose) () fired ending)
    (told : ∀ deed ∈ fired, deed.Tells compiler .watchClose) :
    let closed := history ++ closeSequence session compiler dues.held left ended fired
      (dues.closers ++ left.filterMap Signal.closer? ++
        (dues.waiting ++ left.filterMap Signal.invalidator?))
    Settled session closed ∧ Closed session compiler closed := by
  constructor
  · have given : Account session { dues with held := none }
        (history ++
          dues.held.toList.map fun subscription => .call (.unsubscribe subscription) ()) := by
      cases held : dues.held with
      | none =>
          rw [Option.toList_none, List.map_nil, List.append_nil, ← held]
          exact account
      | some subscription => exact account.giveUp held
    have shut := given.shut asked rfl resting left
    have ends := shut.step (.op (.shift compiler .endWatch) ended) trivial ⟨rfl, rfl⟩
      ⟨rfl, rfl⟩
    have watched := ends.tells (by exact fun _ _ settled _ _ => settled.idle) told
    have ready := (List.append_nil (_ ++ fired)).symm ▸ watched
    have dismissed := ready.dismiss (fun rest called =>
      ⟨history ++ dues.held.toList.map fun subscription => .call (.unsubscribe subscription) (),
        left, compiler, ended, fired, ending, rest, by simp, fires, called⟩) (by simp)
    have all := dismissed (dues.closers ++ left.filterMap Signal.closer? ++
      (dues.waiting ++ left.filterMap Signal.invalidator?))
    simpa [closeSequence] using all
  · refine ⟨history, dues.held, left, ended, fired, ending,
      dues.waiting ++ left.filterMap Signal.invalidator?, [], ?_, fires, ?_, account.unclosed,
      rest_nil⟩
    · rw [account.closers, List.append_nil]
    · rw [account.waiting, List.append_assoc]

/-- The last observers of a run are called after its session was closed. -/
theorem Settled.afterDone {finished : Option Compilation} (settled : Settled session history)
    (closed : Closed session compiler history)
    (told : ∀ deed ∈ more, deed.Tells compiler (.afterDone finished)) :
    Settled session (history ++ more) ∧ Closed session compiler (history ++ more) := by
  have stays : ∀ {more : History S}, (∀ deed ∈ more, deed.Tells compiler (.afterDone finished)) →
      Closed session compiler (history ++ more) := by
    intro more told
    refine closed.append fun deed member => ?_
    have silent := silent_tells (told deed member)
    refine ⟨fun closes => ?_, silent.heard, silent.calls⟩
    have kind := told deed member
    cases deed with
    | op operation reply =>
        obtain rfl : operation = .look compiler := kind
        exact closes
    | call outside reply =>
        obtain ⟨observer, rfl⟩ : ∃ observer, outside = .observe compiler observer _ := kind
        exact closes
    | request => exact kind.elim
  exact ⟨settled.tells (fun earlier early _ _ _ _ => stays early) told, stays told⟩

end Settled

end History

/-! ## The turns of a driver -/

open History

/-- What a driver has yet to do for its session. -/
def dues (driver : Driver S) : Dues S :=
  ⟨driver.closing, driver.closeCallbacks, driver.pendingCallbacks, driver.subscription, false⟩

/-- A driver of the same session at a later moment. -/
structure Follows (driver other : Driver S) : Prop where
  session : other.session = driver.session
  compiler : other.compiler = driver.compiler

/-- What is known of the history of a driver between two of its turns. -/
abbrev Keeps (driver : Driver S) (history : History S) : Prop :=
  Account driver.session (dues driver) history

section Turns

variable {driver other : Driver S} {history deeds : History S} {next : Next S}

theorem Follows.refl (driver : Driver S) : Follows driver driver := ⟨rfl, rfl⟩

theorem Follows.trans {last : Driver S} (first : Follows driver other)
    (second : Follows other last) : Follows driver last :=
  ⟨second.session.trans first.session, second.compiler.trans first.compiler⟩

/-- A deed that no account is kept of changes none, and is right at any moment. -/
theorem aside_right {deed : Deed S} (aside : deed.Within Op.Aside Call.Aside) :
    Silent deed ∧ ¬ deed.Closes ∧ (∀ session earlier, Right session earlier deed) ∧
      ¬ deed.EndsRun := by
  cases deed with
  | op operation reply =>
      cases operation with
      | await | takeSignals | shut | acquire | release => exact aside.elim
      | spawn job =>
          cases job with
          | watchPhases => exact aside.elim
          | _ => exact ⟨⟨rfl, rfl, rfl, rfl, rfl, rfl, rfl⟩, id, fun _ _ => trivial, id⟩
      | shift compiler transition =>
          cases transition with
          | endWatch => exact aside.elim
          | _ => exact ⟨⟨rfl, rfl, rfl, rfl, rfl, rfl, rfl⟩, id, fun _ _ => trivial, id⟩
      | _ => exact ⟨⟨rfl, rfl, rfl, rfl, rfl, rfl, rfl⟩, id, fun _ _ => trivial, id⟩
  | call outside reply =>
      cases outside with
      | subscribe | unsubscribe | handle | notify => exact aside.elim
      | observe compiler observer occasion =>
          cases occasion with
          | watchClose | afterDone => exact aside.elim
          | _ => exact ⟨⟨rfl, rfl, rfl, rfl, rfl, rfl, rfl⟩, id, fun _ _ => trivial, id⟩
      | _ => exact ⟨⟨rfl, rfl, rfl, rfl, rfl, rfl, rfl⟩, id, fun _ _ => trivial, id⟩
  | request => exact aside.elim

/-- Deeds that change no account of a driver. -/
theorem keeps_aside {session : SessionId} {dues : Dues S} {more : History S}
    (account : Account session dues history)
    (aside : ∀ deed ∈ more, deed.Within Op.Aside Call.Aside) :
    Account session dues (history ++ more) :=
  account.aside fun deed member =>
    ⟨(aside_right (aside deed member)).1, (aside_right (aside deed member)).2.1,
      fun _ => (aside_right (aside deed member)).2.2.1 _ _⟩

theorem tells_of_tell {compiler : CompilerId} {occasion : Occasion} {value : Unit}
    (play : (tell compiler occasion).Play deeds value) :
    ∀ deed ∈ deeds, deed.Tells compiler occasion := by
  have within : (tell compiler occasion : Prog S Unit).Within
      (fun operation => operation = .look compiler)
      fun outside => ∃ observer, outside = .observe compiler observer occasion :=
    within_tell rfl fun observer => ⟨observer, rfl⟩
  exact within.play play

/-- Signals add to the dues of a driver, and change nothing else. -/
theorem foldl_onSignal (signals : List (Signal S)) (driver : Driver S) :
    Follows driver (signals.foldl onSignal driver) ∧
      dues (signals.foldl onSignal driver) = { dues driver with
        closing := driver.closing || signals.any fun signal => signal.closer?.isSome
        closers := driver.closeCallbacks ++ signals.filterMap Signal.closer?
        waiting := driver.pendingCallbacks ++ signals.filterMap Signal.invalidator? } := by
  induction signals generalizing driver with
  | nil => exact ⟨.refl driver, by simp [dues]⟩
  | cons signal rest ih =>
      obtain ⟨follows, comes⟩ := ih (onSignal driver signal)
      rw [List.foldl_cons, comes]
      cases signal with
      | invalidate callback =>
          refine ⟨⟨follows.session, follows.compiler⟩, ?_⟩
          simp [dues, onSignal, Signal.closer?, Signal.invalidator?, List.filterMap_cons]
      | close callback =>
          refine ⟨⟨follows.session, follows.compiler⟩, ?_⟩
          simp [dues, onSignal, Signal.closer?, Signal.invalidator?, List.filterMap_cons]

/-- The driver takes what signals there are. -/
theorem Keeps.takes (keeps : Keeps driver history) (id : SessionId) (signals : List (Signal S))
    (gone : Bool) :
    let other := { signals.foldl onSignal driver with
      closing := (signals.foldl onSignal driver).closing || gone }
    Keeps other (history ++ [.op (.takeSignals id) (signals, gone)]) ∧ Follows driver other := by
  obtain ⟨follows, comes⟩ := foldl_onSignal signals driver
  have hears := keeps.hear (.op (.takeSignals id) (signals, gone)) trivial False.elim
    rfl ⟨rfl, rfl⟩ ⟨rfl, rfl⟩
  refine ⟨?_, follows.session, follows.compiler⟩
  have closing := congrArg Dues.closing comes
  have rest : dues { signals.foldl onSignal driver with
      closing := (signals.foldl onSignal driver).closing || gone } =
      { dues (signals.foldl onSignal driver) with
        closing := (signals.foldl onSignal driver).closing || gone } := rfl
  rw [Keeps, rest, comes, show (signals.foldl onSignal driver).closing = _ from closing,
    show (signals.foldl onSignal driver).session = _ from follows.session]
  simpa [Deed.asksForClose, Deed.seesDrop, Deed.heard, Bool.or_assoc, Bool.or_comm gone, dues]
    using hears

/-- Observers are told of changes, which are no part of a close. -/
theorem Keeps.onChanges {changes : ChangeSet} (keeps : Keeps driver history)
    (play : (onChanges driver changes).Play deeds other) :
    Keeps other (history ++ deeds) ∧ Follows driver other := by
  have tells : ∀ paths : List Path,
      (tellInvalid driver.compiler paths : Prog S Unit).Within Op.Aside Call.Aside := by
    intro paths
    induction paths with
    | nil => exact .pure _
    | cons path rest ih =>
        rw [tellInvalid]
        exact (within_tell trivial fun _ => trivial).bind fun _ => ih
  rw [Compiler.onChanges] at play
  split at play
  · obtain ⟨rfl, rfl⟩ := Prog.play_pure.mp play
    rw [List.append_nil]
    exact ⟨keeps, .refl _⟩
  · obtain ⟨told, _, _, telling, returned, rfl⟩ := Prog.play_bind.mp play
    obtain ⟨rfl, rfl⟩ := Prog.play_pure.mp returned
    rw [List.append_nil]
    exact ⟨keeps_aside keeps ((tells _).play telling), rfl, rfl⟩

/-- What wakes a driver may be the wish for a close. -/
theorem Keeps.awaitEvent (keeps : Keeps driver history)
    (play : (awaitEvent driver).Play deeds other) :
    Keeps other (history ++ deeds) ∧ Follows driver other := by
  rw [Compiler.awaitEvent] at play
  split at play
  · obtain ⟨rfl, rfl⟩ := Prog.play_pure.mp play
    rw [List.append_nil]
    exact ⟨keeps, .refl _⟩
  · obtain ⟨wake, rest, woken, rfl⟩ := Prog.play_perform_bind.mp play
    have woke : Account driver.session { dues driver with
          closing := driver.closing || asked [.op (.await driver.session) wake]
          closers := driver.closeCallbacks ++ closers [.op (.await driver.session) wake]
          waiting := driver.pendingCallbacks ++ invalidators [.op (.await driver.session) wake] }
        (history ++ [.op (.await driver.session) wake]) := by
      refine keeps.hear _ trivial False.elim rfl ⟨rfl, rfl⟩ ⟨rfl, rfl⟩
    cases wake with
    | signal signal =>
        obtain ⟨rfl, rfl⟩ := Prog.play_pure.mp woken
        cases signal <;>
          exact ⟨by simpa [Keeps, dues, onSignal, Deed.asksForClose, Deed.seesDrop, Deed.heard,
            Signal.closer?, Signal.invalidator?, List.filterMap_cons] using woke, rfl, rfl⟩
    | changes changes =>
        have kept : Keeps driver (history ++ [.op (.await driver.session) (.changes changes)]) := by
          simpa [Keeps, dues, Deed.asksForClose, Deed.seesDrop, Deed.heard] using woke
        rw [List.append_cons]
        exact kept.onChanges woken
    | gone =>
        obtain ⟨rfl, rfl⟩ := Prog.play_pure.mp woken
        exact ⟨by simpa [Keeps, dues, Deed.asksForClose, Deed.seesDrop, Deed.heard] using woke,
          rfl, rfl⟩

theorem aside_tellFailure (compiler : CompilerId) (result : RunResult) :
    (tellFailure compiler result : Prog S Unit).Within Op.Aside Call.Aside := by
  cases result with
  | ok compilation => exact .pure _
  | error error => exact within_tell trivial fun _ => trivial

theorem aside_prepareChanges (driver : Driver S) :
    (prepareChanges driver).Within Op.Aside Call.Aside := by
  rw [prepareChanges]
  split
  · refine (Prog.Within.look trivial).bind fun record => ?_
    exact (Prog.Within.invoke trivial).bind fun _ => .perform trivial
  · exact .pure _

theorem play_notifyAll {callbacks : List S.Callback} {value : Unit}
    (play : (notifyAll callbacks).Play deeds value) :
    deeds = callbacks.map fun callback => .call (.notify callback) () := by
  induction callbacks generalizing deeds with
  | nil =>
      obtain ⟨rfl, -⟩ := Prog.play_pure.mp play
      rfl
  | cons callback rest ih =>
      obtain ⟨_, others, notified, rfl⟩ := Prog.play_invoke_bind.mp play
      rw [ih notified, List.map_cons]

/-- A run begins only if nobody has asked for a close, and calls the callbacks that waited for
it after the handler. -/
theorem Keeps.watchRun {value : Option Compilation × Driver S} (keeps : Keeps driver history)
    (unasked : driver.closing = false) (play : (watchRun driver).Play deeds value) :
    Keeps value.2 (history ++ deeds) ∧ Follows driver value.2 := by
  rw [watchRun_eq] at play
  obtain ⟨⟨⟩, _, begun, rfl⟩ := Prog.play_perform_bind.mp play
  obtain ⟨early, _, _, prepared, body, rfl⟩ := Prog.play_bind.mp begun
  obtain ⟨⟨⟩, _, changed, rfl⟩ := Prog.play_perform_bind.mp body
  obtain ⟨shift, _, shifted, rfl⟩ := Prog.play_perform_bind.mp changed
  obtain ⟨worker, _, spawned, rfl⟩ := Prog.play_perform_bind.mp shifted
  obtain ⟨result, _, joined, rfl⟩ := Prog.play_perform_bind.mp spawned
  obtain ⟨ended, _, joinedAt, rfl⟩ := Prog.play_perform_bind.mp joined
  obtain ⟨failure, _, _, tells, told, rfl⟩ := Prog.play_bind.mp joinedAt
  obtain ⟨⟨⟩, _, handled, rfl⟩ := Prog.play_invoke_bind.mp told
  obtain ⟨callbacks, _, _, notified, returned, rfl⟩ := Prog.play_bind.mp handled
  obtain ⟨rfl, rfl⟩ := Prog.play_pure.mp returned
  rw [play_notifyAll notified]
  refine ⟨?_, rfl, rfl⟩
  -- Up to the phases, and from them to the handler, no account changes.
  obtain ⟨before, earlier, ready⟩ : ∃ before, before = history ++
      (.op (.acquire driver.compiler) () :: early ++
        [.op (.setChanges driver.compiler driver.pendingChanges) (),
          .op (.shift driver.compiler .beginWatchRun) shift]) ∧ Keeps driver before := by
    have acquired := keeps.acquire unasked driver.compiler
    have prepared := keeps_aside acquired ((aside_prepareChanges driver).play prepared)
    have changes : ∀ deed ∈ ([.op (.setChanges driver.compiler driver.pendingChanges) (),
        .op (.shift driver.compiler .beginWatchRun) shift] : History S),
        deed.Within Op.Aside Call.Aside := by simp [Deed.Within, Op.Aside]
    have changed := keeps_aside prepared changes
    exact ⟨_, rfl, by simpa using changed⟩
  obtain ⟨during, phases, aside⟩ : ∃ during, during = .op (.join worker) result ::
      .op (.shift driver.compiler .endWatchRun) ended :: failure ∧
      ∀ deed ∈ during, deed.Within Op.Aside Call.Aside := by
    have failures := (aside_tellFailure driver.compiler result).play tells
    exact ⟨_, rfl, by simpa [Deed.Within, Op.Aside] using failures⟩
  have working := keeps_aside (ready.setOut rfl driver.compiler worker) aside
  have handed := working.handle rfl driver.handler result
  have run : before ++ [.op (.spawn (.watchPhases driver.compiler)) worker] ++ during ++
      [.call (.handle driver.handler result) ()] =
      before ++ .op (.spawn (.watchPhases driver.compiler)) worker ::
        (during ++ [.call (.handle driver.handler result) ()]) := by simp
  have unfinished : ∀ deed ∈ during ++ [.call (.handle driver.handler result) ()],
      ¬ deed.EndsRun := by
    intro deed member
    rcases List.mem_append.mp member with member | member
    · exact (aside_right (aside deed member)).2.2.2
    · rw [List.mem_singleton.mp member]
      exact id
  have silent : ∀ deed ∈ during, Silent deed :=
    fun deed member => (aside_right (aside deed member)).1
  have due : (called (before ++ [.op (.spawn (.watchPhases driver.compiler)) worker] ++ during ++
      [.call (.handle driver.handler result) ()])).length + driver.pendingCallbacks.length ≤
      (invalidators before).length := by
    simp [ready.waiting, (quiet_of_silent silent).1, Deed.calls?, dues]
  have still := (quiet_of_silent silent).2
  have calls := handed.notify (List.append_nil _).symm run (by simp [still.1, Deed.setsOut])
    (by simp [still.2, Deed.handles]) unfinished due
  have ended : dues { driver with
      pendingChanges := ChangeSet.empty, pendingCallbacks := [], runRequested := false } =
      { dues driver with waiting := [], working := false } := rfl
  rw [Keeps, ended]
  simpa [earlier, phases, dues] using calls

/-- The old subscription is closed when there is a new one. -/
theorem Keeps.resubscribe {compilation : Compilation} (keeps : Keeps driver history)
    (play : (resubscribe driver compilation).Play deeds other) :
    Keeps other (history ++ deeds) ∧ Follows driver other ∧ other.closing = driver.closing := by
  obtain ⟨record, _, looked, rfl⟩ := Prog.play_look_bind.mp play
  obtain ⟨reply, _, subscribed, rfl⟩ := Prog.play_invoke_bind.mp looked
  have looks : Keeps driver (history ++ [.op (.look driver.compiler) record]) :=
    keeps.quiet _ trivial False.elim (silent_look _ _)
  rw [List.append_cons]
  cases reply with
  | none =>
      obtain ⟨rfl, rfl⟩ := Prog.play_pure.mp subscribed
      exact ⟨looks.refused, .refl _, rfl⟩
  | some subscription =>
      cases held : driver.subscription with
      | none =>
          simp only [held] at subscribed
          obtain ⟨rfl, rfl⟩ := Prog.play_pure.mp subscribed
          exact ⟨looks.subscribe held, ⟨rfl, rfl⟩, rfl⟩
      | some old =>
          simp only [held] at subscribed
          obtain ⟨_, _, given, rfl⟩ := Prog.play_invoke_bind.mp subscribed
          obtain ⟨rfl, rfl⟩ := Prog.play_pure.mp given
          rw [List.append_cons]
          exact ⟨looks.exchange held, ⟨rfl, rfl⟩, rfl⟩

/-- What a driver does to close its session. -/
theorem closeSequence_of_closeNow (play : (closeNow driver).Play deeds other) :
    ∃ left ended fired ending, deeds = closeSequence driver.session driver.compiler
        driver.subscription left ended fired
        (driver.closeCallbacks ++ left.filterMap Signal.closer? ++
          (driver.pendingCallbacks ++ left.filterMap Signal.invalidator?)) ∧
      Fires driver.compiler .watchClose (Told driver.compiler .watchClose) () fired ending ∧
      (∀ deed ∈ fired, deed.Tells driver.compiler .watchClose) ∧ Follows driver other := by
  have shuts : ∀ {rest}, Prog.Play (do
      let left ← Prog.perform (.shut driver.session)
      let driver := left.foldl onSignal driver
      let _ ← Prog.perform (.shift driver.compiler .endWatch)
      tell driver.compiler .watchClose
      notifyAll driver.closeCallbacks
      notifyAll driver.pendingCallbacks
      return { driver with subscription := none, closeCallbacks := [], pendingCallbacks := [] })
      rest other → ∃ left ended fired ending,
        rest = closeSequence driver.session driver.compiler none left ended fired
          (driver.closeCallbacks ++ left.filterMap Signal.closer? ++
            (driver.pendingCallbacks ++ left.filterMap Signal.invalidator?)) ∧
        Fires driver.compiler .watchClose (Told driver.compiler .watchClose) () fired ending ∧
        (∀ deed ∈ fired, deed.Tells driver.compiler .watchClose) ∧ Follows driver other := by
    intro rest play
    obtain ⟨left, _, taken, rfl⟩ := Prog.play_perform_bind.mp play
    obtain ⟨ended, _, shifted, rfl⟩ := Prog.play_perform_bind.mp taken
    obtain ⟨fired, _, _, told, closed, rfl⟩ := Prog.play_bind.mp shifted
    obtain ⟨_, _, _, closers, waited, rfl⟩ := Prog.play_bind.mp closed
    obtain ⟨_, _, _, waiting, returned, rfl⟩ := Prog.play_bind.mp waited
    obtain ⟨rfl, rfl⟩ := Prog.play_pure.mp returned
    obtain ⟨follows, comes⟩ := foldl_onSignal left driver
    have sameClosers : (left.foldl onSignal driver).closeCallbacks = _ :=
      congrArg Dues.closers comes
    have sameWaiting : (left.foldl onSignal driver).pendingCallbacks = _ :=
      congrArg Dues.waiting comes
    rw [follows.compiler] at told
    obtain ⟨ending, fires⟩ := fires_of_tell told
    refine ⟨left, ended, fired, ending, ?_, fires, tells_of_tell told, follows.session,
      follows.compiler⟩
    rw [play_notifyAll closers, play_notifyAll waiting, sameClosers, sameWaiting, follows.compiler]
    simp [closeSequence]
  rw [closeNow] at play
  cases held : driver.subscription with
  | none =>
      rw [held] at play
      exact shuts play
  | some subscription =>
      rw [held] at play
      obtain ⟨_, _, unsubscribed, rfl⟩ := Prog.play_invoke_bind.mp play
      obtain ⟨left, ended, fired, ending, rfl, rest⟩ := shuts unsubscribed
      exact ⟨left, ended, fired, ending, rfl, rest⟩

/-- A driver that was asked for a close closes its session. -/
theorem Keeps.closeNow (keeps : Keeps driver history) (asks : driver.closing = true)
    (play : (closeNow driver).Play deeds other) :
    Settled driver.session (history ++ deeds) ∧
      Closed driver.session driver.compiler (history ++ deeds) ∧ Follows driver other := by
  obtain ⟨left, ended, fired, ending, rfl, fires, told, follows⟩ := closeSequence_of_closeNow play
  obtain ⟨settled, closed⟩ := keeps.closes asks rfl fires told
  exact ⟨settled, closed, follows⟩

/-- Observers are told of the end of a run while nobody has asked for a close. -/
theorem Keeps.toldDone {finished : Option Compilation} (keeps : Keeps driver history)
    (unasked : driver.closing = false)
    (told : ∀ deed ∈ deeds, deed.Tells driver.compiler (.afterDone finished)) :
    Keeps driver (history ++ deeds) := by
  induction deeds using List.reverseRecOn with
  | nil => rwa [List.append_nil]
  | append_singleton earlier deed ih =>
      have before := ih fun other member => told other (List.mem_append_left _ member)
      have last := told deed (List.mem_append_right _ (.head _))
      rw [← List.append_assoc]
      cases deed with
      | op operation reply =>
          obtain rfl : operation = .look driver.compiler := last
          exact before.quiet _ trivial False.elim (silent_look _ _)
      | call outside reply =>
          obtain ⟨observer, rfl⟩ :
            ∃ observer, outside = .observe driver.compiler observer (.afterDone finished) := last
          refine before.quiet _ (fun sought => ?_) False.elim (silent_observe ..)
          exact nomatch (sought.symm.trans before.asked).trans unasked
      | request => exact last.elim

/-- What a turn has come to: the driver goes on, or its session is closed. -/
def Turned (driver : Driver S) (history : History S) : Next S → Prop
  | some (.drive _ other) => Keeps other history ∧ Follows driver other
  | some _ => False
  | none => Settled driver.session history ∧ Closed driver.session driver.compiler history

/-- A deed that changes no account, after the session was closed. -/
theorem History.Settled.ends {session : SessionId} {compiler : CompilerId}
    (settled : Settled session history) (closed : Closed session compiler history) (deed : Deed S)
    (right : Right session history deed) (open_ : ¬ deed.Closes) (silent : Silent deed) :
    Settled session (history ++ [deed]) ∧ Closed session compiler (history ++ [deed]) := by
  refine ⟨settled.step _ right ⟨silent.obtains, silent.givesUp⟩ ⟨silent.setsOut, silent.handles⟩,
    closed.append fun other member => ?_⟩
  rw [List.mem_singleton.mp member]
  exact ⟨open_, silent.heard, silent.calls⟩

/-- Between two runs, when everything queued was taken. -/
theorem Keeps.decideNext (keeps : Keeps driver history)
    (play : (decideNext driver).Play deeds next) : Turned driver (history ++ deeds) next := by
  rw [Compiler.decideNext] at play
  split at play
  next asks =>
    obtain ⟨_, closed, _, closing, retired, rfl⟩ := Prog.play_bind.mp play
    obtain ⟨_, _, returned, rfl⟩ := Prog.play_perform_bind.mp retired
    obtain ⟨rfl, rfl⟩ := Prog.play_pure.mp returned
    obtain ⟨settled, shut, -⟩ := keeps.closeNow asks closing
    rw [← List.append_assoc]
    exact settled.ends shut _ trivial id ⟨rfl, rfl, rfl, rfl, rfl, rfl, rfl⟩
  next asks =>
    split at play
    · obtain ⟨_, ⟨finished, ran⟩, _, running, after, rfl⟩ := Prog.play_bind.mp play
      obtain ⟨⟨signals, gone⟩, _, taken, rfl⟩ := Prog.play_perform_bind.mp after
      obtain ⟨rfl, rfl⟩ := Prog.play_pure.mp taken
      obtain ⟨kept, follows⟩ := keeps.watchRun (Bool.eq_false_iff.mpr asks) running
      obtain ⟨takes, later⟩ := kept.takes ran.session signals gone
      rw [← List.append_assoc]
      exact ⟨takes, follows.trans later⟩
    · obtain ⟨rfl, rfl⟩ := Prog.play_pure.mp play
      rw [List.append_nil]
      exact ⟨keeps, .refl _⟩

/-- After a run, when everything queued was taken. -/
theorem Keeps.endRun {finished : Option Compilation} (keeps : Keeps driver history)
    (play : (endRun finished driver).Play deeds next) : Turned driver (history ++ deeds) next := by
  simp only [Compiler.endRun] at play
  have goesOn : ∀ {earlier middle later}, Keeps middle (history ++ earlier) →
      middle.closing = false → Follows driver middle →
      Prog.Play (do
        tell middle.compiler (.afterDone finished)
        Prog.perform (.release middle.compiler)
        return some (.drive .waiting middle)) later next →
      Turned driver (history ++ (earlier ++ later)) next := by
    intro earlier middle later kept unasked follows play
    obtain ⟨_, _, _, told, released, rfl⟩ := Prog.play_bind.mp play
    obtain ⟨_, _, returned, rfl⟩ := Prog.play_perform_bind.mp released
    obtain ⟨rfl, rfl⟩ := Prog.play_pure.mp returned
    have past := kept.toldDone unasked (tells_of_tell told)
    have free := past.quiet (.op (.release middle.compiler) ()) trivial id
      ⟨rfl, rfl, rfl, rfl, rfl, rfl, rfl⟩
    exact ⟨by simpa using free, follows⟩
  split at play
  next asks =>
    obtain ⟨_, closed, _, closing, after, rfl⟩ := Prog.play_bind.mp play
    obtain ⟨_, _, _, told, released, rfl⟩ := Prog.play_bind.mp after
    obtain ⟨_, _, retired, rfl⟩ := Prog.play_perform_bind.mp released
    obtain ⟨_, _, returned, rfl⟩ := Prog.play_perform_bind.mp retired
    obtain ⟨rfl, rfl⟩ := Prog.play_pure.mp returned
    obtain ⟨settled, shut, follows⟩ := keeps.closeNow asks closing
    rw [follows.compiler] at told
    obtain ⟨settled, shut⟩ := settled.afterDone shut (tells_of_tell told)
    obtain ⟨settled, shut⟩ := settled.ends shut (.op (.release closed.compiler) ())
      trivial id ⟨rfl, rfl, rfl, rfl, rfl, rfl, rfl⟩
    obtain ⟨settled, shut⟩ := settled.ends shut (.op (.leave closed.session) ())
      trivial id ⟨rfl, rfl, rfl, rfl, rfl, rfl, rfl⟩
    exact ⟨by simpa using settled, by simpa using shut⟩
  next asks =>
    have unasked := Bool.eq_false_iff.mpr asks
    cases finished with
    | none =>
        have kept : Keeps driver (history ++ []) := by rwa [List.append_nil]
        exact goesOn kept unasked (.refl driver) play
    | some compilation =>
        obtain ⟨_, middle, _, subscribing, after, rfl⟩ := Prog.play_bind.mp play
        obtain ⟨kept, follows, closing⟩ := keeps.resubscribe subscribing
        exact goesOn kept (closing.trans unasked) follows after

/-- One turn of a driver. -/
theorem Keeps.turn {stage : DriverStage} (keeps : Keeps driver history)
    (play : (drive stage driver).Play deeds next) : Turned driver (history ++ deeds) next := by
  have drained : ∀ taken, Keeps driver (history ++ [.op (.takeChanges driver.session) taken]) :=
    fun taken => keeps_aside keeps (by simp [Deed.Within, Op.Aside])
  cases stage with
  | waiting =>
      obtain ⟨_, woken, _, awaited, taking, rfl⟩ := Prog.play_bind.mp play
      obtain ⟨⟨signals, gone⟩, _, taken, rfl⟩ := Prog.play_perform_bind.mp taking
      obtain ⟨rfl, rfl⟩ := Prog.play_pure.mp taken
      obtain ⟨kept, follows⟩ := keeps.awaitEvent awaited
      obtain ⟨takes, later⟩ := kept.takes woken.session signals gone
      rw [← List.append_assoc]
      exact ⟨takes, follows.trans later⟩
  | draining =>
      obtain ⟨taken, others, went, rfl⟩ := Prog.play_perform_bind.mp play
      rw [List.append_cons]
      cases taken with
      | some changes =>
          obtain ⟨other, changed, rfl⟩ := Prog.play_map.mp went
          exact (drained _).onChanges changed
      | none => exact (drained _).decideNext went
  | drainingAfter finished =>
      obtain ⟨taken, others, went, rfl⟩ := Prog.play_perform_bind.mp play
      rw [List.append_cons]
      cases taken with
      | some changes =>
          obtain ⟨other, changed, rfl⟩ := Prog.play_map.mp went
          exact (drained _).onChanges changed
      | none => exact (drained _).endRun went

end Turns

/-! ## The whole history -/

/-- The history of a driver that has this program left: everything in it is right, it closes
nothing or is the beginning of one with a close sequence, and of all of that if the driver is
over. -/
structure Closing (session : SessionId) (compiler : CompilerId) (history : History S)
    (left : Prog S (Next S)) : Prop where
  sane : Sane session history
  once : Open history ∨ ∃ more, Closed session compiler (history ++ more)
  complete : left = .done none → Closed session compiler history

section Whole

variable {driver : Driver S} {stage : DriverStage} {history deeds : History S}
  {left : Prog S (Next S)} {next : Next S}

theorem Turned.closing {more : History S} (turned : Turned driver (history ++ more) next) :
    Sane driver.session history ∧
      (Open history ∨ ∃ more, Closed driver.session driver.compiler (history ++ more)) := by
  match next, turned with
  | some (.drive _ other), ⟨kept, follows⟩ =>
      exact ⟨(follows.session ▸ kept.sane).of_append, .inl kept.unclosed.of_append⟩
  | none, ⟨settled, closed⟩ => exact ⟨settled.sane.of_append, .inr ⟨more, closed⟩⟩

theorem closing_of_course (course : Course (.drive stage driver) deeds left)
    (keeps : Keeps driver history) :
    Closing driver.session driver.compiler (history ++ deeds) left := by
  generalize start : Job.drive stage driver = job at course
  induction course generalizing stage driver history with
  | within path =>
      obtain rfl := start.symm
      obtain ⟨more, next, play⟩ := ((ofJobs_drive stage driver).path path).1.exists_play
      have turned := keeps.turn (path.play play)
      rw [← List.append_assoc] at turned
      obtain ⟨sane, once⟩ := turned.closing
      refine ⟨sane, once, fun gone => ?_⟩
      subst gone
      exact (keeps.turn path.play_of_done).2
  | @turn _ following first rest _ play later ih =>
      obtain rfl := start.symm
      have turned := keeps.turn play
      rw [← List.append_assoc]
      cases following with
      | drive _ other =>
          obtain ⟨kept, follows⟩ := turned
          have closing := ih kept rfl
          rwa [follows.session, follows.compiler] at closing
      | run | phases | watchPhases => exact turned.elim

end Whole

end Bundler.Compiler
