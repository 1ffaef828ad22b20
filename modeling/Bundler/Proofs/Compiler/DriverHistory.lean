import Bundler.Proofs.Compiler.SessionHistory
import Mathlib.Data.List.Induction
import Mathlib.Data.List.Perm.Subperm

/-!
# The history of a driver

A `History` is what a driver did itself, with the answers that it got. Its accounts are which
signals the driver took, which callbacks it called, which subscriptions it opened and closed,
and how often it set phases going. `Right` says of one deed that it was done at the right
time, and `Sane` that this holds of all deeds of a history and that the accounts agree at every
moment. `Closed` is what a history looks like in which the session was closed.
-/

namespace Bundler

variable {S : Setting}

namespace Signal

/-- The callback of a close. -/
def closer? : Signal S → Option S.Callback
  | .close callback => some callback
  | .invalidate _ => none

/-- The callback of an invalidate. -/
def invalidator? : Signal S → Option S.Callback
  | .close _ => none
  | .invalidate callback => some callback

end Signal

/-! ## Accounts of deeds -/

namespace Deed

/-- The signals that a driver takes. -/
def heard : Deed S → List (Signal S)
  | .op (.await _) (.signal signal) => [signal]
  | .op (.takeSignals _) (signals, _) => signals
  | .op (.shut _) signals => signals
  | _ => []

/-- The driver sees that the handle of its session was dropped. -/
def seesDrop : Deed S → Bool
  | .op (.await _) .gone => true
  | .op (.takeSignals _) (_, gone) => gone
  | _ => false

/-- The driver takes a close signal, or sees that the handle was dropped. -/
def asksForClose (deed : Deed S) : Bool :=
  deed.seesDrop || deed.heard.any fun signal => signal.closer?.isSome

/-- A callback that is called. -/
def calls? : Deed S → Option S.Callback
  | .call (.notify callback) _ => some callback
  | _ => none

/-- A subscription that is opened. -/
def obtains? : Deed S → Option Subscription
  | .call (.subscribe ..) (some subscription) => some subscription
  | _ => none

/-- A subscription that is closed. -/
def givesUp? : Deed S → Option Subscription
  | .call (.unsubscribe subscription) _ => some subscription
  | _ => none

/-- The phases of a run begin. -/
def setsOut : Deed S → Bool
  | .op (.spawn (.watchPhases _)) _ => true
  | _ => false

/-- The handler is called. -/
def handles : Deed S → Bool
  | .call (.handle ..) _ => true
  | _ => false

/-- An observer of `after_done` is called, or the run is over. -/
def EndsRun : Deed S → Prop
  | .call (.observe _ _ (.afterDone _)) _ => True
  | .op (.release _) _ => True
  | _ => False

/-- A part of the close of a session. -/
def Closes : Deed S → Prop
  | .op (.shut _) _ => True
  | .op (.shift _ .endWatch) _ => True
  | .call (.observe _ _ .watchClose) _ => True
  | _ => False

/-- A part of a call of observers. -/
def Tells (compiler : CompilerId) (occasion : Occasion) (deed : Deed S) : Prop :=
  deed.Within (fun operation => operation = .look compiler)
    fun outside => ∃ observer, outside = .observe compiler observer occasion

end Deed

/-- A step that no account is kept of. -/
def Op.Aside : Op S → Prop
  | .await _ => False
  | .takeSignals _ => False
  | .shut _ => False
  | .shift _ .endWatch => False
  | .acquire _ => False
  | .release _ => False
  | .spawn (.watchPhases _) => False
  | _ => True

/-- A call that no account is kept of. -/
def Call.Aside : Call S → Prop
  | .subscribe .. => False
  | .unsubscribe _ => False
  | .handle .. => False
  | .notify _ => False
  | .observe _ _ .watchClose => False
  | .observe _ _ (.afterDone _) => False
  | _ => True

namespace Compiler

/-- What a driver has done. -/
abbrev History (S : Setting) := List (Deed S)

namespace History

/-- The driver has taken a close signal, or has seen that the handle was dropped. -/
def asked (history : History S) : Bool := history.any Deed.asksForClose

/-- The callbacks of the closes that were taken. -/
def closers (history : History S) : List S.Callback :=
  (history.flatMap Deed.heard).filterMap Signal.closer?

/-- The callbacks of the invalidates that were taken. -/
def invalidators (history : History S) : List S.Callback :=
  (history.flatMap Deed.heard).filterMap Signal.invalidator?

/-- The callbacks that were called. -/
def called (history : History S) : List S.Callback := history.filterMap Deed.calls?

/-- The subscriptions that were opened. -/
def obtained (history : History S) : List Subscription := history.filterMap Deed.obtains?

/-- The subscriptions that were closed. -/
def givenUp (history : History S) : List Subscription := history.filterMap Deed.givesUp?

/-- How often phases of a run have begun. -/
def begun (history : History S) : Nat := history.countP Deed.setsOut

/-- How often the handler was called. -/
def handled (history : History S) : Nat := history.countP Deed.handles

/-- No part of a close was done. -/
def Open (history : History S) : Prop := ∀ deed ∈ history, ¬ deed.Closes

section Append

variable (history more : History S)

@[simp]
theorem asked_append : asked (history ++ more) = (asked history || asked more) :=
  List.any_append

@[simp]
theorem closers_append : closers (history ++ more) = closers history ++ closers more := by
  simp [closers]

@[simp]
theorem invalidators_append :
    invalidators (history ++ more) = invalidators history ++ invalidators more := by
  simp [invalidators]

@[simp]
theorem called_append : called (history ++ more) = called history ++ called more :=
  List.filterMap_append

@[simp]
theorem obtained_append : obtained (history ++ more) = obtained history ++ obtained more :=
  List.filterMap_append

@[simp]
theorem givenUp_append : givenUp (history ++ more) = givenUp history ++ givenUp more :=
  List.filterMap_append

@[simp]
theorem begun_append : begun (history ++ more) = begun history + begun more :=
  List.countP_append

@[simp]
theorem handled_append : handled (history ++ more) = handled history + handled more :=
  List.countP_append

end Append

section Cons

variable (deed : Deed S) (history : History S)

@[simp]
theorem asked_nil : asked ([] : History S) = false := rfl

@[simp]
theorem asked_cons : asked (deed :: history) = (deed.asksForClose || asked history) := rfl

@[simp]
theorem closers_nil : closers ([] : History S) = [] := rfl

@[simp]
theorem closers_cons : closers (deed :: history) = deed.heard.filterMap Signal.closer? ++ closers history := by
  simp [closers]

@[simp]
theorem invalidators_nil : invalidators ([] : History S) = [] := rfl

@[simp]
theorem invalidators_cons : invalidators (deed :: history) = deed.heard.filterMap Signal.invalidator? ++ invalidators history := by
  simp [invalidators]

@[simp]
theorem called_nil : called ([] : History S) = [] := rfl

@[simp]
theorem called_cons : called (deed :: history) = deed.calls?.toList ++ called history := by
  cases found : deed.calls? <;> simp [called, found]

@[simp]
theorem obtained_nil : obtained ([] : History S) = [] := rfl

@[simp]
theorem obtained_cons : obtained (deed :: history) = deed.obtains?.toList ++ obtained history := by
  cases found : deed.obtains? <;> simp [obtained, found]

@[simp]
theorem givenUp_nil : givenUp ([] : History S) = [] := rfl

@[simp]
theorem givenUp_cons : givenUp (deed :: history) = deed.givesUp?.toList ++ givenUp history := by
  cases found : deed.givesUp? <;> simp [givenUp, found]

@[simp]
theorem begun_nil : begun ([] : History S) = 0 := rfl

@[simp]
theorem begun_cons : begun (deed :: history) = deed.setsOut.toNat + begun history := by
  cases found : deed.setsOut <;> simp [begun, found, Nat.add_comm]

@[simp]
theorem handled_nil : handled ([] : History S) = 0 := rfl

@[simp]
theorem handled_cons : handled (deed :: history) = deed.handles.toNat + handled history := by
  cases found : deed.handles <;> simp [handled, found, Nat.add_comm]

end Cons

section Open

variable {history more : History S} {deed : Deed S}

theorem open_nil : Open ([] : History S) := fun _ member => nomatch member

theorem Open.append (before : Open history) (after : Open more) : Open (history ++ more) :=
  fun deed member => (List.mem_append.mp member).elim (before deed) (after deed)

theorem Open.of_append (opened : Open (history ++ more)) : Open history :=
  fun deed member => opened deed (List.mem_append_left more member)

theorem Open.snoc (before : Open history) (open_ : ¬ deed.Closes) : Open (history ++ [deed]) :=
  before.append fun _ member => List.mem_singleton.mp member ▸ open_

end Open

/-- A deed that changes none of the accounts. -/
structure Silent (deed : Deed S) : Prop where
  seesDrop : deed.seesDrop = false
  heard : deed.heard = []
  calls : deed.calls? = none
  obtains : deed.obtains? = none
  givesUp : deed.givesUp? = none
  setsOut : deed.setsOut = false
  handles : deed.handles = false

theorem silent_look (compiler : CompilerId) (record : CompilerRecord S) :
    Silent (.op (.look compiler) record) := ⟨rfl, rfl, rfl, rfl, rfl, rfl, rfl⟩

theorem silent_observe (compiler : CompilerId) (observer : S.Observer) (occasion : Occasion)
    (reply : Except String Unit) : Silent (.call (.observe compiler observer occasion) reply) :=
  ⟨rfl, rfl, rfl, rfl, rfl, rfl, rfl⟩

/-- Calling observers changes none of the accounts. -/
theorem silent_tells {compiler : CompilerId} {occasion : Occasion} {deed : Deed S}
    (told : deed.Tells compiler occasion) : Silent deed := by
  cases deed with
  | op operation reply =>
      obtain rfl : operation = .look compiler := told
      exact silent_look compiler reply
  | call outside reply =>
      obtain ⟨observer, rfl⟩ : ∃ observer, outside = .observe compiler observer occasion := told
      exact silent_observe compiler observer occasion reply
  | request => exact told.elim

/-- Deeds that change no account begin and end no run, and call nothing. -/
theorem quiet_of_silent {more : History S} (silent : ∀ deed ∈ more, Silent deed) :
    called more = [] ∧ begun more = 0 ∧ handled more = 0 := by
  refine ⟨List.filterMap_eq_nil_iff.mpr fun deed member => (silent deed member).calls,
    List.countP_eq_zero.mpr fun deed member => ?_, List.countP_eq_zero.mpr fun deed member => ?_⟩
  · simp [(silent deed member).setsOut]
  · simp [(silent deed member).handles]

/-! ## What a driver does to close its session -/

/-- The subscription is closed, the session is shut, the compiler is given back, observers of
`watch_close` are called, and then callbacks. -/
def closeSequence (session : SessionId) (compiler : CompilerId) (held : Option Subscription)
    (left : List (Signal S)) (ended : Bool) (fired : History S) (callbacks : List S.Callback) :
    History S :=
  (held.toList.map fun subscription => .call (.unsubscribe subscription) ()) ++
    .op (.shut session) left :: .op (.shift compiler .endWatch) ended ::
      (fired ++ callbacks.map fun callback => .call (.notify callback) ())

/-- What comes when the close of a session is over: no signals are taken, and no callbacks are
called. -/
def Rest (history : History S) : Prop :=
  ∀ deed ∈ history, ¬ deed.Closes ∧ deed.heard = [] ∧ deed.calls? = none

theorem rest_nil : Rest ([] : History S) := fun _ member => nomatch member

theorem Rest.append {history more : History S} (before : Rest history) (after : Rest more) :
    Rest (history ++ more) :=
  fun deed member => (List.mem_append.mp member).elim (before deed) (after deed)

/-- The session was closed, once. After `watch_close` had fired, the callbacks of all closes
were called that were taken, or left when the session was shut, and then those of the
invalidates that no run had called. Nothing of the kind was done before or after. -/
def Closed (session : SessionId) (compiler : CompilerId) (history : History S) : Prop :=
  ∃ before held left ended fired ending waiting after,
    history = before ++ (closeSequence session compiler held left ended fired
      (closers before ++ left.filterMap Signal.closer? ++ waiting) ++ after) ∧
    Fires compiler .watchClose (Told compiler .watchClose) () fired ending ∧
    invalidators before ++ left.filterMap Signal.invalidator? = called before ++ waiting ∧
    Open before ∧ Rest after

theorem Closed.append {session : SessionId} {compiler : CompilerId} {history more : History S}
    (closed : Closed session compiler history) (rest : Rest more) :
    Closed session compiler (history ++ more) := by
  obtain ⟨before, held, left, ended, fired, ending, waiting, after, rfl, fires, due, early, late⟩ :=
    closed
  exact ⟨before, held, left, ended, fired, ending, waiting, after ++ more, by simp, fires, due,
    early, late.append rest⟩

/-! ## Right moments -/

/-- A run calls one of its callbacks: its handler was called and no observer of `after_done`,
and the invalidate was taken before the phases of the run were set going. Callbacks are called
in the order in which their invalidates were taken, so the next one has as many before it as
were called so far. -/
def Answers (history : History S) : Prop :=
  Open history ∧ ∃ before compiler worker middle,
    history = before ++ .op (.spawn (.watchPhases compiler)) worker :: middle ∧
    begun middle = 0 ∧ handled middle = 1 ∧ (∀ deed ∈ middle, ¬ deed.EndsRun) ∧
    (called history).length < (invalidators before).length

/-- A callback is called by a driver that has closed its session: `watch_close` has fired. -/
def Dismisses (session : SessionId) (history : History S) : Prop :=
  ∃ before left compiler ended fired ending rest,
    history = before ++ .op (.shut session) left :: .op (.shift compiler .endWatch) ended ::
      (fired ++ rest) ∧
    Fires compiler .watchClose (Told compiler .watchClose) () fired ending ∧
    ∀ deed ∈ rest, deed.calls?.isSome = true

/-- What may be done at this moment. -/
def Right (session : SessionId) (history : History S) : Deed S → Prop
  | .op (.acquire _) _ => asked history = false
  | .op (.shut _) _ => asked history = true
  | .call (.observe _ _ .watchClose) _ => begun history = handled history
  | .call (.observe compiler _ (.afterDone _)) _ =>
    asked history = true → Closed session compiler history
  | .call (.notify _) _ => Answers history ∨ Dismisses session history
  | _ => True

/-- What is right at one moment of a history. -/
structure Sound (session : SessionId) (history : History S) : Prop where
  /-- Only what was opened is closed, and once. -/
  owned : (givenUp history).Subperm (obtained history)
  /-- At most one subscription is open, unless the driver is about to exchange it. -/
  single : (obtained history).length ≤ (givenUp history).length + 1 ∨
    ∃ before deed, history = before ++ [deed] ∧ deed.obtains?.isSome = true ∧
      (obtained history).length = (givenUp history).length + 2
  /-- No subscription is open when the session is shut. -/
  level : (∃ left, .op (.shut session) left ∈ history) →
    (obtained history).Perm (givenUp history)
  /-- Before the close, callbacks are called in the order in which their invalidates were
  taken, and only those. -/
  called : Open history → called history <+: invalidators history
  handled : handled history ≤ begun history
  right : ∀ before deed, history = before ++ [deed] → Right session before deed

/-- Everything was right at every moment. -/
def Sane (session : SessionId) (history : History S) : Prop :=
  ∀ before, before <+: history → Sound session before

section Sane

variable {session : SessionId} {history more : History S} {deed : Deed S}

theorem sane_nil (session : SessionId) : Sane session ([] : History S) := by
  intro before earlier
  obtain rfl := List.prefix_nil.mp earlier
  exact ⟨List.Subperm.refl _, .inl (Nat.zero_le 1), fun _ => .refl _, fun _ => List.prefix_rfl,
    Nat.le_refl 0, by simp⟩

theorem Sane.of_append (sane : Sane session (history ++ more)) : Sane session history :=
  fun _ earlier => sane _ (earlier.trans (List.prefix_append history more))

/-- A deed at the right moment. What has to be known are the subscriptions that are open
afterwards. -/
theorem Sane.snoc (sane : Sane session history) (opened : List Subscription)
    (right : Right session history deed)
    (holds : (obtained (history ++ [deed])).Perm (givenUp (history ++ [deed]) ++ opened))
    (few : opened.length ≤ 1 ∨ opened.length = 2 ∧ deed.obtains?.isSome = true)
    (level : ¬ Open (history ++ [deed]) → opened = [])
    (calls : Open (history ++ [deed]) → called (history ++ [deed]) <+: invalidators (history ++ [deed]))
    (handles : handled (history ++ [deed]) ≤ begun (history ++ [deed])) :
    Sane session (history ++ [deed]) := by
  have length := holds.length_eq
  rw [List.length_append] at length
  have sound : Sound session (history ++ [deed]) :=
    { owned := (List.sublist_append_left _ _).subperm.trans holds.symm.subperm
      single := by
        rcases few with one | ⟨two, obtains⟩
        · left
          omega
        · exact .inr ⟨history, deed, rfl, obtains, by rw [length, two]⟩
      level := fun ⟨left, shut⟩ => by
        rw [level fun open_ => open_ _ shut trivial, List.append_nil] at holds
        exact holds
      called := calls
      handled := handles
      right := fun before other same => by
        obtain ⟨rfl, last⟩ := List.append_inj' same rfl
        rw [← List.singleton_inj.mp last]
        exact right }
  intro before earlier
  rcases List.prefix_concat_iff.mp earlier with rfl | earlier
  · exact sound
  · exact sane before earlier

end Sane

end History

end Compiler

end Bundler
