import Bundler.Proofs.Compiler.SessionPhases

/-!
# The end of sessions

A driver learns that it has to close its session from a close signal, or when it sees that the
handle was dropped. From then on it neither begins a run nor waits.
-/

namespace Bundler

variable {S : Setting}

/-- The driver of a session learns that it has to close it. -/
def Event.closes (id : SessionId) : Event S → Prop
  | .op (.await session) (.signal (.close _)) => session = id
  | .op (.await session) .gone => session = id
  | .op (.takeSignals session) (signals, gone) =>
    session = id ∧ (gone = true ∨ ∃ callback, .close callback ∈ signals)
  | _ => False

namespace Book

variable {book : Book S} {standing : Standing S} {operation : Op S}

theorem closing_signals (signals : List (Signal S)) :
    (signals.foldl signal book).closing = true ↔
      book.closing = true ∨ ∃ callback, .close callback ∈ signals := by
  induction signals generalizing book with
  | nil => simp
  | cons signal rest ih =>
      rw [List.foldl_cons, ih]
      cases signal <;> simp [Book.signal]

/-- The book of a driver says whether the driver has learned of the end. -/
theorem closing_after (reply : operation.Reply) (held : standing.book = some book)
    (allowed : standing.Allows operation) :
    (book.after operation reply).closing = true ↔
      book.closing = true ∨ (Event.op operation reply).closes book.session := by
  have drives : ∀ {id : SessionId} {reading : Book S → Prop}, standing.Drives id reading →
      id = book.session ∧ reading book := by
    rintro id reading ⟨_, found, rfl, read⟩
    obtain rfl := Option.some.inj (held.symm.trans found)
    exact ⟨rfl, read⟩
  cases operation with
  | await id =>
      obtain ⟨rfl, -⟩ := drives allowed.2
      cases reply with
      | signal signal => cases signal <;> simp [Book.after, wake, Book.signal, Event.closes]
      | changes changes => simp [Book.after, wake, receive, Event.closes]
      | gone => simp [Book.after, wake, Event.closes]
  | takeSignals id =>
      obtain ⟨rfl, -⟩ := drives allowed.2
      obtain ⟨signals, gone⟩ := reply
      simp only [Book.after, drain, Bool.or_eq_true, closing_signals, Event.closes, true_and]
      rw [or_assoc, @or_comm (∃ callback, Signal.close callback ∈ signals)]
  | shut id =>
      obtain ⟨rfl, -, -, closing⟩ := drives allowed.2
      simp [Book.after, closing_signals, closing]
  | takeChanges id => cases reply <;> simp [Book.after, receive, Event.closes]
  | spawn job => cases job <;> simp [Book.after, Event.closes]
  | release compiler =>
      simp only [Book.after, release, Event.closes, or_false]
      split <;> rfl
  | _ => simp [Book.after, begin, Event.closes]

theorem closing_settle (callback : S.Callback) :
    (book.settle callback).closing = book.closing := by
  rw [settle]
  split <;> rfl

theorem closing_during (outside : Call S) : (book.during outside).closing = book.closing := by
  cases outside with
  | notify callback => exact closing_settle callback
  | observe compiler observer occasion =>
      cases occasion with
      | afterDone finished =>
          simp only [during]
          split <;> rfl
      | _ => rfl
  | _ => rfl

end Book

namespace SessionView

variable {panics : Prop} {id : SessionId} {compiler : CompilerId}
  {events : List (Bool × Event S)} {view : SessionView S}

theorem closes_reserved {operation : Op S} {reply : operation.Reply}
    (closes : (Event.op operation reply).closes id) : operation.Reserved id := by
  cases operation with
  | await session =>
      cases reply with
      | signal signal =>
          cases signal with
          | invalidate => exact False.elim closes
          | close => exact closes
      | changes => exact False.elim closes
      | gone => exact closes
  | takeSignals session => exact closes.1
  | _ => exact False.elim closes

/-- An event that is no reason to close adds nothing. -/
theorem closes_append {closing : Prop} {entry : Bool × Event S} (silent : ¬ entry.2.closes id)
    (known : closing ↔ ∃ other ∈ events, other.2.closes id) :
    closing ↔ ∃ other ∈ events ++ [entry], other.2.closes id := by
  rw [known]
  simp [silent, or_and_right, exists_or]

/-- The driver of a session has learned of its end from what it has seen itself. -/
theorem Life.closing_iff (life : Life panics id compiler events view) {book : Book S}
    (held : view.standing.book = some book) :
    book.closing = true ↔ ∃ entry ∈ events, entry.2.closes id := by
  induction life generalizing book with
  | opened =>
      obtain rfl := Option.some.inj held
      simp
  | @seen events view event after before step ih =>
      obtain ⟨earlier, placed⟩ := before.placed
      have known := ih placed.held
      cases step with
      | @op operation reply session alive allowed expected moves =>
          have same : earlier.after operation reply = book := by
            simpa [Standing.after, placed.held] using held
          rw [← same, earlier.closing_after reply placed.held allowed, known, placed.mine]
          simp [or_and_right, exists_or]
      | @call outside alive allowed =>
          have same : book.closing = earlier.closing := by
            cases refused : view.standing.refused with
            | some callback =>
                rw [Standing.duringCall, refused] at held
                rw [Option.some.inj (held.symm.trans placed.held)]
            | none =>
                simp only [Standing.duringCall, refused, placed.held, Option.map_some,
                  Option.some.injEq] at held
                rw [← held, Book.closing_during]
          exact closes_append not_false (same ▸ known)
      | request | visitCall | visitRequest => exact closes_append not_false (ih held)
      | visit open_ moves =>
          exact closes_append (fun closes => open_ (closes_reserved closes)) (ih held)
  | unseen before step ih =>
      cases step with
      | finish => exact ih held
      | crash => exact ih held

end SessionView

end Bundler
