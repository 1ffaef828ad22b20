import Bundler.Proofs.Compiler.CloseSequence
import Bundler.Proofs.Compiler.SessionProtocol

/-!
# The order of callbacks

A driver calls the callbacks of invalidates in the order in which it took them: those that its
runs answer before the close of the session, the others at its end. In between it calls the
callbacks of closes. So the calls of a driver are a beginning of `callOrder` of the signals that
it took, and all of it when the session is closed. No callback occurs in that order twice.
-/

namespace Bundler.Compiler.History

variable {S : Setting}

/-- The signals that were taken. -/
def taken (history : History S) : List (Signal S) := history.flatMap Deed.heard

@[simp]
theorem taken_append (history more : History S) :
    taken (history ++ more) = taken history ++ taken more :=
  List.flatMap_append

/-- The order in which the callbacks of some signals are called, if this many of the invalidates
are answered by runs. -/
def callOrder (signals : List (Signal S)) (answered : Nat) : List S.Callback :=
  (signals.filterMap Signal.invalidator?).take answered ++ signals.filterMap Signal.closer? ++
    (signals.filterMap Signal.invalidator?).drop answered

/-- Every signal has its callback called once. -/
theorem callOrder_perm (signals : List (Signal S)) (answered : Nat) :
    (callOrder signals answered).Perm (signals.map Signal.callback) := by
  have sorted : (signals.filterMap Signal.invalidator? ++ signals.filterMap Signal.closer?).Perm
      (signals.map Signal.callback) := by
    induction signals with
    | nil => exact .refl _
    | cons signal signals ih =>
        cases signal with
        | invalidate callback => exact ih.cons callback
        | close callback => exact List.perm_middle.trans (ih.cons callback)
  refine List.Perm.trans ?_ sorted
  rw [callOrder, List.append_assoc]
  refine (List.perm_append_comm.append_left _).trans ?_
  rw [← List.append_assoc, List.take_append_drop]

/-- Telling observers changes none of the accounts. -/
theorem silent_fires {compiler : CompilerId} {name : HookName} {occasion : Occasion}
    {fired : History S} {ending : HookResult Unit Empty}
    (fires : Fires compiler name (Told compiler occasion) () fired ending) :
    ∀ deed ∈ fired, Silent deed := by
  have one : ∀ {watcher : Watcher S} {value : Unit} {deeds : History S} {verdict : Verdict Unit Empty},
      Told compiler occasion watcher value deeds verdict → ∀ deed ∈ deeds, Silent deed := by
    intro watcher value deeds verdict told deed member
    cases watcher with
    | outside observer =>
        obtain ⟨reply, rfl, -⟩ := told
        rw [List.mem_singleton.mp member]
        exact silent_observe _ _ _ _
    | noEmitOnErrors =>
        rw [told.1] at member
        cases member
  obtain ⟨record, rest, rfl, series⟩ := fires
  intro deed member
  rcases List.mem_cons.mp member with rfl | later
  · exact silent_look compiler record
  · clear member
    generalize (record.registry.hook name).taps = taps, (() : Unit) = value at series
    induction series with
    | through => cases later
    | passed asked _ ih => exact (List.mem_append.mp later).elim (one asked deed) ih
    | decided asked | failed asked => exact one asked deed later

section Closed

variable {session : SessionId} {compiler : CompilerId} {history more : History S}

/-- What is known of a history in which the session was shut: the part of the close sequence that
follows, up to what comes after it. -/
theorem Closed.past (closed : Closed session compiler (history ++ more)) (shut : ¬ Open history) :
    ∃ before left gap ended fired ending, ∃ callbacks : List S.Callback, ∃ after,
      history = before ++ .op (.shut session) left :: gap ∧
      gap ++ more = .op (.shift compiler .endWatch) ended :: (fired ++
        ((callbacks.map fun callback => .call (.notify callback) ()) ++ after)) ∧
      Fires compiler .watchClose (Told compiler .watchClose) () fired ending ∧ Rest after := by
  obtain ⟨before, held, left, ended, fired, ending, waiting, after, same, fires, -, early, late⟩ :=
    closed
  have quiet : Open (before ++ held.toList.map fun subscription =>
      (.call (.unsubscribe subscription) () : Deed S)) := by
    refine early.append fun deed member => ?_
    obtain ⟨subscription, -, rfl⟩ := List.mem_map.mp member
    exact id
  rw [closeSequence, List.append_assoc, ← List.append_assoc before, List.cons_append] at same
  rcases List.append_eq_append_iff.mp same with ⟨gap, whole, -⟩ | ⟨gap, rfl, rest⟩
  · rw [whole] at quiet
    exact absurd quiet.of_append shut
  · cases gap with
    | nil =>
        rw [List.append_nil] at shut
        exact absurd quiet shut
    | cons deed gap =>
        obtain ⟨rfl, following⟩ := List.cons.inj rest
        refine ⟨_, left, gap, ended, fired, ending,
          closers before ++ left.filterMap Signal.closer? ++ waiting, after, rfl, ?_, fires, late⟩
        rw [← List.append_assoc fired]
        exact following.symm

theorem Closed.shut_mem (closed : Closed session compiler history) :
    ∃ left, .op (.shut session) left ∈ history := by
  obtain ⟨before, held, left, ended, fired, ending, waiting, after, rfl, -⟩ := closed
  exact ⟨left, by simp [closeSequence]⟩

/-- Nothing is taken any more when the session was shut. -/
theorem Closed.taken_past (closed : Closed session compiler (history ++ more))
    (shut : ¬ Open history) : taken more = [] := by
  obtain ⟨before, left, gap, ended, fired, ending, callbacks, after, -, same, fires, late⟩ :=
    closed.past shut
  have nothing : taken (gap ++ more) = [] := by
    rw [same, taken, List.flatMap_eq_nil_iff]
    intro deed member
    rcases List.mem_cons.mp member with rfl | member
    · rfl
    rcases List.mem_append.mp member with member | member
    · exact (silent_fires fires deed member).heard
    rcases List.mem_append.mp member with member | member
    · obtain ⟨callback, -, rfl⟩ := List.mem_map.mp member
      rfl
    · exact (late deed member).2.1
  rw [taken_append] at nothing
  exact (List.append_eq_nil_iff.mp nothing).2

/-- A callback that is called when the session was shut: observers of `watch_close` have been told
before, and since then callbacks were called and nothing else was done. -/
theorem Closed.called_past {callback : S.Callback}
    (closed : Closed session compiler (history ++ .call (.notify callback) () :: more))
    (shut : ¬ Open history) :
    ∃ before left ended fired ending rest,
      history = before ++ .op (.shut session) left :: .op (.shift compiler .endWatch) ended ::
        (fired ++ rest) ∧
      Fires compiler .watchClose (Told compiler .watchClose) () fired ending ∧
      ∀ deed ∈ rest, deed.calls?.isSome = true := by
  obtain ⟨before, left, gap, ended, fired, ending, callbacks, after, rfl, same, fires, late⟩ :=
    closed.past shut
  rcases gap with _ | ⟨_, gap⟩
  · cases same
  obtain ⟨rfl, following⟩ := List.cons.inj same
  refine ⟨before, left, ended, fired, ending, ?_⟩
  rcases List.append_eq_append_iff.mp following with ⟨early, rfl, cut⟩ | ⟨rest, rfl, cut⟩
  · cases early with
    | nil => exact ⟨[], by simp, by simpa using fires, by simp⟩
    | cons deed early =>
        obtain ⟨rfl, -⟩ := List.cons.inj cut
        cases (silent_fires fires _ (List.mem_append_right _ (.head _))).calls
  · refine ⟨rest, rfl, fires, fun deed member => ?_⟩
    rcases List.append_eq_append_iff.mp cut with ⟨beyond, rfl, later⟩ | ⟨gone, calls, -⟩
    · cases (late _ (later ▸ List.mem_append_right _ (.head _))).2.2
    · have listed := calls ▸ List.mem_append_left gone member
      obtain ⟨called, -, rfl⟩ := List.mem_map.mp listed
      rfl

/-- All callbacks were called when the session is closed. -/
theorem Closed.called_eq (closed : Closed session compiler history) :
    ∃ answered, called history = callOrder (taken history) answered := by
  obtain ⟨before, held, left, ended, fired, ending, waiting, after, rfl, fires, due, -, late⟩ := closed
  have none_called : called fired = [] := List.filterMap_eq_nil_iff.mpr fun deed member =>
    (silent_fires fires deed member).calls
  have none_taken : taken fired = [] := List.flatMap_eq_nil_iff.mpr fun deed member =>
    (silent_fires fires deed member).heard
  have rest_called : called after = [] := List.filterMap_eq_nil_iff.mpr fun deed member =>
    (late deed member).2.2
  have rest_taken : taken after = [] := List.flatMap_eq_nil_iff.mpr fun deed member =>
    (late deed member).2.1
  have held_called : called (held.toList.map fun subscription =>
      (.call (.unsubscribe subscription) () : Deed S)) = [] := by
    cases held <;> rfl
  have held_taken : taken (held.toList.map fun subscription =>
      (.call (.unsubscribe subscription) () : Deed S)) = [] := by
    cases held <;> rfl
  have calls : ∀ callbacks : List S.Callback, called (callbacks.map fun callback =>
      (.call (.notify callback) () : Deed S)) = callbacks := by
    intro callbacks
    induction callbacks with
    | nil => rfl
    | cons callback callbacks ih => simp [Deed.calls?, ih]
  have calls_taken : ∀ callbacks : List S.Callback, taken (callbacks.map fun callback =>
      (.call (.notify callback) () : Deed S)) = [] := by
    intro callbacks
    refine List.flatMap_eq_nil_iff.mpr fun deed member => ?_
    obtain ⟨callback, -, rfl⟩ := List.mem_map.mp member
    rfl
  have whole : taken (before ++ (closeSequence session compiler held left ended fired
      (closers before ++ left.filterMap Signal.closer? ++ waiting) ++ after)) =
      taken before ++ left := by
    have cons_taken : ∀ (deed : Deed S) rest, taken (deed :: rest) = deed.heard ++ taken rest :=
      fun _ _ => rfl
    simp [closeSequence, cons_taken, held_taken, none_taken, calls_taken, rest_taken, Deed.heard]
  refine ⟨(called before).length, ?_⟩
  rw [whole, callOrder, List.filterMap_append, List.filterMap_append]
  change _ = (invalidators before ++ left.filterMap Signal.invalidator?).take _ ++
    (closers before ++ left.filterMap Signal.closer?) ++
    (invalidators before ++ left.filterMap Signal.invalidator?).drop _
  rw [due, List.take_left, List.drop_left]
  simp [closeSequence, held_called, none_called, calls, rest_called, Deed.calls?]

end Closed

section Ordered

variable {session : SessionId} {compiler : CompilerId} {history : History S}
  {signals : List (Signal S)}

/-- The next callback that a run calls is the one of the invalidate whose turn it is. -/
theorem next_of_called {callback : S.Callback} {before : History S} (begun : before <+: history)
    (answered : called (history ++ [.call (.notify callback) ()]) <+:
      invalidators (history ++ [.call (.notify callback) ()]))
    (due : (called history).length < (invalidators before).length) :
    (invalidators before)[(called history).length]? = some callback := by
  obtain ⟨middle, rfl⟩ := begun
  have taken_before : invalidators before <+:
      invalidators (before ++ middle ++ [.call (.notify callback) ()]) := by
    rw [List.append_assoc, invalidators_append]
    exact List.prefix_append _ _
  have calls : called (before ++ middle ++ [.call (.notify callback) ()]) =
      called (before ++ middle) ++ [callback] := called_append _ _
  rw [calls, List.prefix_iff_getElem?] at answered
  have last := answered (called (before ++ middle)).length (by simp)
  rw [List.getElem_append_right (Nat.le_refl _)] at last
  have same := List.prefix_iff_getElem?.mp taken_before _ due
  rw [List.getElem?_eq_getElem due, ← same, last]
  simp

/-- A beginning of a driver's history calls callbacks in order, of whatever signals it has taken
the first ones, and all if the session was shut. -/
theorem ordered (sane : Sane session history)
    (once : Open history ∨ ∃ more, Closed session compiler (history ++ more))
    (first : taken history <+: signals) (all : ¬ Open history → taken history = signals) :
    ∃ answered, called history <+: callOrder signals answered := by
  by_cases unshut : Open history
  · have answers := (sane history List.prefix_rfl).called unshut
    have due : invalidators history <+: signals.filterMap Signal.invalidator? :=
      first.filterMap Signal.invalidator?
    refine ⟨(called history).length, ?_⟩
    obtain ⟨rest, same⟩ := answers.trans due
    rw [callOrder, ← same, List.take_left, List.append_assoc]
    exact List.prefix_append _ _
  · obtain ⟨more, closed⟩ := once.resolve_left unshut
    obtain ⟨answered, same⟩ := closed.called_eq
    rw [taken_append, closed.taken_past unshut, List.append_nil, all unshut, called_append] at same
    exact ⟨answered, same ▸ List.prefix_append _ _⟩

end Ordered

end Bundler.Compiler.History
