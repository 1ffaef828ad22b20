import Bundler.Proofs.Compiler.CallOrder
import Bundler.Proofs.Compiler.CloseProtocol
import Bundler.Proofs.Compiler.Refusals
import Bundler.Proofs.Compiler.Workers

/-!
# Calls that a task makes of its own accord

A task calls a callback because a session has refused it just before, or of its own accord, and
only drivers do the latter. `ownCalls` are those calls in the events of a task. For a driver
they are the callbacks that its deeds call, and what it takes from the queue of its session are
the signals that its deeds take. So the accounts of its history can be read off the events of
everybody.
-/

namespace Bundler

variable {S : Setting} {E : Environment S} {α : Type}

/-- A callback of a session that is called. -/
def Event.notified? : Event S → Option S.Callback
  | .call (.notify callback) => some callback
  | _ => none

/-- The callbacks that are called without being owed. -/
def ownCalls (owing : Option S.Callback) : List (Event S) → List S.Callback
  | [] => []
  | event :: events =>
    (if owing.isSome then [] else event.notified?.toList) ++ ownCalls event.turnedAway? events

section OwnCalls

variable {owing : Option S.Callback} {first rest events : List (Event S)}

theorem owed_append : owed owing (first ++ rest) = owed (owed owing first) rest :=
  List.foldl_append

theorem ownCalls_append :
    ownCalls owing (first ++ rest) = ownCalls owing first ++ ownCalls (owed owing first) rest := by
  induction first generalizing owing with
  | nil => rfl
  | cons event first ih => simp only [List.cons_append, ownCalls, ih, owed_cons, List.append_assoc]

/-- A call that is not owed, as the next event. -/
theorem ownCalls_concat {callback : S.Callback} (free : owed owing events = none) :
    ownCalls owing (events ++ [.call (.notify callback)]) = ownCalls owing events ++ [callback] := by
  rw [ownCalls_append, free]
  rfl

/-- Code of visitors calls only what it owes, makes only what visitors may, and goes on to do
so. -/
theorem Prog.Prompt.ownCalls_eq {ops : Op S → Prop} {ending : α → Prop} {program left : Prog S α}
    (answers : ∀ outside, (E.answer outside).Prompt ops False (fun _ => True) none)
    (prompt : program.Prompt ops False ending owing) (follows : Follows E program events left) :
    ownCalls owing events = [] := by
  induction follows generalizing owing with
  | start program => rfl
  | @op operation next reply events left _ ih =>
      rw [ownCalls, ih (prompt.after_op.2 reply)]
      cases owing <;> rfl
  | @call outside next events left _ ih =>
      have later : ownCalls none events = [] :=
        ih ((answers outside).bind fun reply _ => prompt.after_call reply)
      rw [ownCalls, show (Event.call outside : Event S).turnedAway? = none from rfl, later,
        List.append_nil]
      cases owing with
      | some callback => rfl
      | none =>
          cases outside with
          | notify callback => exact nomatch prompt.owed_of_notify
          | _ => rfl
  | @request wish next answer events left _ ih =>
      have later : ownCalls none events = [] := ih (prompt.after_request answer)
      rw [ownCalls, show (Event.request wish answer : Event S).turnedAway? = none from rfl, later]
      cases owing <;> rfl

end OwnCalls

/-! ## The deeds of a driver in its events -/

namespace Compiler

/-- A job makes only operations of jobs. -/
theorem ofJob_of_course {job : Job S} {deeds : List (Deed S)} {left : Prog S (Next S)}
    (course : Course job deeds left) {operation : Op S} {reply : operation.Reply}
    (member : .op operation reply ∈ deeds) : OfJob operation := by
  induction course with
  | within path => exact ((ofJobs_program _).path path).2 _ member
  | turn play _ ih =>
      exact (List.mem_append.mp member).elim ((ofJobs_program _).play play _) ih

end Compiler

section Expands

variable {deeds : List (Deed S)} {events : List (Event S)} {panics : Prop}

open Compiler.History

/-- What a driver calls of its own accord is what its deeds call. -/
theorem Expands.ownCalls_eq (hosts : E.Hosts panics) (expands : Expands E deeds events)
    (plain : ∀ operation reply, .op operation reply ∈ deeds → operation.Plain) :
    ownCalls none events = called deeds ∧ owed none events = none := by
  have answers : ∀ outside, (E.answer outside).Prompt Op.OfClient False (fun _ => True) none :=
    fun outside => (hosts outside).prompt
  induction expands with
  | nothing => exact ⟨rfl, rfl⟩
  | @op operation reply deeds events _ ih =>
      have turned : (Event.op operation reply).turnedAway? = none :=
        turnedAway?_eq_none (plain operation reply (.head _)) reply
      obtain ⟨calls, owes⟩ := ih fun other answer member => plain other answer (.tail _ member)
      rw [ownCalls, turned, calls, owed_cons, turned, owes]
      exact ⟨rfl, rfl⟩
  | @call outside reply deeds inner events answered _ ih =>
      obtain ⟨calls, owes⟩ := ih fun other answer member => plain other answer (.tail _ member)
      have settled : owed none inner = none :=
        (((answers outside).follows answers answered).1.at_end).1
      have silent : ownCalls none inner = [] := (answers outside).ownCalls_eq answers answered
      have turned : (Event.call outside).turnedAway? = none := rfl
      rw [ownCalls, turned, ownCalls_append, silent, settled, calls, owed_cons, turned, owed_append,
        settled, owes]
      refine ⟨?_, rfl⟩
      cases outside with
      | notify callback => rfl
      | _ => rfl
  | @request wish answer deeds events _ ih =>
      obtain ⟨calls, owes⟩ := ih fun other reply member => plain other reply (.tail _ member)
      have turned : (Event.request wish answer : Event S).turnedAway? = none := rfl
      rw [ownCalls, turned, calls, owed_cons, turned, owes]
      exact ⟨rfl, rfl⟩

/-- What visitors do takes no signals. -/
theorem heard_of_client {id : SessionId}
    (client : ∀ operation reply, .op operation reply ∈ events → operation.OfClient) :
    events.flatMap (Event.heard id) = [] := by
  refine List.flatMap_eq_nil_iff.mpr fun event member => ?_
  cases event with
  | op operation reply =>
      have allowed := client operation reply member
      cases operation with
      | await | takeSignals | shut => exact allowed.elim
      | _ => rfl
  | call | request => rfl

/-- What a driver takes from the queue of its session is what its deeds take. -/
theorem Expands.taken_eq {id : SessionId} (hosts : E.Hosts panics) (expands : Expands E deeds events)
    (own : ∀ operation reply, .op operation reply ∈ events →
      (Event.op operation reply).heard id = (Deed.op operation reply).heard) :
    events.flatMap (Event.heard id) = taken deeds := by
  have answers : ∀ outside, (E.answer outside).Prompt Op.OfClient False (fun _ => True) none :=
    fun outside => (hosts outside).prompt
  induction expands with
  | nothing => rfl
  | @op operation reply deeds events _ ih =>
      rw [List.flatMap_cons, own operation reply (.head _),
        ih fun other answer member => own other answer (.tail _ member)]
      rfl
  | @call outside reply deeds inner events answered _ ih =>
      have silent : inner.flatMap (Event.heard id) = [] :=
        heard_of_client ((answers outside).follows answers answered).2
      rw [List.flatMap_cons, List.flatMap_append, silent, ih fun other answer member =>
        own other answer (.tail _ (List.mem_append_right _ member))]
      rfl
  | @request wish answer deeds events _ ih =>
      rw [List.flatMap_cons, ih fun other reply member => own other reply (.tail _ member)]
      rfl

end Expands

/-! ## The signals of a session -/

namespace SessionView

variable {panics : Prop} {id : SessionId} {compiler : CompilerId} {events : Events S}
  {view : SessionView S}

/-- A driver that is not over gets all signals of its session. -/
theorem Life.attentive (life : Life panics id compiler events view) (alive : view.alive = true) :
    view.session.answers = true ∨ view.session.phase = .closed := by
  obtain ⟨book, placed⟩ := life.placed
  by_contra deaf
  rw [not_or, Bool.not_eq_true] at deaf
  rcases placed.answers deaf.1 with shut | gone
  · exact deaf.2 (placed.closed.mpr shut)
  · exact nomatch alive.symm.trans gone

/-- What was heard are the first of the signals that were sent. -/
theorem Life.heard_prefix (life : Life panics id compiler events view) :
    heard id events <+: sent id events := by
  induction life with
  | opened => exact List.nil_prefix
  | @seen events view entry after before step ih =>
      by_cases silent : entry.2.heard id = []
      · rw [heard_append, sent_append, heard_one, silent, List.append_nil]
        exact ih.trans (List.prefix_append _ _)
      · have mine := before.seen step |>.taken_by_driver
          (List.mem_append_right events (.head _)) (.inr silent)
        have alive : after.alive = true := by
          cases step with
          | op alive => exact alive
          | call | request => exact absurd rfl silent
          | visit | visitCall | visitRequest => exact absurd mine Bool.false_ne_true
        rw [(before.seen step).signals ((before.seen step).attentive alive)]
        exact List.prefix_append _ _
  | unseen before step ih => exact ih

/-- A driver takes signals of its own session only. -/
theorem Life.hears_own (life : Life panics id compiler events view) {operation : Op S}
    {reply : operation.Reply} (member : (true, .op operation reply) ∈ events) :
    (Event.op operation reply).heard id = (Deed.op operation reply).heard := by
  obtain ⟨first, rest, rfl⟩ := List.append_of_mem member
  obtain ⟨before, after, lived, step⟩ := life.split
  obtain ⟨book, placed⟩ := lived.placed
  have drives : ∀ {session : SessionId} {reading : Book S → Prop},
      before.standing.Drives session reading → session = id := by
    rintro session reading ⟨other, held, rfl, -⟩
    obtain rfl := Option.some.inj (held.symm.trans placed.held)
    exact placed.mine
  cases step with
  | op alive allowed =>
      have permits := allowed.2
      cases operation with
      | await session =>
          obtain rfl := drives permits
          cases reply <;> simp [Event.heard, Deed.heard]
      | takeSignals session | shut session =>
          obtain rfl := drives permits
          exact if_pos rfl
      | _ => rfl

/-- The driver of a session stays the driver of the same session and compiler. -/
theorem Life.driven (life : Life panics id compiler events view) :
    view.standing.driven = some (id, compiler) := by
  induction life with
  | opened => rfl
  | seen before step ih =>
      cases step with
      | op => exact (Standing.driven_after _ _ _).trans ih
      | call => exact (Standing.driven_duringCall _ _).trans ih
      | _ => exact ih
  | unseen before step ih =>
      cases step with
      | finish | crash => exact ih

/-- A signal is turned away because the session is closed, or because its driver is over and will
never close it. -/
theorem Life.refused (life : Life panics id compiler events view) {first rest : Events S}
    {mine : Bool} {signal : Signal S}
    (turned : events = first ++ (mine, .op (.send id signal) false) :: rest) :
    (∃ left, (true, .op (.shut id) left) ∈ first) ∨
      view.alive = false ∧ view.session.phase ≠ .closed ∧ panics := by
  induction life generalizing rest with
  | opened => simp at turned
  | @seen events view entry after before step ih =>
      rcases List.eq_nil_or_concat rest with rfl | ⟨earlier, final, rfl⟩
      · obtain ⟨rfl, same⟩ := List.append_inj' turned rfl
        obtain rfl := List.singleton_inj.mp same
        obtain ⟨book, placed⟩ := before.placed
        have refuses : ∀ {session : Session S}, view.session.Moves id (.send id signal) false session →
            view.session.phase = .closed ∨
              view.alive = false ∧ session.phase ≠ .closed ∧ panics := by
          intro session moves
          have still := moves.closed_iff
          cases moves with
          | other elsewhere => exact absurd rfl elsewhere
          | refused closed => exact .inl closed
          | unheard open_ deaf =>
              have gone := (placed.answers deaf).resolve_left fun shut => open_ (placed.closed.mpr shut)
              refine .inr ⟨gone, fun closed => ?_, ?_⟩
              · exact (still.mp closed).elim open_ nofun
              · exact (placed.ended gone).resolve_left fun shut => open_ (placed.closed.mpr shut)
        cases step with
        | op alive allowed expected moves =>
            refine .inl (before.closed_iff.mp ((refuses moves).resolve_right ?_))
            rintro ⟨gone, -⟩
            exact nomatch alive.symm.trans gone
        | visit open_ moves => exact (refuses moves).imp_left before.closed_iff.mp
      · rw [List.concat_eq_append, ← List.cons_append, ← List.append_assoc] at turned
        refine (ih (List.append_inj' turned rfl).1).imp_right ?_
        rintro ⟨gone, open_, panicked⟩
        cases step with
        | op alive | call alive | request alive => exact nomatch alive.symm.trans gone
        | visit unreserved moves =>
            refine ⟨gone, fun closed => ?_, panicked⟩
            rcases moves.closed_iff.mp closed with earlier | rfl
            · exact open_ earlier
            · exact unreserved rfl
        | visitCall | visitRequest => exact ⟨gone, open_, panicked⟩
  | unseen before step ih =>
      refine (ih turned).imp_right ?_
      rintro ⟨gone, -⟩
      cases step with
      | finish alive | crash alive => exact nomatch alive.symm.trans gone

end SessionView

end Bundler
