import Bundler.Proofs.Compiler.SessionLife

/-!
# Phases of sessions

The phase of a session never goes back. A session is closed exactly when its driver has shut
it, and from then on no signal is queued for it. Before that every signal is queued, unless
the driver is over.
-/

namespace Bundler

variable {S : Setting} {E : Environment S}

/-- How far a session is. -/
def SessionPhase.rank : SessionPhase → Nat
  | active => 0
  | closing => 1
  | closed => 2

theorem SessionPhase.rank_le (phase : SessionPhase) : phase.rank ≤ SessionPhase.closed.rank := by
  cases phase <;> decide

namespace Session

variable {id : SessionId} {session after : Session S} {operation : Op S}
  {reply : operation.Reply}

/-- No operation takes a session back to an earlier phase. -/
theorem Moves.rank_le (moves : session.Moves id operation reply after) :
    session.phase.rank ≤ after.phase.rank := by
  have asked : ∀ signal, session.phase ≠ .closed →
      session.phase.rank ≤ (session.phaseAfter signal).rank := by
    intro signal open_
    cases signal with
    | invalidate callback => exact Nat.le_refl _
    | close callback =>
        change _ ≤ SessionPhase.closing.rank
        cases phase : session.phase with
        | closed => exact absurd phase open_
        | active | closing => decide
  cases moves with
  | queued open_ => exact asked _ open_
  | unheard open_ => exact asked _ open_
  | shut => exact session.phase.rank_le
  | _ => exact Nat.le_refl _

/-- Only its driver closes a session. -/
theorem Moves.closed_iff (moves : session.Moves id operation reply after) :
    after.phase = .closed ↔ session.phase = .closed ∨ operation = .shut id := by
  have asked : ∀ signal, session.phase ≠ .closed → session.phaseAfter signal ≠ .closed := by
    intro signal open_
    cases signal with
    | invalidate callback => exact open_
    | close callback => exact nofun
  cases moves with
  | queued open_ => simp [asked _ open_, open_]
  | unheard open_ => simp [asked _ open_, open_]
  | shut => simp
  | other elsewhere =>
      have different : operation ≠ .shut id := by
        rintro rfl
        exact elsewhere rfl
      simp [different]
  | _ => simp

/-- A closed session has no signals and takes none. -/
def Emptied (session : Session S) : Prop :=
  session.phase = .closed → session.signals = [] ∧ session.answers = false

theorem Moves.emptied (moves : session.Moves id operation reply after)
    (emptied : session.Emptied) : after.Emptied := by
  cases moves with
  | queued open_ answers =>
      rename_i signal
      cases signal with
      | invalidate callback => exact fun closed => absurd closed open_
      | close callback => exact nofun
  | unheard open_ answers =>
      rename_i signal
      cases signal with
      | invalidate callback => exact fun closed => absurd closed open_
      | close callback => exact nofun
  | shut => exact fun _ => ⟨rfl, rfl⟩
  | left => exact fun _ => ⟨rfl, rfl⟩
  | wokenBySignal first => exact fun closed => nomatch first.symm.trans (emptied closed).1
  | tookSignals => exact fun closed => ⟨rfl, (emptied closed).2⟩
  | _ => exact emptied

/-- A session goes on to take signals until its driver shuts or leaves it. -/
theorem Moves.answers_end (moves : session.Moves id operation reply after)
    (unheard : after.answers = false) :
    session.answers = false ∨ operation = .shut id ∨ operation = .leave id := by
  cases moves with
  | shut => exact .inr (.inl rfl)
  | left => exact .inr (.inr rfl)
  | _ => exact .inl unheard

/-- A session goes on to take change sets until its driver leaves it. -/
theorem Moves.receives_end (moves : session.Moves id operation reply after)
    (unheard : after.receives = false) : session.receives = false ∨ operation = .leave id := by
  cases moves with
  | left => exact .inr rfl
  | _ => exact .inl unheard

/-- A session that takes no change sets never does again. -/
theorem Moves.receives_ended (moves : session.Moves id operation reply after)
    (unheard : session.receives = false) : after.receives = false := by
  cases moves with
  | left => rfl
  | _ => exact unheard

theorem Moves.answers_ended (moves : session.Moves id operation reply after)
    (unheard : session.answers = false) : after.answers = false := by
  cases moves with
  | shut | left => rfl
  | _ => exact unheard

end Session

namespace Book

variable {book : Book S} {standing : Standing S} {operation : Op S}

/-- A driver shuts its session once, and for good. -/
theorem shut_after (reply : operation.Reply) (held : standing.book = some book)
    (allowed : standing.Allows operation) : (book.after operation reply).place = .shut ↔
      book.place = .shut ∨ operation = .shut book.session := by
  have permits := allowed.2
  have elsewhere : ∀ {place : Place}, book.place ≠ .shut → place ≠ .shut →
      operation ≠ .shut book.session →
      (place = .shut ↔ book.place = .shut ∨ operation = .shut book.session) := by
    intro place here there other
    simp [here, there, other]
  cases operation with
  | await session =>
      cases reply with
      | signal signal => simp [Book.after, Book.wake, place_signal]
      | changes changes => simp [Book.after, Book.wake, Book.receive]
      | gone => simp [Book.after, Book.wake]
  | takeSignals session => simp [Book.after, place_drain]
  | takeChanges session => cases reply <;> simp [Book.after, Book.receive]
  | setChanges compiler changes =>
      have place := (permits.2 book held).2.place
      exact elsewhere (by rw [place]; decide) (by simp [Book.after, Book.begin]) (by simp)
  | spawn job =>
      cases job with
      | watchPhases compiler =>
          obtain ⟨_, found, -, place⟩ := permits
          obtain rfl := Option.some.inj (held.symm.trans found)
          exact elsewhere (by rw [place]; decide) (by simp [Book.after]) (by simp)
      | _ => simp [Book.after]
  | release compiler =>
      simp only [Book.after, Book.release]
      split
      · rename_i running
        refine elsewhere (fun shut => ?_) (by simp) (by simp)
        rw [shut] at running
        cases running.2
      · simp
  | shut session =>
      obtain ⟨_, found, rfl, -⟩ := permits
      obtain rfl := Option.some.inj (held.symm.trans found)
      simp [Book.after]
  | _ => simp [Book.after]

/-- No call opens or shuts a session. -/
theorem shut_during {outside : Call S} (held : standing.book = some book)
    (permitted : standing.PermitsCall outside) :
    (book.during outside).place = .shut ↔ book.place = .shut := by
  cases outside with
  | handle handler result =>
      obtain ⟨_, found, place⟩ := permitted
      obtain rfl := Option.some.inj (held.symm.trans found)
      simp [Book.during, place]
  | notify callback => simp [Book.during, place_settle]
  | observe compiler observer occasion =>
      cases occasion with
      | afterDone finished =>
          simp only [Book.during]
          split
          · rename_i running
            have open_ : book.place ≠ .shut := by
              intro shut
              rw [shut] at running
              cases running.2
            simp [open_]
          · rfl
      | _ => rfl
  | _ => rfl

end Book

namespace SessionView

variable {panics : Prop} {id : SessionId} {compiler : CompilerId}
  {events : List (Bool × Event S)} {view : SessionView S}

/-- How the phase of a session and the place of its driver belong together. -/
structure Placed (panics : Prop) (id : SessionId) (view : SessionView S) (book : Book S) : Prop where
  held : view.standing.book = some book
  mine : book.session = id
  closed : view.session.phase = .closed ↔ book.place = .shut
  emptied : view.session.Emptied
  /-- As long as a session is not closed and its driver not over, signals are queued. -/
  answers : view.session.answers = false → book.place = .shut ∨ view.alive = false
  receives : view.session.receives = false → book.place = .shut ∨ view.alive = false
  over_ : view.alive = false → view.session.answers = false
  /-- A driver is over when it has closed its session, unless it panicked. -/
  ended : view.alive = false → book.place = .shut ∨ panics

/-- An event that moves no session and no driver. -/
theorem Placed.kept {later : SessionView S} {book other : Book S} (placed : Placed panics id view book)
    (held : later.standing.book = some other) (mine : other.session = book.session)
    (shut : other.place = .shut ↔ book.place = .shut) (session : later.session = view.session)
    (alive : later.alive = view.alive) : Placed panics id later other where
  held := held
  mine := mine.trans placed.mine
  closed := by rw [session, shut, placed.closed]
  emptied := session ▸ placed.emptied
  answers unheard := by
    rw [shut, alive]
    exact placed.answers (session ▸ unheard)
  receives unheard := by
    rw [shut, alive]
    exact placed.receives (session ▸ unheard)
  over_ gone := by
    rw [session]
    exact placed.over_ (alive ▸ gone)
  ended gone := by
    rw [shut]
    exact placed.ended (alive ▸ gone)

theorem Life.placed (life : Life panics id compiler events view) : ∃ book, Placed panics id view book := by
  induction life with
  | opened =>
      have kept : ∀ {absurd : Prop}, true = false → absurd := nofun
      exact ⟨_, rfl, rfl, by simp [SessionView.opened], nofun, kept, kept, kept, kept⟩
  | @seen events view event after before step ih =>
      obtain ⟨book, placed⟩ := ih
      cases step with
      | @op operation reply session alive allowed expected moves =>
          have shut := book.shut_after reply placed.held allowed
          refine ⟨book.after operation reply, ?_, ?_, ?_, ?_, ?_, ?_, ?_, ?_⟩
          · simp [Standing.after, placed.held]
          · exact (book.after_same operation reply).1.trans placed.mine
          · rw [moves.closed_iff, shut, placed.closed, placed.mine]
          · exact moves.emptied placed.emptied
          · intro unheard
            refine .inl (shut.mpr ?_)
            rcases moves.answers_end unheard with earlier | rfl | rfl
            · rcases placed.answers earlier with closed | gone
              · exact .inl closed
              · exact absurd (alive.symm.trans gone) (by decide)
            · exact .inr (by rw [placed.mine])
            · obtain ⟨_, found, -, closed, -⟩ := allowed.2
              obtain rfl := Option.some.inj (placed.held.symm.trans found)
              exact .inl closed
          · intro unheard
            refine .inl (shut.mpr (.inl ?_))
            rcases moves.receives_end unheard with earlier | rfl
            · rcases placed.receives earlier with closed | gone
              · exact closed
              · exact absurd (alive.symm.trans gone) (by decide)
            · obtain ⟨_, found, -, closed, -⟩ := allowed.2
              obtain rfl := Option.some.inj (placed.held.symm.trans found)
              exact closed
          · exact fun gone => absurd (alive.symm.trans gone) (by decide)
          · exact fun gone => absurd (alive.symm.trans gone) (by decide)
      | @call outside alive allowed =>
          cases refused : view.standing.refused with
          | some callback =>
              exact ⟨book, placed.kept (by simp [Standing.duringCall, refused, placed.held]) rfl
                Iff.rfl rfl rfl⟩
          | none =>
              have permitted := allowed.permits refused
              exact ⟨book.during outside, placed.kept
                (by simp [Standing.duringCall, refused, placed.held])
                (book.during_same outside).1 (book.shut_during placed.held permitted) rfl rfl⟩
      | request => exact ⟨book, placed⟩
      | @visit operation reply session open_ moves =>
          have unshut : operation ≠ .shut id := by
            rintro rfl
            exact open_ rfl
          refine ⟨book, placed.held, placed.mine, ?_, moves.emptied placed.emptied, ?_, ?_,
            fun gone => moves.answers_ended (placed.over_ gone), placed.ended⟩
          · rw [moves.closed_iff, ← placed.closed]
            simp [unshut]
          · intro unheard
            rcases moves.answers_end unheard with earlier | same | rfl
            · exact placed.answers earlier
            · exact absurd same unshut
            · exact absurd rfl open_
          · intro unheard
            rcases moves.receives_end unheard with earlier | rfl
            · exact placed.receives earlier
            · exact absurd rfl open_
      | visitCall => exact ⟨book, placed⟩
      | visitRequest => exact ⟨book, placed⟩
  | unseen before step ih =>
      obtain ⟨book, placed⟩ := ih
      cases step with
      | finish alive ends =>
          have closed := (ends.closed book placed.held).1
          exact ⟨book, placed.held, placed.mine, placed.closed, placed.emptied,
            fun _ => .inl closed, fun _ => .inl closed, fun _ => (placed.emptied (placed.closed.mpr closed)).2,
            fun _ => .inl closed⟩
      | crash alive permitted =>
          exact ⟨book, placed.held, placed.mine, placed.closed, fun _ => ⟨rfl, rfl⟩,
            fun _ => .inr rfl, fun _ => .inr rfl, fun _ => rfl, fun _ => .inr permitted⟩

end SessionView

end Bundler
