import Bundler.Proofs.Compiler.SessionProtocol

/-!
# Conduct of visitors and runs

Everybody but the drivers of sessions: visitors, whatever task they are called in, and the
tasks of runs and of their phases. `visitor_minds` says that visitors leave the standing of
their task as they find it, so that a driver finds its book unchanged when a callback or an
observer returns.
-/

namespace Bundler

variable {S : Setting} {α β : Type}

namespace Standing

variable {standing : Standing S}

/-- Code outside may be called, and no callback was turned away. -/
structure Settled (standing : Standing S) : Prop extends standing.Steady where
  refused : standing.refused = none

/-- The task has no run of a compiler under way by its book. -/
def Spares (standing : Standing S) (compiler : CompilerId) : Prop :=
  ∀ book, standing.book = some book → ¬ (book.compiler = compiler ∧ book.place.inRun = true)

theorem settled_empty : Settled ({} : Standing S) where
  opening := rfl
  held _ none := nomatch none
  refused := rfl

theorem ends_empty : Ends ({} : Standing S) where
  refused := rfl
  closed _ none := nomatch none

theorem spares_empty (compiler : CompilerId) : Spares ({} : Standing S) compiler :=
  fun _ none => nomatch none

/-- Taking a compiler that the task does not have. -/
theorem Settled.acquire (settled : standing.Settled) (compiler : CompilerId) :
    Settled { standing with holds := compiler :: standing.holds } where
  opening := settled.opening
  held book found inRun := List.mem_cons_of_mem compiler (settled.held book found inRun)
  refused := settled.refused

theorem Settled.spares (settled : standing.Settled) {compiler : CompilerId}
    (free : compiler ∉ standing.holds) : standing.Spares compiler := by
  rintro book found ⟨rfl, inRun⟩
  exact free (settled.held book found inRun)

/-- A call of a task that owes no callback is one that its standing permits. -/
theorem AllowsCall.permits {outside : Call S} (allowed : standing.AllowsCall outside)
    (refused : standing.refused = none) : standing.PermitsCall outside := by
  rcases allowed.2 with madeUp | permitted
  · cases outside with
    | notify callback => exact nomatch refused.symm.trans madeUp
    | _ => exact madeUp.elim
  · exact permitted.2

section Effects

theorem after_acquire (compiler : CompilerId) :
    standing.after (.acquire compiler : Op S) () =
      { standing with holds := compiler :: standing.holds, opening := none } := by
  cases standing with
  | mk holds opening refused book => cases book <;> rfl

/-- Whoever gets a compiler for a run has to begin it. -/
theorem after_beginRun (compiler : CompilerId) :
    standing.after (.shift compiler .beginRun : Op S) true =
      { standing with opening := some (.called compiler) } := by
  cases standing with
  | mk holds opening refused book => cases book <;> rfl

theorem after_release_of_spares {compiler : CompilerId} (spares : standing.Spares compiler) :
    standing.after (.release compiler : Op S) () =
      { standing with holds := standing.holds.erase compiler } := by
  obtain ⟨holds, opening, refused, book⟩ := standing
  cases book with
  | none => rfl
  | some book =>
      have same : book.release compiler = book := if_neg (spares book rfl)
      simp [after, holdsAfter, openingAfter, refusedAfter, Book.after, same]

/-- An operation that no book, no run and no opening depends on. -/
theorem after_eq_self {operation : Op S} {reply : operation.Reply}
    (holds : standing.holdsAfter operation = standing.holds)
    (opening : standing.openingAfter operation reply = standing.opening)
    (refused : standing.refusedAfter operation reply = standing.refused)
    (book : ∀ book : Book S, book.after operation reply = book) :
    standing.after operation reply = standing := by
  obtain ⟨_, _, _, held⟩ := standing
  rw [after, holds, opening, refused]
  cases held <;> simp [book]

theorem duringCall_eq_self {outside : Call S} (refused : standing.refused = none)
    (book : ∀ book, standing.book = some book → book.during outside = book) :
    standing.duringCall outside = standing := by
  obtain ⟨holds, opening, _, held⟩ := standing
  obtain rfl := refused
  cases held with
  | none => rfl
  | some held => simp [duringCall, book held rfl]

end Effects

/-- What is open to visitors is allowed to every task, and does not change where it stands. -/
theorem Settled.opens (settled : standing.Settled) (operation : Op S)
    (allowed : operation.Open) :
    standing.Allows operation ∧ ∀ reply, standing.after operation reply = standing := by
  cases operation with
  | createCompiler record =>
      exact ⟨⟨settled.refused, allowed.2⟩, fun _ => after_eq_self rfl rfl rfl fun _ => rfl⟩
  | look | setParent | setInput | setOutput | setWatcher | register | newCompilation | lookCache
  | setCache | retain | lookSession | dropHandle | deliver =>
      exact ⟨⟨settled.refused, trivial⟩, fun _ => after_eq_self rfl rfl rfl fun _ => rfl⟩
  | _ => exact allowed.elim

theorem Settled.callable (settled : standing.Settled) (outside : Call S)
    (allowed : outside.Open) :
    standing.AllowsCall outside ∧ standing.duringCall outside = standing := by
  cases outside with
  | answer | isFile | read | purge | mkdir | write =>
      exact ⟨⟨settled.toSteady, .inr ⟨settled.refused, trivial⟩⟩,
        duringCall_eq_self settled.refused fun _ _ => rfl⟩
  | _ => exact allowed.elim

/-- The phases of a run may be done by a task whose book has no run of the compiler. -/
theorem Settled.allowsPhases (settled : standing.Settled) {compiler : CompilerId}
    (spares : standing.Spares compiler) :
    Compiler.AllowsPhases compiler (Op.Open (S := S)) fun outside =>
      standing.AllowsCall outside ∧ standing.duringCall outside = standing where
  look := trivial
  creating := trivial
  retaining _ := trivial
  observing observer occasion ofRun := by
    cases occasion with
    | invalid | watchClose => exact ofRun.elim
    | afterDone finished =>
        refine ⟨⟨settled.toSteady, .inr ⟨settled.refused, fun book found => ?_⟩⟩,
          duringCall_eq_self settled.refused fun book found => if_neg (spares book found)⟩
        exact fun same inRun => absurd ⟨same, inRun⟩ (spares book found)
    | _ =>
        exact ⟨⟨settled.toSteady, .inr ⟨settled.refused, trivial⟩⟩,
          duringCall_eq_self settled.refused fun _ _ => rfl⟩
  adjusting _ _ _ := ⟨⟨settled.toSteady, .inr ⟨settled.refused, trivial⟩⟩,
    duringCall_eq_self settled.refused fun _ _ => rfl⟩
  deciding _ _ := ⟨⟨settled.toSteady, .inr ⟨settled.refused, trivial⟩⟩,
    duringCall_eq_self settled.refused fun _ _ => rfl⟩
  building _ _ := ⟨⟨settled.toSteady, .inr ⟨settled.refused, trivial⟩⟩,
    duringCall_eq_self settled.refused fun _ _ => rfl⟩
  making _ _ := settled.callable _ trivial
  writing _ _ _ := settled.callable _ trivial

end Standing

namespace Prog.Heeds

variable {standing : Standing S} {ending : β → Standing S → Prop}

/-- An operation that leads to another standing. -/
theorem move {operation : Op S} {next : operation.Reply → Prog S β}
    (left : operation.Reply → Standing S) (allowed : standing.Allows operation)
    (moved : ∀ reply, standing.after operation reply = left reply)
    (rest : ∀ reply, standing.Expects operation reply →
      (next reply).Heeds (protocol S) ending (left reply)) :
    (Prog.perform operation >>= next).Heeds (protocol S) ending standing := by
  refine .perform allowed fun reply expected => ?_
  rw [show (protocol S).after standing operation reply = left reply from moved reply]
  exact rest reply expected

/-- An operation that does not change where the task stands. -/
theorem stay {operation : Op S} {next : operation.Reply → Prog S β}
    (allowed : standing.Allows operation)
    (kept : ∀ reply, standing.after operation reply = standing)
    (rest : ∀ reply, (next reply).Heeds (protocol S) ending standing) :
    (Prog.perform operation >>= next).Heeds (protocol S) ending standing :=
  move (fun _ => standing) allowed kept fun reply _ => rest reply

/-- A call that leads to another standing. -/
theorem moveCall {outside : Call S} {next : outside.Reply → Prog S β} (left : Standing S)
    (allowed : standing.AllowsCall outside) (moved : standing.duringCall outside = left)
    (rest : ∀ reply, (next reply).Heeds (protocol S) ending left) :
    (Prog.invoke outside >>= next).Heeds (protocol S) ending standing := by
  refine .invoke allowed fun reply => ?_
  rw [show (protocol S).during standing outside = left from moved]
  exact rest reply

end Prog.Heeds

namespace Compiler

variable {standing : Standing S} {compiler : CompilerId}

/-- A program within what a settled task may do. -/
theorem minds_of_within {program : Prog S α} (settled : standing.Settled)
    (within : program.Within Op.Open fun outside =>
      standing.AllowsCall outside ∧ standing.duringCall outside = standing) :
    program.Minds (protocol S) standing :=
  .of_within within settled.opens fun _ => id

/-- Telling of an occasion other than `after_done` or `watch_close`. -/
theorem tell_minds {occasion : Occasion} (settled : standing.Settled)
    (early : ∀ finished, occasion ≠ .afterDone finished) (still : occasion ≠ .watchClose) :
    (tell compiler occasion : Prog S Unit).Minds (protocol S) standing := by
  refine minds_of_within settled (within_tell trivial fun observer => ?_)
  cases occasion with
  | afterDone finished => exact absurd rfl (early finished)
  | watchClose => exact absurd rfl still
  | _ =>
      exact ⟨⟨settled.toSteady, .inr ⟨settled.refused, trivial⟩⟩,
        Standing.duringCall_eq_self settled.refused fun _ _ => rfl⟩

theorem tellFailure_minds (settled : standing.Settled) (result : RunResult) :
    (tellFailure compiler result : Prog S Unit).Minds (protocol S) standing := by
  cases result with
  | ok value => exact .done rfl
  | error error => exact tell_minds settled nofun nofun

/-! ## What visitors do -/

section Visitors

/-- A change of the owner, unless a run or a session begins with it. -/
theorem shift_keeps {transition : Transition} (unbegun : transition ≠ .beginRun)
    (unopened : transition ≠ .beginWatch) (accepted : Bool) :
    standing.after (.shift compiler transition : Op S) accepted = standing := by
  cases transition with
  | beginRun => exact absurd rfl unbegun
  | beginWatch => exact absurd rfl unopened
  | _ => exact Standing.after_eq_self rfl rfl rfl fun _ => rfl

theorem run_minds (settled : standing.Settled) (callback : S.Callback) :
    (run compiler callback).Minds (protocol S) standing := by
  obtain ⟨holds, opening, refused, book⟩ := standing
  obtain rfl : opening = none := settled.opening
  refine .perform ⟨settled.refused, rfl⟩ fun accepted _ => ?_
  cases accepted with
  | false =>
      obtain ⟨allowed, kept⟩ :=
        settled.callable (.answer callback (.error .concurrent)) trivial
      rw [show (protocol S).after _ (.shift compiler .beginRun) false = _ from
        Standing.after_eq_self rfl rfl rfl fun _ => rfl]
      exact .call allowed fun _ => .done kept
  | true =>
      rw [show (protocol S).after _ (.shift compiler .beginRun) true = _ from
        Standing.after_beginRun compiler]
      refine .perform ⟨settled.refused, rfl⟩ fun task _ => .done ?_
      cases book <;> rfl

/-- A task that starts a session is where it was when the driver has begun. -/
theorem watch_minds (settled : standing.Settled) (options : WatchOptions) (handler : S.Handler) :
    (watch compiler options handler).Minds (protocol S) standing := by
  obtain ⟨holds, opening, refused, book⟩ := standing
  obtain rfl : opening = none := settled.opening
  obtain rfl : refused = none := settled.refused
  refine .perform ⟨rfl, rfl⟩ fun accepted _ => ?_
  cases accepted with
  | false => exact .done (Standing.after_eq_self rfl rfl rfl fun _ => rfl)
  | true =>
      have admitted : Standing.after ⟨holds, none, none, book⟩ (.shift compiler .beginWatch) true =
          ⟨holds, some (.admitted compiler), none, book⟩ := by cases book <;> rfl
      rw [show (protocol S).after _ (.shift compiler .beginWatch) true = _ from admitted]
      have opened : ∀ session, Standing.after ⟨holds, some (.admitted compiler), none, book⟩
          (.openSession compiler) session =
          ⟨holds, some (.opened compiler session), none, book⟩ := by cases book <;> exact fun _ => rfl
      refine .move _ ⟨rfl, rfl⟩ opened fun session _ => ?_
      refine .perform ⟨rfl, rfl, rfl, rfl⟩ fun driver _ => .done ?_
      cases book <;> rfl

theorem runAsChild_minds (settled : standing.Settled) :
    (runAsChild compiler : Prog S RunResult).Minds (protocol S) standing := by
  refine .perform ⟨settled.refused, settled.opening⟩ fun accepted _ => ?_
  cases accepted with
  | false => exact .done (Standing.after_eq_self rfl rfl rfl fun _ => rfl)
  | true =>
      rw [show (protocol S).after standing (.shift compiler .beginRun) true = _ from
        Standing.after_beginRun compiler]
      refine .move (fun _ => { standing with holds := compiler :: standing.holds })
        ⟨settled.refused, .inl rfl⟩ (fun _ => ?_) fun _ free => ?_
      · rw [Standing.after_acquire, settled.opening]
      have taken := settled.acquire compiler
      have spares : ({ standing with holds := compiler :: standing.holds } : Standing S).Spares
          compiler := settled.spares free
      have allows := taken.allowsPhases spares
      refine .after_minds (minds_of_within taken allows.within_compile) fun result => ?_
      refine .after_minds (minds_of_within taken allows.within_tellFailure) fun _ => ?_
      refine .stay ⟨settled.refused, trivial⟩ (shift_keeps nofun nofun) fun _ => ?_
      refine .move _ ⟨settled.refused, List.mem_cons_self, fun book found here inRun =>
        absurd ⟨here, inRun⟩ (spares book found)⟩
        (fun _ => Standing.after_release_of_spares spares) fun _ _ => .done ?_
      exact congrArg (fun holds => { standing with holds }) (List.erase_cons_head ..)

/-- A signal is queued, or its callback is called at once. -/
theorem send_minds (settled : standing.Settled) (session : SessionId) (signal : Signal S) :
    (do if !(← Prog.perform (.send session signal)) then
          Prog.invoke (.notify signal.callback) : Prog S Unit).Minds (protocol S) standing := by
  obtain ⟨holds, opening, refused, book⟩ := standing
  obtain rfl : refused = none := settled.refused
  refine .perform ⟨rfl, trivial⟩ fun accepted _ => ?_
  cases accepted with
  | true => exact .done (Standing.after_eq_self rfl rfl rfl fun _ => rfl)
  | false =>
      have turnedAway : Standing.after ⟨holds, opening, none, book⟩ (.send session signal) false =
          ⟨holds, opening, some signal.callback, book⟩ := by cases book <;> rfl
      rw [show (protocol S).after _ (.send session signal) false = _ from turnedAway]
      exact .call ⟨⟨settled.opening, settled.held⟩, .inl rfl⟩ fun _ => .done rfl

/-- Observers may be told of an invalidation at any time. -/
theorem tell_invalid_minds (settled : standing.Settled) (path : Option Path) :
    (tell compiler (.invalid path) : Prog S Unit).Minds (protocol S) standing :=
  tell_minds settled nofun nofun

theorem invalidate_minds (settled : standing.Settled) (session : SessionId)
    (callback : S.Callback) :
    (invalidate session callback).Minds (protocol S) standing := by
  rw [invalidate]
  obtain ⟨allowed, kept⟩ := settled.opens (.lookSession session) trivial
  refine .stay allowed kept fun seen => ?_
  have sends := send_minds settled session (.invalidate callback)
  split
  · exact .after_minds (tell_invalid_minds settled none) fun _ => sends
  · exact sends

theorem close_minds (settled : standing.Settled) (session : SessionId)
    (callback : S.Callback) :
    (close session callback).Minds (protocol S) standing :=
  send_minds settled session (.close callback)

end Visitors

/-- Visitors leave the standing of their task as they find it. -/
theorem visitor_minds {program : Prog S α} {panics : Prop} (visitor : program.Visitor panics)
    (settled : standing.Settled) : program.Minds (protocol S) standing := by
  induction visitor with
  | done value => exact .done rfl
  | op allowed _ ih =>
      obtain ⟨permitted, kept⟩ := settled.opens _ allowed
      exact .stay permitted kept ih
  | call allowed _ ih =>
      obtain ⟨permitted, kept⟩ := settled.callable _ allowed
      exact .moveCall _ permitted kept ih
  | request _ ih => exact .request ih
  | run _ ih => exact .after_minds (run_minds settled _) ih
  | watch _ ih => exact .after_minds (watch_minds settled _ _) ih
  | runAsChild _ ih => exact .after_minds (runAsChild_minds settled) ih
  | invalidate _ ih => exact .after_minds (invalidate_minds settled _ _) ih
  | close _ ih => exact .after_minds (close_minds settled _ _) ih
  | panic => exact .panic trivial

/-! ## The tasks of runs -/

/-- A single run has no book. -/
theorem runToEnd_heeds (callback : S.Callback) :
    (runToEnd compiler callback).Heeds (protocol S) (fun _ left => left = {})
      { opening := some (.called compiler) } := by
  have taken : Standing.Settled ({ holds := [compiler] } : Standing S) :=
    Standing.settled_empty.acquire compiler
  have spares : Standing.Spares ({ holds := [compiler] } : Standing S) compiler :=
    fun _ none => nomatch none
  have allows := taken.allowsPhases spares
  refine .perform ⟨rfl, .inl rfl⟩ fun _ _ => ?_
  refine .perform ⟨rfl, List.mem_singleton.mpr rfl, fun _ none => nomatch none⟩ fun _ _ => ?_
  refine .perform ⟨rfl, rfl⟩ fun worker _ => ?_
  refine .perform ⟨rfl, trivial⟩ fun result _ => ?_
  refine .after_minds (minds_of_within taken allows.within_tellFailure) fun _ => ?_
  refine .perform ⟨rfl, trivial⟩ fun _ _ => ?_
  refine .invoke (taken.callable (.answer callback result) trivial).1 fun _ => ?_
  refine .after_minds (minds_of_within taken (within_tell trivial fun observer =>
    allows.observing observer _ trivial)) fun _ => ?_
  refine .op ⟨rfl, List.mem_singleton.mpr rfl, fun _ none => nomatch none⟩ fun _ _ => .done ?_
  exact congrArg (fun holds => ({ holds } : Standing S)) (List.erase_cons_head ..)

theorem reporting_heeds {phases : Phase S Compilation}
    (minds : phases.run.Minds (protocol S) {}) :
    (reporting phases).Heeds (protocol S) (protocol S).goesOn {} :=
  .after_minds minds fun _ => .perform ⟨rfl, trivial⟩ fun _ _ => .done Standing.ends_empty

theorem phases_heeds : (reporting (phases compiler)).Heeds (protocol S) (protocol S).goesOn {} :=
  reporting_heeds (minds_of_within Standing.settled_empty
    (Standing.settled_empty.allowsPhases (Standing.spares_empty compiler)).within_phases)

theorem watchPhases_heeds :
    (reporting (watchPhases compiler)).Heeds (protocol S) (protocol S).goesOn {} :=
  reporting_heeds (minds_of_within Standing.settled_empty
    (Standing.settled_empty.allowsPhases (Standing.spares_empty compiler)).within_watchPhases)

end Compiler

end Bundler
