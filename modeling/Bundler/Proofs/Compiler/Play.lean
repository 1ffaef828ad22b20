import Bundler.Compiler.Watch

/-!
# Plays of programs

A play is what a program does from its beginning to its end, with every answer
that it was given. All answers are possible, so the plays of a program cover every
state that compilers can share and every behaviour of code outside. Each form of
program has one lemma that says what its plays are. A path is what a program did up
to some moment, with what is left of it.
-/

namespace Bundler

variable {S : Setting} {α β : Type}

/-- One thing that a task did, with the answer it was given. -/
inductive Deed (S : Setting) where
  | op (operation : Op S) (reply : operation.Reply)
  | call (outside : Call S) (reply : outside.Reply)
  | request (wish : S.Request) (answer : S.Answer wish)

namespace Prog

/-- What a program does from its beginning to its end, and the value it ends with. -/
inductive Play : Prog S α → List (Deed S) → α → Prop where
  | done (value : α) : Play (.done value) [] value
  | op {operation : Op S} {next : operation.Reply → Prog S α} {reply : operation.Reply}
      {deeds : List (Deed S)} {value : α} (rest : Play (next reply) deeds value) :
      Play (.op operation next) (.op operation reply :: deeds) value
  | call {outside : Call S} {next : outside.Reply → Prog S α} {reply : outside.Reply}
      {deeds : List (Deed S)} {value : α} (rest : Play (next reply) deeds value) :
      Play (.call outside next) (.call outside reply :: deeds) value
  | request {wish : S.Request} {next : S.Answer wish → Prog S α} {answer : S.Answer wish}
      {deeds : List (Deed S)} {value : α} (rest : Play (next answer) deeds value) :
      Play (.request wish next) (.request wish answer :: deeds) value

variable {deeds : List (Deed S)} {value : α}

@[simp]
theorem play_pure {result : α} :
    Play (pure result : Prog S α) deeds value ↔ deeds = [] ∧ value = result := by
  constructor
  · intro play
    cases play
    exact ⟨rfl, rfl⟩
  · rintro ⟨rfl, rfl⟩
    exact .done value

theorem Play.bind {program : Prog S β} {next : β → Prog S α} {first rest : List (Deed S)}
    {middle : β} (before : Play program first middle) (after : Play (next middle) rest value) :
    Play (program.bind next) (first ++ rest) value := by
  induction before with
  | done middle => exact after
  | op _ ih => exact .op (ih after)
  | call _ ih => exact .call (ih after)
  | request _ ih => exact .request (ih after)

/-- A play of two programs one after the other is a play of the first and then one of
the second. -/
theorem play_bind {program : Prog S β} {next : β → Prog S α} :
    Play (program >>= next) deeds value ↔
      ∃ first middle rest,
        Play program first middle ∧ Play (next middle) rest value ∧ deeds = first ++ rest := by
  constructor
  · intro play
    change Play (program.bind next) deeds value at play
    induction program generalizing deeds with
    | done middle => exact ⟨[], middle, deeds, .done middle, play, rfl⟩
    | op operation follow ih =>
        cases play with
        | op play =>
            obtain ⟨first, middle, rest, before, after, rfl⟩ := ih _ play
            exact ⟨_, middle, rest, .op before, after, rfl⟩
    | call outside follow ih =>
        cases play with
        | call play =>
            obtain ⟨first, middle, rest, before, after, rfl⟩ := ih _ play
            exact ⟨_, middle, rest, .call before, after, rfl⟩
    | request wish follow ih =>
        cases play with
        | request play =>
            obtain ⟨first, middle, rest, before, after, rfl⟩ := ih _ play
            exact ⟨_, middle, rest, .request before, after, rfl⟩
    | panic => cases play
  · rintro ⟨first, middle, rest, before, after, rfl⟩
    exact before.bind after

@[simp]
theorem play_perform {operation : Op S} {reply : operation.Reply} :
    Play (perform operation) deeds reply ↔ deeds = [.op operation reply] := by
  constructor
  · intro play
    cases play with
    | op play =>
        cases play
        rfl
  · rintro rfl
    exact .op (.done reply)

@[simp]
theorem play_invoke {outside : Call S} {reply : outside.Reply} :
    Play (invoke outside) deeds reply ↔ deeds = [.call outside reply] := by
  constructor
  · intro play
    cases play with
    | call play =>
        cases play
        rfl
  · rintro rfl
    exact .call (.done reply)

@[simp]
theorem play_perform_bind {operation : Op S} {next : operation.Reply → Prog S α} :
    Play (perform operation >>= next) deeds value ↔
      ∃ reply rest, Play (next reply) rest value ∧ deeds = .op operation reply :: rest := by
  rw [play_bind]
  constructor
  · rintro ⟨first, reply, rest, before, after, rfl⟩
    rw [play_perform] at before
    exact ⟨reply, rest, after, by rw [before]; rfl⟩
  · rintro ⟨reply, rest, after, rfl⟩
    exact ⟨_, reply, rest, play_perform.mpr rfl, after, rfl⟩

@[simp]
theorem play_look_bind {compiler : CompilerId} {next : CompilerRecord S → Prog S α} :
    Play (look compiler >>= next) deeds value ↔
      ∃ record rest, Play (next record) rest value ∧ deeds = .op (.look compiler) record :: rest :=
  play_perform_bind

@[simp]
theorem play_invoke_bind {outside : Call S} {next : outside.Reply → Prog S α} :
    Play (invoke outside >>= next) deeds value ↔
      ∃ reply rest, Play (next reply) rest value ∧ deeds = .call outside reply :: rest := by
  rw [play_bind]
  constructor
  · rintro ⟨first, reply, rest, before, after, rfl⟩
    rw [play_invoke] at before
    exact ⟨reply, rest, after, by rw [before]; rfl⟩
  · rintro ⟨reply, rest, after, rfl⟩
    exact ⟨_, reply, rest, play_invoke.mpr rfl, after, rfl⟩

/-- A program whose value is changed at the end. -/
@[simp]
theorem play_map {program : Prog S β} {change : β → α} :
    Play (program >>= fun middle => pure (change middle)) deeds value ↔
      ∃ middle, Play program deeds middle ∧ value = change middle := by
  rw [play_bind]
  constructor
  · rintro ⟨first, middle, rest, before, after, rfl⟩
    obtain ⟨rfl, rfl⟩ := play_pure.mp after
    exact ⟨middle, by simpa using before, rfl⟩
  · rintro ⟨middle, before, rfl⟩
    exact ⟨deeds, middle, [], before, play_pure.mpr ⟨rfl, rfl⟩, by simp⟩

/-- Phases one after the other: the first fails and is the last, or it passes. -/
theorem play_phase {first : Phase S β} {next : β → Phase S α} {result : Except RunError α} :
    Play (first >>= next).run deeds result ↔
      (∃ error, Play first.run deeds (.error error) ∧ result = .error error) ∨
      ∃ before middle rest, Play first.run before (.ok middle) ∧
        Play (next middle).run rest result ∧ deeds = before ++ rest := by
  rw [ExceptT.run_bind, play_bind]
  constructor
  · rintro ⟨before, middle, rest, begun, ended, rfl⟩
    cases middle with
    | error error =>
        obtain ⟨rfl, rfl⟩ := play_pure.mp ended
        exact .inl ⟨error, by simpa using begun, rfl⟩
    | ok middle => exact .inr ⟨before, middle, rest, begun, ended, rfl⟩
  · rintro (⟨error, begun, rfl⟩ | ⟨before, middle, rest, begun, ended, rfl⟩)
    · exact ⟨deeds, .error error, [], begun, play_pure.mpr ⟨rfl, rfl⟩, by simp⟩
    · exact ⟨before, .ok middle, rest, begun, ended, rfl⟩

/-- A program that cannot fail, as a phase. -/
theorem play_lift_bind {program : Prog S β} {next : β → Phase S α} {result : Except RunError α} :
    Play ((liftM program : Phase S β) >>= next).run deeds result ↔
      Play (program >>= fun middle => (next middle).run) deeds result := by
  rw [← ExceptT.run_bind_lift]
  rfl

/-- Looking at a compiler, as a phase. -/
theorem play_lift_look_bind {compiler : CompilerId} {next : CompilerRecord S → Phase S α}
    {result : Except RunError α} :
    Play ((liftM (look compiler) : Phase S (CompilerRecord S)) >>= next).run deeds result ↔
      ∃ record rest, Play (next record).run rest result ∧
        deeds = .op (.look compiler) record :: rest :=
  play_lift_bind.trans play_look_bind

/-! ## Paths -/

/-- What a program did so far, and what is left of it. -/
inductive Path : Prog S α → List (Deed S) → Prog S α → Prop where
  | start (program : Prog S α) : Path program [] program
  | op {operation : Op S} {next : operation.Reply → Prog S α} {reply : operation.Reply}
      {deeds : List (Deed S)} {left : Prog S α} (rest : Path (next reply) deeds left) :
      Path (.op operation next) (.op operation reply :: deeds) left
  | call {outside : Call S} {next : outside.Reply → Prog S α} {reply : outside.Reply}
      {deeds : List (Deed S)} {left : Prog S α} (rest : Path (next reply) deeds left) :
      Path (.call outside next) (.call outside reply :: deeds) left
  | request {wish : S.Request} {next : S.Answer wish → Prog S α} {answer : S.Answer wish}
      {deeds : List (Deed S)} {left : Prog S α} (rest : Path (next answer) deeds left) :
      Path (.request wish next) (.request wish answer :: deeds) left

variable {program middle left : Prog S α} {first rest : List (Deed S)}

theorem Path.trans (before : Path program first middle) (after : Path middle rest left) :
    Path program (first ++ rest) left := by
  induction before with
  | start program => exact after
  | op _ ih => exact .op (ih after)
  | call _ ih => exact .call (ih after)
  | request _ ih => exact .request (ih after)

theorem Path.play (before : Path program first middle) (after : Play middle rest value) :
    Play program (first ++ rest) value := by
  induction before with
  | start program => exact after
  | op _ ih => exact .op (ih after)
  | call _ ih => exact .call (ih after)
  | request _ ih => exact .request (ih after)

/-- A play is a path to the end. -/
theorem Play.path (play : Play program deeds value) : Path program deeds (.done value) := by
  induction play with
  | done value => exact .start _
  | op _ ih => exact .op ih
  | call _ ih => exact .call ih
  | request _ ih => exact .request ih

/-- A path to the end is a play. -/
theorem Path.play_of_done (path : Path program deeds (.done value)) :
    Play program deeds value := by
  simpa using path.play (.done value)

/-- A path of two programs one after the other ends in the first or in the second. -/
theorem Path.of_bind {next : β → Prog S α} {step : Prog S β}
    (path : Path (step >>= next) deeds left) :
    (∃ remaining, Path step deeds remaining ∧ left = remaining >>= next) ∨
    ∃ before value after, Play step before value ∧ Path (next value) after left ∧
      deeds = before ++ after := by
  change Path (step.bind next) deeds left at path
  induction step generalizing deeds with
  | done value => exact .inr ⟨[], value, deeds, .done value, path, rfl⟩
  | op operation follow ih =>
      cases path with
      | start => exact .inl ⟨_, .start _, rfl⟩
      | op path =>
          rcases ih _ path with
            ⟨remaining, within, rfl⟩ | ⟨before, value, after, play, beyond, rfl⟩
          · exact .inl ⟨remaining, .op within, rfl⟩
          · exact .inr ⟨_, value, after, .op play, beyond, rfl⟩
  | call outside follow ih =>
      cases path with
      | start => exact .inl ⟨_, .start _, rfl⟩
      | call path =>
          rcases ih _ path with
            ⟨remaining, within, rfl⟩ | ⟨before, value, after, play, beyond, rfl⟩
          · exact .inl ⟨remaining, .call within, rfl⟩
          · exact .inr ⟨_, value, after, .call play, beyond, rfl⟩
  | request wish follow ih =>
      cases path with
      | start => exact .inl ⟨_, .start _, rfl⟩
      | request path =>
          rcases ih _ path with
            ⟨remaining, within, rfl⟩ | ⟨before, value, after, play, beyond, rfl⟩
          · exact .inl ⟨remaining, .request within, rfl⟩
          · exact .inr ⟨_, value, after, .request play, beyond, rfl⟩
  | panic =>
      cases path with
      | start => exact .inl ⟨.panic, .start _, rfl⟩

end Prog

end Bundler
