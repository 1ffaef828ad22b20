import Bundler.Proofs.Compiler.Play

/-!
# Calls of hooks

A hook is called on the observers that it has at that moment, one after the other
in the order of their registration, up to the first that fails or decides. `Series`
says so for every kind of hook; what one observer does is a parameter of it. The
value that is handed on is the compilation of a hook that adjusts, and nothing for a
hook that only tells.
-/

namespace Bundler.Compiler

variable {S : Setting} {ω σ δ : Type}

/-- What came of one observer. -/
inductive Verdict (σ δ : Type) where
  /-- It went well, and the next observer gets this value. -/
  | passed (value : σ)
  | decided (decision : δ)
  | failed (reason : String)

/-- What a hook call ends with: the last value with a decision, or the error of the
observer that failed. -/
abbrev HookResult (σ δ : Type) := Except RunError (σ × Option δ)

/-- The observers of a hook were called in order, up to the first that failed or
decided. -/
inductive Series (ask : ω → σ → List (Deed S) → Verdict σ δ → Prop) (hook : String) :
    List (Tap ω) → σ → List (Deed S) → HookResult σ δ → Prop where
  | through (value : σ) : Series ask hook [] value [] (.ok (value, none))
  | passed {tap rest value next deeds others result}
      (asked : ask tap.observer value deeds (.passed next))
      (remaining : Series ask hook rest next others result) :
      Series ask hook (tap :: rest) value (deeds ++ others) result
  | decided {tap rest value deeds decision}
      (asked : ask tap.observer value deeds (.decided decision)) :
      Series ask hook (tap :: rest) value deeds (.ok (value, some decision))
  | failed {tap rest value deeds reason}
      (asked : ask tap.observer value deeds (.failed reason)) :
      Series ask hook (tap :: rest) value deeds (.error (.hook hook tap.name reason))

/-- A hook of a compiler was called on the observers that it had at that moment. -/
def Fires (compiler : CompilerId) (name : HookName)
    (ask : Watcher S → σ → List (Deed S) → Verdict σ δ → Prop) (value : σ)
    (deeds : List (Deed S)) (result : HookResult σ δ) : Prop :=
  ∃ record rest, deeds = .op (.look compiler) record :: rest ∧
    Series ask name.text (record.registry.hook name).taps value rest result

/-! ## One observer -/

/-- What the reply of an observer that is told means. -/
def toldVerdict : Except String Unit → Verdict Unit Empty
  | .ok () => .passed ()
  | .error reason => .failed reason

/-- What the reply of an observer that adjusts means. -/
def adjustedVerdict : Except String Unit × Compilation → Verdict Compilation Empty
  | (.ok (), adjusted) => .passed adjusted
  | (.error reason, _) => .failed reason

/-- What the reply of an observer that may decide means. -/
def polledVerdict (compilation : Compilation) :
    Except String (Option Bool) → Verdict Compilation Bool
  | .ok none => .passed compilation
  | .ok (some decision) => .decided decision
  | .error reason => .failed reason

/-- An observer was told of an occasion. The built-in observer does nothing. -/
def Told (compiler : CompilerId) (occasion : Occasion) (watcher : Watcher S) (_ : Unit)
    (deeds : List (Deed S)) (verdict : Verdict Unit Empty) : Prop :=
  match watcher with
  | .outside observer =>
    ∃ reply, deeds = [.call (.observe compiler observer occasion) reply] ∧
      verdict = toldVerdict reply
  | .noEmitOnErrors => deeds = [] ∧ verdict = .passed ()

/-- A compilation was handed on to an observer. -/
def Adjusted (compiler : CompilerId) (adjustment : Adjustment) (watcher : Watcher S)
    (compilation : Compilation) (deeds : List (Deed S))
    (verdict : Verdict Compilation Empty) : Prop :=
  match watcher with
  | .outside observer =>
    ∃ reply, deeds = [.call (.adjust compiler observer adjustment compilation) reply] ∧
      verdict = adjustedVerdict reply
  | .noEmitOnErrors => deeds = [] ∧ verdict = .passed compilation

/-- An observer was asked whether output is wanted. The built-in observer decides
against output for a compilation with errors. -/
def Polled (compiler : CompilerId) (watcher : Watcher S) (compilation : Compilation)
    (deeds : List (Deed S)) (verdict : Verdict Compilation Bool) : Prop :=
  match watcher with
  | .outside observer =>
    ∃ reply, deeds = [.call (.decide compiler observer compilation) reply] ∧
      verdict = polledVerdict compilation reply
  | .noEmitOnErrors =>
    deeds = [] ∧
      verdict = if compilation.hasErrors then .decided false else .passed compilation

section Observer

variable {compiler : CompilerId} {watcher : Watcher S} {deeds : List (Deed S)}

theorem told_of_observeOne {occasion : Occasion} {reply : Except String Unit}
    (play : (observeOne compiler occasion watcher).Play deeds reply) :
    Told compiler occasion watcher () deeds (toldVerdict reply) := by
  cases watcher with
  | outside observer => exact ⟨reply, Prog.play_invoke.mp play, rfl⟩
  | noEmitOnErrors =>
      obtain ⟨rfl, rfl⟩ := Prog.play_pure.mp play
      exact ⟨rfl, rfl⟩

theorem adjusted_of_adjustOne {adjustment : Adjustment} {compilation : Compilation}
    {reply : Except String Unit × Compilation}
    (play : (adjustOne compiler adjustment watcher compilation).Play deeds reply) :
    Adjusted compiler adjustment watcher compilation deeds (adjustedVerdict reply) := by
  cases watcher with
  | outside observer => exact ⟨reply, Prog.play_invoke.mp play, rfl⟩
  | noEmitOnErrors =>
      obtain ⟨rfl, rfl⟩ := Prog.play_pure.mp play
      exact ⟨rfl, rfl⟩

theorem polled_of_decideOne {compilation : Compilation} {reply : Except String (Option Bool)}
    (play : (decideOne compiler compilation watcher).Play deeds reply) :
    Polled compiler watcher compilation deeds (polledVerdict compilation reply) := by
  cases watcher with
  | outside observer => exact ⟨reply, Prog.play_invoke.mp play, rfl⟩
  | noEmitOnErrors =>
      obtain ⟨rfl, rfl⟩ := Prog.play_pure.mp play
      refine ⟨rfl, ?_⟩
      by_cases erroneous : compilation.hasErrors = true <;> simp [erroneous, polledVerdict]

end Observer

/-! ## The plays of hook calls -/

/-- Observers that are told of an occasion. -/
theorem series_of_observeAll {compiler : CompilerId} {occasion : Occasion} {hook : String} :
    ∀ {taps : List (Tap (Watcher S))} {deeds : List (Deed S)} {result : Except RunError Unit},
    (Hook.observeAll hook (observeOne compiler occasion) taps).Play deeds result →
      ∃ ending, Series (Told compiler occasion) hook taps () deeds ending ∧
        result = ending.map fun _ => ()
  | [], deeds, result, play => by
    obtain ⟨rfl, rfl⟩ := Prog.play_pure.mp play
    exact ⟨_, .through (), rfl⟩
  | tap :: rest, deeds, result, play => by
    rw [Hook.observeAll, Prog.play_bind] at play
    obtain ⟨first, reply, others, before, after, rfl⟩ := play
    have told := told_of_observeOne before
    cases reply with
    | ok value =>
        obtain ⟨ending, series, same⟩ := series_of_observeAll after
        exact ⟨ending, .passed told series, same⟩
    | error reason =>
        obtain ⟨rfl, rfl⟩ := Prog.play_pure.mp after
        refine ⟨.error (.hook hook tap.name reason), ?_, rfl⟩
        rw [List.append_nil]
        exact .failed told

/-- Observers that a compilation is handed on to. -/
theorem series_of_adjustAll {compiler : CompilerId} {adjustment : Adjustment} {hook : String} :
    ∀ {taps : List (Tap (Watcher S))} {value : Compilation} {deeds : List (Deed S)}
      {result : Except RunError Unit × Compilation},
    (Hook.adjustAll hook (adjustOne compiler adjustment) taps value).Play deeds result →
      ∃ ending, Series (Adjusted compiler adjustment) hook taps value deeds ending ∧
        (result.1.map fun _ => result.2) = ending.map Prod.fst
  | [], value, deeds, result, play => by
    obtain ⟨rfl, rfl⟩ := Prog.play_pure.mp play
    exact ⟨_, .through value, rfl⟩
  | tap :: rest, value, deeds, result, play => by
    rw [Hook.adjustAll, Prog.play_bind] at play
    obtain ⟨first, ⟨answer, next⟩, others, before, after, rfl⟩ := play
    have adjusted := adjusted_of_adjustOne before
    cases answer with
    | ok value =>
        obtain ⟨ending, series, same⟩ := series_of_adjustAll after
        exact ⟨ending, .passed adjusted series, same⟩
    | error reason =>
        obtain ⟨rfl, rfl⟩ := Prog.play_pure.mp after
        refine ⟨.error (.hook hook tap.name reason), ?_, rfl⟩
        rw [List.append_nil]
        exact .failed adjusted

/-- Observers that are asked whether output is wanted. -/
theorem series_of_decideAll {compiler : CompilerId} {compilation : Compilation} {hook : String} :
    ∀ {taps : List (Tap (Watcher S))} {deeds : List (Deed S)}
      {result : Except RunError (Option Bool)},
    (Hook.decideAll hook (decideOne compiler compilation) taps).Play deeds result →
      ∃ ending, Series (Polled compiler) hook taps compilation deeds ending ∧
        result = ending.map Prod.snd
  | [], deeds, result, play => by
    obtain ⟨rfl, rfl⟩ := Prog.play_pure.mp play
    exact ⟨_, .through compilation, rfl⟩
  | tap :: rest, deeds, result, play => by
    rw [Hook.decideAll, Prog.play_bind] at play
    obtain ⟨first, reply, others, before, after, rfl⟩ := play
    have polled := polled_of_decideOne before
    match reply, polled, after with
    | .ok none, polled, after =>
        obtain ⟨ending, series, same⟩ := series_of_decideAll after
        exact ⟨ending, .passed polled series, same⟩
    | .ok (some decision), polled, after =>
        obtain ⟨rfl, rfl⟩ := Prog.play_pure.mp after
        refine ⟨.ok (compilation, some decision), ?_, rfl⟩
        rw [List.append_nil]
        exact .decided polled
    | .error reason, polled, after =>
        obtain ⟨rfl, rfl⟩ := Prog.play_pure.mp after
        refine ⟨.error (.hook hook tap.name reason), ?_, rfl⟩
        rw [List.append_nil]
        exact .failed polled

variable {compiler : CompilerId} {deeds : List (Deed S)}

/-- Telling of an occasion fires its hook. -/
theorem fires_of_observe {occasion : Occasion} {result : Except RunError Unit}
    (play : (observe compiler occasion).Play deeds result) :
    ∃ ending, Fires compiler occasion.hook (Told compiler occasion) () deeds ending ∧
      result = ending.map fun _ => () := by
  obtain ⟨record, rest, called, rfl⟩ := Prog.play_look_bind.mp play
  obtain ⟨ending, series, same⟩ := series_of_observeAll called
  exact ⟨ending, ⟨record, rest, rfl, series⟩, same⟩

/-- Telling of an occasion fires its hook, whatever comes of it. -/
theorem fires_of_tell {occasion : Occasion} {value : Unit}
    (play : (tell compiler occasion).Play deeds value) :
    ∃ ending, Fires compiler occasion.hook (Told compiler occasion) () deeds ending := by
  obtain ⟨result, observed, -⟩ := Prog.play_map.mp play
  obtain ⟨ending, fires, -⟩ := fires_of_observe observed
  exact ⟨ending, fires⟩

/-- Adjusting a compilation fires the hook of the adjustment. -/
theorem fires_of_adjust {adjustment : Adjustment} {compilation : Compilation}
    {result : Except RunError Unit × Compilation}
    (play : (adjust compiler adjustment compilation).Play deeds result) :
    ∃ ending, Fires compiler adjustment.hook (Adjusted compiler adjustment) compilation deeds
        ending ∧
      (result.1.map fun _ => result.2) = ending.map Prod.fst := by
  obtain ⟨record, rest, called, rfl⟩ := Prog.play_look_bind.mp play
  obtain ⟨ending, series, same⟩ := series_of_adjustAll called
  exact ⟨ending, ⟨record, rest, rfl, series⟩, same⟩

/-- Asking whether output is wanted fires `should_emit`; output is wanted unless an
observer decided against it. -/
theorem fires_of_wantsOutput {compilation : Compilation} {result : Except RunError Bool}
    (play : (wantsOutput compiler compilation).Play deeds result) :
    ∃ ending, Fires compiler .shouldEmit (Polled compiler) compilation deeds ending ∧
      result = ending.map fun last => last.2.getD true := by
  obtain ⟨record, rest, called, rfl⟩ := Prog.play_look_bind.mp play
  obtain ⟨decision, polled, rfl⟩ := Prog.play_map.mp called
  obtain ⟨ending, series, rfl⟩ := series_of_decideAll polled
  refine ⟨ending, ⟨record, rest, rfl, series⟩, ?_⟩
  cases ending <;> rfl

end Bundler.Compiler
