import Bundler.Proofs.Compiler.HookCalls
import Bundler.Proofs.Compiler.Passages

/-!
# Snapshots of hooks

A call of a hook takes the observers that the hook has when the call begins. Observers that are
registered after that, be it by one of those that are called or by another task, are for later
calls. `Calls` says what is seen of a call on given observers, and `Machine.hooks_snapshot` says
which observers those are, wherever in an execution a hook is called: at the level of a run, in the
code of an observer of the same hook, or while other tasks register observers.
-/

namespace Bundler

variable {ω σ ρ δ : Type}

/-! ## One loop for all kinds of hooks -/

namespace Hook

variable {m : Type → Type v} [Monad m]

/-- Hand a value from observer to observer, up to the first that fails or decides. The reply of an
observer is read as the value that it hands on with a failure or with what it decides, if
anything. -/
def callAll (hook : String) (ask : ω → σ → m ρ) (read : σ → ρ → σ × Except String (Option δ)) :
    List (Tap ω) → σ → m (σ × Except RunError (Option δ))
  | [], value => pure (value, .ok none)
  | tap :: rest, value => do
    match read value (← ask tap.observer value) with
    | (value, .ok none) => callAll hook ask read rest value
    | (value, .ok (some decision)) => pure (value, .ok (some decision))
    | (value, .error reason) => pure (value, .error (.hook hook tap.name reason))

/-- How the reply of an observer that only watches is read. -/
def readWatching (_ : Unit) (reply : Except String Unit) : Unit × Except String (Option Empty) :=
  ((), reply.map fun _ => none)

/-- How the reply of an observer that changes a value is read. -/
def readAdjusting (_ : σ) (reply : Except String Unit × σ) : σ × Except String (Option Empty) :=
  (reply.2, reply.1.map fun _ => none)

/-- How the reply of an observer that may decide is read. -/
def readDeciding (_ : Unit) (reply : Except String (Option δ)) : Unit × Except String (Option δ) :=
  ((), reply)

variable [LawfulMonad m]

theorem observeAll_eq (hook : String) (call : ω → m (Except String Unit)) (taps : List (Tap ω)) :
    observeAll hook call taps = (fun last => last.2.map fun _ => ()) <$>
      callAll hook (fun observer _ => call observer) readWatching taps () := by
  induction taps with
  | nil => simp [observeAll, callAll, Except.map]
  | cons tap rest ih =>
    rw [observeAll, callAll, map_bind]
    refine bind_congr fun reply => ?_
    cases reply with
    | ok => exact ih
    | error reason => simp [readWatching, Except.map]

theorem adjustAll_eq (hook : String) (call : ω → σ → m (Except String Unit × σ))
    (taps : List (Tap ω)) (value : σ) :
    adjustAll hook call taps value = (fun last => (last.2.map fun _ => (), last.1)) <$>
      callAll hook call readAdjusting taps value := by
  induction taps generalizing value with
  | nil => simp [adjustAll, callAll, Except.map]
  | cons tap rest ih =>
    rw [adjustAll, callAll, map_bind]
    refine bind_congr fun reply => ?_
    obtain ⟨answer, next⟩ := reply
    cases answer with
    | ok => exact ih next
    | error reason => simp [readAdjusting, Except.map]

theorem decideAll_eq (hook : String) (call : ω → m (Except String (Option δ)))
    (taps : List (Tap ω)) :
    decideAll hook call taps =
      Prod.snd <$> callAll hook (fun observer _ => call observer) readDeciding taps () := by
  induction taps with
  | nil => simp [decideAll, callAll]
  | cons tap rest ih =>
    rw [decideAll, callAll, map_bind]
    refine bind_congr fun reply => ?_
    rcases reply with reason | _ | decision
    · simp [readDeciding]
    · exact ih
    · simp [readDeciding]

end Hook

variable {S : Setting} {E : Environment S}

/-! ## What is seen of a call -/

/-- What is seen of a call on some observers, and what the call ends with. An observer is asked when
the one before it has come to the end of its code, up to the first that fails or decides. As long as
the code of one of them has not come to its end, neither has the call. -/
inductive Calls (E : Environment S) (ask : ω → σ → Prog S ρ)
    (read : σ → ρ → σ × Except String (Option δ)) (hook : String) :
    List (Tap ω) → σ → List (Event S) → Option (σ × Except RunError (Option δ)) → Prop where
  | through (value : σ) : Calls E ask read hook [] value [] (some (value, .ok none))
  | passed {tap rest value reply next events others result}
      (ended : (ask tap.observer value).Follows E events (.done reply))
      (verdict : read value reply = (next, .ok none))
      (remaining : Calls E ask read hook rest next others result) :
      Calls E ask read hook (tap :: rest) value (events ++ others) result
  | decided {tap rest value reply next events decision}
      (ended : (ask tap.observer value).Follows E events (.done reply))
      (verdict : read value reply = (next, .ok (some decision))) :
      Calls E ask read hook (tap :: rest) value events (some (next, .ok (some decision)))
  | failed {tap rest value reply next events reason}
      (ended : (ask tap.observer value).Follows E events (.done reply))
      (verdict : read value reply = (next, .error reason)) :
      Calls E ask read hook (tap :: rest) value events
        (some (next, .error (.hook hook tap.name reason)))
  | during {tap rest value events code}
      (follows : (ask tap.observer value).Follows E events code)
      (unfinished : ∀ reply, code ≠ .done reply) :
      Calls E ask read hook (tap :: rest) value events none

section Calls

variable {ask : ω → σ → Prog S ρ} {read : σ → ρ → σ × Except String (Option δ)} {hook : String}

theorem Prog.Follows.done_inv {α : Type} {value : α} {events : List (Event S)} {left : Prog S α}
    (follows : (Prog.done value).Follows E events left) : events = [] ∧ left = .done value := by
  cases follows
  exact ⟨rfl, rfl⟩

/-- The loop over the observers is seen as a call on them, which has a result when the loop has come
to its end. -/
theorem calls_of_callAll {taps : List (Tap ω)} {value : σ} {events : List (Event S)}
    {left : Prog S (σ × Except RunError (Option δ))}
    (follows : (Hook.callAll hook ask read taps value).Follows E events left) :
    (∃ last, left = .done last ∧ Calls E ask read hook taps value events (some last)) ∨
      (∀ last, left ≠ .done last) ∧ Calls E ask read hook taps value events none := by
  induction taps generalizing value events with
  | nil =>
    obtain ⟨rfl, rfl⟩ := follows.done_inv
    exact .inl ⟨_, rfl, .through value⟩
  | cons tap rest ih =>
    rw [Hook.callAll] at follows
    rcases follows.of_bind with ⟨reply, first, others, rfl, ended, onward⟩ |
      ⟨code, inside, rfl, unfinished⟩
    · match verdict : read value reply, onward with
      | (next, .ok none), onward =>
        exact (ih onward).imp (fun ⟨last, same, calls⟩ => ⟨last, same, .passed ended verdict calls⟩)
          (And.imp_right (.passed ended verdict))
      | (next, .ok (some decision)), onward =>
        obtain ⟨rfl, rfl⟩ := onward.done_inv
        rw [List.append_nil]
        exact .inl ⟨_, rfl, .decided ended verdict⟩
      | (next, .error reason), onward =>
        obtain ⟨rfl, rfl⟩ := onward.done_inv
        rw [List.append_nil]
        exact .inl ⟨_, rfl, .failed ended verdict⟩
    · exact .inr ⟨Prog.bind_ne_done unfinished, .during inside unfinished⟩

end Calls

/-! ## The observers of a hook -/

/-- The observer that an event registers on a hook of a compiler. -/
def registration? (compiler : CompilerId) (name : HookName) : Event S → Option (Tap (Watcher S))
  | .op (.register id hook tap observer) _ =>
    if id = compiler ∧ hook = name then some ⟨tap, observer⟩ else none
  | _ => none

/-- The observers that were registered on a hook of a compiler, by whatever tasks, in order. -/
def registered (compiler : CompilerId) (name : HookName) (events : List (TaskId × Event S)) :
    List (Tap (Watcher S)) :=
  events.filterMap fun entry => registration? compiler name entry.2

@[simp] theorem registered_nil (compiler : CompilerId) (name : HookName) :
    registered compiler name ([] : List (TaskId × Event S)) = [] := rfl

@[simp] theorem registered_append (compiler : CompilerId) (name : HookName)
    (first second : List (TaskId × Event S)) : registered compiler name (first ++ second) =
      registered compiler name first ++ registered compiler name second :=
  List.filterMap_append

theorem registered_singleton (compiler : CompilerId) (name : HookName)
    (entry : TaskId × Event S) :
    registered compiler name [entry] = (registration? compiler name entry.2).toList := by
  cases found : registration? compiler name entry.2 <;> simp [registered, found]

namespace World

/-- The compiler is there, and its hook has these observers. -/
def Lists (world : World S) (compiler : CompilerId) (name : HookName)
    (taps : List (Tap (Watcher S))) : Prop :=
  world.Has compiler fun record => (record.registry.hook name).taps = taps

variable {world after : World S} {compiler : CompilerId} {name : HookName}
  {taps : List (Tap (Watcher S))}

/-- An operation changes the observers of a hook by registering one at most, which comes last. -/
theorem Lists.perform {task : TaskId} {preferChanges : Bool} {operation : Op S}
    {reply : operation.Reply} (lists : world.Lists compiler name taps)
    (performed : world.perform task preferChanges operation = some (reply, after)) :
    after.Lists compiler name
      (taps ++ (registration? compiler name (.op operation reply)).toList) := by
  have changed := (perform_changes performed).compilers
  cases operation with
  | register id hook tap observer =>
    by_cases own : id = compiler ∧ hook = name
    · obtain ⟨rfl, rfl⟩ := own
      obtain ⟨record, found, rfl⟩ := lists
      refine ⟨{ record with registry := record.registry.add hook tap observer }, ?_, ?_⟩
      · rw [changed, compilersAfter, List.getElem?_modify, found]
        simp
      · simp [registration?, Registry.taps_add_self]
    · simp only [registration?, if_neg own, Option.toList_none, List.append_nil]
      refine lists.modify changed fun same record listed => ?_
      rw [← listed]
      exact Registry.taps_add_of_ne _ _ _ fun equal => own ⟨same, equal⟩
  | shift | acquire | release | setChanges | setParent | setInput | setOutput | setWatcher =>
    have kept : after.Lists compiler name taps := lists.modify changed fun _ _ listed => listed
    simpa [registration?] using kept
  | createCompiler record =>
    have kept : after.Lists compiler name taps := lists.extend changed
    simpa [registration?] using kept
  | _ =>
    have kept : after.Lists compiler name taps := lists.kept changed
    simpa [registration?] using kept

end World

namespace Machine

variable {start middle machine after : Machine E} {first second events : List (TaskId × Event S)}
  {id task : TaskId} {compiler : CompilerId} {name : HookName} {taps : List (Tap (Watcher S))}

theorem Step.lists {seen : Option (Event S)} (step : machine.Step id seen after)
    (lists : machine.world.Lists compiler name taps) :
    after.world.Lists compiler name
      (taps ++ registered compiler name (seen.toList.map fun event => (id, event))) := by
  cases step with
  | op _ performed =>
    have listed := lists.perform performed
    rw [Option.toList_some, List.map_singleton, registered_singleton]
    exact listed
  | crash =>
    rw [Option.toList_none, List.map_nil, registered_nil, List.append_nil]
    exact lists.crash (fun _ listed => listed) id
  | call | request =>
    simp only [Option.toList_some, List.map_singleton, registered_singleton, registration?,
      Option.toList_none, List.append_nil]
    exact lists
  | turn | finish =>
    rw [Option.toList_none, List.map_nil, registered_nil, List.append_nil]
    exact lists

/-- The observers of a hook are those that it had, and those that were registered since. -/
theorem Trace.lists (trace : start.Trace events machine)
    (lists : start.world.Lists compiler name taps) :
    machine.world.Lists compiler name (taps ++ registered compiler name events) := by
  induction trace with
  | start => simpa using lists
  | seen _ step ih => simpa using step.lists ih
  | unseen _ step ih => simpa using step.lists ih

end Machine

/-! ## Calls in executions -/

namespace Compiler

variable {compiler : CompilerId} {name : HookName}

/-- The call of a hook of a compiler. -/
def callHook (compiler : CompilerId) (name : HookName) (ask : Watcher S → σ → Prog S ρ)
    (read : σ → ρ → σ × Except String (Option δ)) (value : σ) :
    Prog S (σ × Except RunError (Option δ)) := do
  let hook := (← Prog.look compiler).registry.hook name
  Hook.callAll hook.name ask read hook.taps value

variable {α : Type}

/-- The call of a hook begins with a look at its observers. -/
theorem follows_callHook {ask : Watcher S → σ → Prog S ρ}
    {read : σ → ρ → σ × Except String (Option δ)} {value : σ}
    {next : σ × Except RunError (Option δ) → Prog S α} {events : List (Event S)} {left : Prog S α}
    (follows : (callHook compiler name ask read value >>= next).Follows E events left) :
    events = [] ∧ left = callHook compiler name ask read value >>= next ∨
    ∃ record rest, events = .op (.look compiler) record :: rest ∧
      (Hook.callAll name.text ask read (record.registry.hook name).taps value >>= next).Follows E
        rest left := by
  cases follows with
  | start => exact .inl ⟨rfl, rfl⟩
  | op rest => exact .inr ⟨_, _, rfl, rest⟩

theorem observe_bind_eq (occasion : Occasion) (next : Except RunError Unit → Prog S α) :
    observe compiler occasion >>= next =
      callHook compiler occasion.hook (fun watcher _ => observeOne compiler occasion watcher)
        Hook.readWatching () >>= fun last => next (last.2.map fun _ => ()) := by
  simp only [observe, callHook, Hook.observeAll_eq, bind_assoc, bind_map_left]

theorem adjust_bind_eq (adjustment : Adjustment) (compilation : Compilation)
    (next : Except RunError Unit × Compilation → Prog S α) :
    adjust compiler adjustment compilation >>= next =
      callHook compiler adjustment.hook (adjustOne compiler adjustment) Hook.readAdjusting
        compilation >>= fun last => next (last.2.map fun _ => (), last.1) := by
  simp only [adjust, callHook, Hook.adjustAll_eq, bind_assoc, bind_map_left]

theorem wantsOutput_bind_eq (compilation : Compilation) (next : Except RunError Bool → Prog S α) :
    wantsOutput compiler compilation >>= next =
      callHook compiler .shouldEmit (fun watcher _ => decideOne compiler compilation watcher)
        Hook.readDeciding () >>=
        fun last => next (last.2.map fun decision => decision.getD true) := by
  simp only [wantsOutput, callHook, Hook.decideAll_eq, bind_assoc, bind_map_left, pure_bind]

end Compiler

namespace Machine

variable {start middle machine : Machine E} {first second : List (TaskId × Event S)} {task : TaskId}
  {compiler : CompilerId} {name : HookName}

/-- A task that stood at the program has done this since. -/
def GoesOn (machine : Machine E) (task : TaskId) (program : Prog S (Compiler.Next S))
    (events : List (Event S)) : Prop :=
  ∃ seen later left, events = seen ++ later ∧ program.Follows E seen left ∧
    ((∃ job, left = .done job) ∨ later = [] ∧ machine.StandsAt task left)

/-- What came of a hook call that a task stood at after the events `first`, in the events `second`
that followed. The task has done nothing yet; or it has looked at the hook, and found those
observers that the hook had at the beginning and those that any task had registered until then. What
it did from then on is a call on them, and what it does with the result when that is there. -/
def Fired (known : List (Tap (Watcher S))) (compiler : CompilerId) (name : HookName)
    (ask : Watcher S → σ → Prog S ρ) (read : σ → ρ → σ × Except String (Option δ)) (value : σ)
    (next : σ × Except RunError (Option δ) → Prog S (Compiler.Next S))
    (first second : List (TaskId × Event S)) (machine : Machine E) (task : TaskId) : Prop :=
  eventsOf task second = [] ∨
  ∃ early record late own rest result,
    second = early ++ (task, .op (.look compiler) record) :: late ∧
    eventsOf task early = [] ∧ eventsOf task late = own ++ rest ∧
    Calls E ask read name.text (known ++ registered compiler name (first ++ early)) value own
      result ∧
    match result with
    | none => rest = []
    | some last => machine.GoesOn task (next last) rest

/-- A task that stands at the call of a hook. -/
theorem fired_of_callHook {known : List (Tap (Watcher S))} {ask : Watcher S → σ → Prog S ρ}
    {read : σ → ρ → σ × Except String (Option δ)} {value : σ}
    {next : σ × Except RunError (Option δ) → Prog S (Compiler.Next S)}
    (before : start.Trace first middle) (after : middle.Trace second machine) (tidy : start.Tidy)
    (lists : start.world.Lists compiler name known)
    (runs : middle.program? task = some (Compiler.callHook compiler name ask read value >>= next)) :
    Fired known compiler name ask read value next first second machine task := by
  obtain ⟨seen, later, left, own, follows, stands⟩ := after.follows (tidy.trace before) runs
  rcases Compiler.follows_callHook follows with ⟨rfl, rfl⟩ | ⟨record, events, rfl, rest⟩
  · rcases stands with ⟨job, same⟩ | ⟨rfl, -⟩
    · cases same
    · exact .inl own
  have looked : eventsOf task second = [] ++ .op (.look compiler) record :: (events ++ later) := own
  obtain ⟨early, late, rfl, idle, tail⟩ := eventsOf_eq_append looked
  -- Other tasks may have registered observers between the moment at which the task came to the call
  -- and its look, so the trace is cut at the look and not at that moment.
  have found : (record.registry.hook name).taps =
      known ++ registered compiler name (first ++ early) := by
    obtain ⟨here, _, reached, looks⟩ := after.split
    have listed := reached.lists (before.lists lists)
    rw [List.append_assoc, ← registered_append] at listed
    cases looks with
    | op _ performed =>
      cases performed
      exact listed.looked
  rw [found] at rest
  refine .inr ⟨early, record, late, ?_⟩
  rcases rest.of_bind with ⟨last, inside, beyond, rfl, ended, onward⟩ |
    ⟨code, inside, rfl, unfinished⟩
  · rcases calls_of_callAll ended with ⟨_, same, calls⟩ | ⟨never, -⟩
    · cases same
      rw [List.append_assoc] at tail
      exact ⟨inside, beyond ++ later, some last, rfl, idle, tail, calls, beyond, later, left, rfl,
        onward, stands⟩
    · exact absurd rfl (never last)
  · rcases calls_of_callAll inside with ⟨last, same, -⟩ | ⟨-, calls⟩
    · exact absurd same (unfinished last)
    · rcases stands with ⟨job, same⟩ | ⟨rfl, -⟩
      · exact absurd same (Prog.bind_ne_done unfinished job)
      · exact ⟨events, [], none, rfl, idle, tail, calls, rfl⟩

open Compiler in
/-- Wherever a task calls a hook of a compiler, it calls the observers that the hook has at that
moment, in the order of their registration, each one when the one before it has ended, up to the
first that fails or decides. The hook has those that it had at some moment before, and after them
those that tasks have registered since: also those that were registered during calls of the hook, by
its own observers or by other tasks, but none that is registered from then on. An error names the
hook and the observer that failed.

Observers may be told of an occasion, at once or in a series of futures; they may be handed a
compilation; and they may decide whether output is wanted. -/
theorem hooks_snapshot {record : CompilerRecord S} (before : start.Trace first middle)
    (after : middle.Trace second machine) (tidy : start.Tidy)
    (there : start.world.compilers[compiler]? = some record) :
    (∀ (occasion : Occasion) (next : Except RunError Unit → Prog S (Next S)),
      middle.program? task = some (observe compiler occasion >>= next) →
      Fired (record.registry.hook occasion.hook).taps compiler occasion.hook
        (fun watcher _ => observeOne compiler occasion watcher) Hook.readWatching ()
        (fun last => next (last.2.map fun _ => ())) first second machine task) ∧
    (∀ (adjustment : Adjustment) (compilation : Compilation)
        (next : Except RunError Unit × Compilation → Prog S (Next S)),
      middle.program? task = some (adjust compiler adjustment compilation >>= next) →
      Fired (record.registry.hook adjustment.hook).taps compiler adjustment.hook
        (adjustOne compiler adjustment) Hook.readAdjusting compilation
        (fun last => next (last.2.map fun _ => (), last.1)) first second machine task) ∧
    ∀ (compilation : Compilation) (next : Except RunError Bool → Prog S (Next S)),
      middle.program? task = some (wantsOutput compiler compilation >>= next) →
      Fired (record.registry.hook .shouldEmit).taps compiler .shouldEmit
        (fun watcher _ => decideOne compiler compilation watcher) Hook.readDeciding ()
        (fun last => next (last.2.map fun decision => decision.getD true)) first second machine
        task := by
  have lists : ∀ name, start.world.Lists compiler name (record.registry.hook name).taps :=
    fun _ => ⟨record, there, rfl⟩
  refine ⟨fun occasion next runs => ?_, fun adjustment compilation next runs => ?_,
    fun compilation next runs => ?_⟩
  · rw [observe_bind_eq] at runs
    exact fired_of_callHook before after tidy (lists _) runs
  · rw [adjust_bind_eq] at runs
    exact fired_of_callHook before after tidy (lists _) runs
  · rw [wantsOutput_bind_eq] at runs
    exact fired_of_callHook before after tidy (lists _) runs

end Machine

/-! ### An observer that registers observers -/

/-- Code outside whose observers register another one on the hook that has called them. -/
def Environment.registering : Environment Setting.plain where
  State := Unit
  answer
    | .observe compiler _ occasion => do
      Prog.perform (.register compiler occasion.hook "late" (.outside ()))
      return .ok ()
    | outside => Environment.inert.answer outside
  serve wish := wish.elim

namespace Compiler

/-- A compiler with one observer of `before_run`. -/
def registrar : CompilerRecord Setting.plain where
  options := Options.forContext (.of "/")
  registry := [⟨.beforeRun, ⟨"first", .outside ()⟩⟩]

/-- A task calls `before_run` twice. -/
def callingTwice : Machine Environment.registering :=
  .hosting () [registrar] (tell 0 .beforeRun >>= fun _ => tell 0 .beforeRun)

/-- The first call. -/
def calledOnce : List (TaskId × Event Setting.plain) × Machine Environment.registering :=
  Machine.playback [] callingTwice (List.replicate 3 0)

/-- The second call. -/
def calledAgain : List (TaskId × Event Setting.plain) × Machine Environment.registering :=
  Machine.playback [] calledOnce.2 (List.replicate 5 0)

/-- The first call is on one observer, which registers another one. The second call is on both of
them. -/
theorem hooks_snapshot_again :
    Machine.Fired [⟨"first", .outside ()⟩] 0 .beforeRun
      (fun watcher _ => observeOne 0 .beforeRun watcher) Hook.readWatching () (fun _ => pure none)
      calledOnce.1 calledAgain.1 calledAgain.2 0 ∧
    registered 0 .beforeRun calledOnce.1 = [⟨"late", .outside ()⟩] ∧
    calledAgain.1[1]? = some (0, .call (.observe 0 () .beforeRun)) ∧
    calledAgain.1[3]? = some (0, .call (.observe 0 () .beforeRun)) := by
  have first : callingTwice.Trace calledOnce.1 calledOnce.2 := Machine.trace_playback .start _
  have second : calledOnce.2.Trace calledAgain.1 calledAgain.2 := Machine.trace_playback .start _
  have there : callingTwice.world.compilers[0]? = some registrar := rfl
  have stands : calledOnce.2.program? 0 =
      some ((observe 0 .beforeRun >>= fun _ => pure ()) >>= fun _ => pure none) := rfl
  have runs : calledOnce.2.program? 0 = some (observe 0 .beforeRun >>= fun _ => pure none) := by
    rw [stands, bind_assoc]
    rfl
  refine ⟨?_, rfl, rfl, rfl⟩
  exact (Machine.hooks_snapshot first second (Machine.tidy_hosting _ _ _) there).1 _ _ runs

end Compiler

end Bundler
