import Bundler.Proofs.Compiler.OutputGates
import Bundler.Proofs.Compiler.Workers

/-!
# Output in executions

`Passes` says what the gates before output come to. `Machine.output_gated` is about every
execution: a task comes to a call that makes directories or writes files only if it performs the
phases of a run and has passed all gates before. In between, code outside may do what it likes.
If a task has made no such call, what an output storage holds is not changed by it, as long as
code outside does not change it by itself.
-/

namespace Bundler

variable {S : Setting} {E : Environment S}

/-! ## Errors anywhere in a compilation -/

namespace Compilation

/-- The compilation itself and all those that were attached below it. -/
inductive Contains : Compilation → Compilation → Prop where
  | self (compilation : Compilation) : Contains compilation compilation
  | attached {parent child nested : Compilation} (member : child ∈ parent.children)
      (contains : Contains child nested) : Contains parent nested

/-- There is an error in the compilation or in one below it. -/
def Erroneous (compilation : Compilation) : Prop :=
  ∃ nested, compilation.Contains nested ∧ nested.errors ≠ []

mutual

theorem mem_tree {record : CompilationRecord} : (compilation : Compilation) →
    (record ∈ compilation.tree ↔
      ∃ nested, compilation.Contains nested ∧ nested.toCompilationRecord = record)
  | ⟨own, children⟩ => by
    rw [tree, List.mem_cons, mem_treeOfAll children]
    constructor
    · rintro (rfl | ⟨child, attached, nested, contains, same⟩)
      · exact ⟨_, .self _, rfl⟩
      · exact ⟨nested, .attached attached contains, same⟩
    · rintro ⟨nested, contains, same⟩
      cases contains with
      | self => exact .inl same.symm
      | attached attached contains => exact .inr ⟨_, attached, nested, contains, same⟩

theorem mem_treeOfAll {record : CompilationRecord} : (children : List Compilation) →
    (record ∈ treeOfAll children ↔
      ∃ child ∈ children, ∃ nested, child.Contains nested ∧ nested.toCompilationRecord = record)
  | [] => by simp [treeOfAll]
  | child :: rest => by
    rw [treeOfAll, List.mem_append, mem_tree child, mem_treeOfAll rest, List.exists_mem_cons_iff]

end

theorem erroneous_iff {compilation : Compilation} :
    compilation.Erroneous ↔ ∃ record ∈ compilation.tree, record.errors ≠ [] := by
  constructor
  · rintro ⟨nested, contains, errors⟩
    exact ⟨_, (mem_tree compilation).mpr ⟨nested, contains, rfl⟩, errors⟩
  · rintro ⟨record, member, errors⟩
    obtain ⟨nested, contains, rfl⟩ := (mem_tree compilation).mp member
    exact ⟨nested, contains, errors⟩

theorem hasErrors_iff {compilation : Compilation} :
    compilation.hasErrors = true ↔ compilation.Erroneous := by
  rw [erroneous_iff, hasErrors, List.any_eq_true]
  simp

theorem firstError?_eq_none_iff {compilation : Compilation} :
    compilation.firstError? = none ↔ ¬ compilation.Erroneous := by
  rw [erroneous_iff, firstError?, List.findSome?_eq_none_iff]
  simp

/-- A compilation fails by a bail exactly if it is to bail and has an error anywhere. -/
theorem bailError?_eq_none_iff {compilation : Compilation} :
    Compiler.bailError? compilation = none ↔
      ¬ (compilation.bail = true ∧ compilation.Erroneous) := by
  rw [Compiler.bailError?]
  split
  · rename_i bails
    rw [Option.map_eq_none_iff, firstError?_eq_none_iff]
    simp [bails]
  · rename_i goesOn
    simp [goesOn]

end Compilation

namespace Compiler

/-! ## The gates -/

/-- All gates were passed: the hooks that open a run, the hooks of the compilation, the build and
the observers of `after_compile` went well; the compilation does not bail for an error in it or
below it; the observers of `should_emit` were asked up to the first that decided, none of them
failed, and the decision was not against output; and no observer of `emit` failed. -/
structure Passes (kind : RunKind) (compiler : CompilerId) (filled : Compilation)
    (fills polls adjustments : List (Deed S)) : Prop where
  filling : Sequence compiler (kind.opening ++ filling) default fills (.ok filled)
  sound : ¬ (filled.bail = true ∧ filled.Erroneous)
  wanted : ∃ last, Fires compiler .shouldEmit (Polled compiler) filled polls (.ok last) ∧
    last.2 ≠ some false
  adjusted : ∃ last, Fires compiler .emit (Adjusted compiler .emit) filled adjustments (.ok last)

/-- What the stages before output come to. -/
theorem passes_of_gates {kind : RunKind} {compiler : CompilerId} {gates : List (Deed S)}
    {last : Compilation} (sequence : Sequence compiler kind.gates default gates (.ok last)) :
    ∃ filled fills polls adjustments, gates = fills ++ (polls ++ adjustments) ∧
      Passes kind compiler filled fills polls adjustments := by
  rw [RunKind.gates, ← List.append_assoc] at sequence
  obtain ⟨fills, filled, rest, rfl, filling, concluded⟩ := sequence.split
  obtain ⟨checks, checked, asking, rfl, ⟨rfl, bails⟩, asks⟩ := concluded.uncons
  obtain ⟨polls, asked, emitting, rfl, ⟨ending, polled, wanted⟩, emits⟩ := asks.uncons
  obtain ⟨adjustments, emitted, others, rfl, ⟨adjusted, fires, same⟩, ended⟩ := emits.uncons
  cases ended
  cases found : bailError? filled with
  | some error =>
      rw [found] at bails
      cases bails
  | none =>
      rw [found] at bails
      obtain rfl := Except.ok.inj bails
      have sound := Compilation.bailError?_eq_none_iff.mp found
      cases ending with
      | error error => cases wanted
      | ok decided =>
          cases adjusted with
          | error error => cases same
          | ok changed =>
              obtain ⟨decision, unchanged⟩ := wanted
              obtain rfl := Except.ok.inj unchanged
              refine ⟨asked, fills, polls, adjustments, by simp, filling, sound,
                ⟨decided, polled, fun denied => ?_⟩, changed, fires⟩
              rw [denied] at decision
              cases decision

/-! ## The observer that decides against errors -/

section Polling

variable {compiler : CompilerId} {compilation : Compilation}

/-- The built-in observer as it is registered. -/
def errorGate : Tap (Watcher S) := ⟨"NoEmitOnErrorsPlugin", .noEmitOnErrors⟩

/-- An observer that is asked before the built-in one decided for output. -/
def Overruled (compiler : CompilerId) (compilation : Compilation) (polls : List (Deed S)) : Prop :=
  ∃ (record : CompilerRecord S) (earlier later : List (Tap (Watcher S))) (name : String)
    (observer : S.Observer),
    .op (.look compiler) record ∈ polls ∧
    (record.registry.hook .shouldEmit).taps = earlier ++ errorGate :: later ∧
    ⟨name, .outside observer⟩ ∈ earlier ∧
    .call (.decide compiler observer compilation) (.ok (some true)) ∈ polls

variable {watcher : Watcher S} {deeds : List (Deed S)} {next : Compilation} {decision : Bool}

theorem Polled.of_passed (polled : Polled compiler watcher compilation deeds (.passed next)) :
    next = compilation ∧ (watcher = .noEmitOnErrors → ¬ compilation.Erroneous) := by
  cases watcher with
  | outside observer =>
      obtain ⟨reply, -, same⟩ := polled
      match reply, same with
      | .ok none, same => exact ⟨(Verdict.passed.inj same), nofun⟩
  | noEmitOnErrors =>
      obtain ⟨-, same⟩ := polled
      split at same
      · cases same
      · rename_i sound
        exact ⟨Verdict.passed.inj same, fun _ erroneous => sound (Compilation.hasErrors_iff.mpr erroneous)⟩

theorem Polled.of_decided (polled : Polled compiler watcher compilation deeds (.decided decision)) :
    decision = false ∨ ∃ observer, watcher = .outside observer ∧
      deeds = [.call (.decide compiler observer compilation) (.ok (some decision))] := by
  cases watcher with
  | outside observer =>
      obtain ⟨reply, rfl, same⟩ := polled
      match reply, same with
      | .ok (some answer), same =>
          obtain rfl := Verdict.decided.inj same
          exact .inr ⟨observer, rfl, rfl⟩
  | noEmitOnErrors =>
      obtain ⟨-, same⟩ := polled
      split at same
      · exact .inl (Verdict.decided.inj same)
      · cases same

/-- Where output is wanted in spite of errors, an earlier observer has decided. -/
theorem overrules_of_series {hook : String} {earlier later : List (Tap (Watcher S))}
    {last : Compilation × Option Bool}
    (series : Series (Polled compiler) hook (earlier ++ errorGate :: later) compilation deeds (.ok last))
    (erroneous : compilation.Erroneous) (wanted : last.2 ≠ some false) :
    ∃ name observer, ⟨name, .outside observer⟩ ∈ earlier ∧
      .call (.decide compiler observer compilation) (.ok (some true)) ∈ deeds := by
  induction earlier generalizing deeds with
  | nil =>
      cases series with
      | passed asked remaining => exact absurd erroneous (asked.of_passed.2 rfl)
      | decided asked =>
          rcases asked.of_decided with rfl | ⟨observer, outside, -⟩
          · exact absurd rfl wanted
          · cases outside
  | cons tap earlier ih =>
      cases series with
      | passed asked remaining =>
          obtain rfl := asked.of_passed.1
          obtain ⟨name, observer, member, made⟩ := ih remaining
          exact ⟨name, observer, List.mem_cons_of_mem _ member, List.mem_append_right _ made⟩
      | @decided _ _ _ _ decision asked =>
          rcases asked.of_decided with rfl | ⟨observer, outside, rfl⟩
          · exact absurd rfl wanted
          · obtain rfl : decision = true := by simpa using wanted
            obtain ⟨name, watcher⟩ := tap
            obtain rfl := outside
            exact ⟨name, observer, List.mem_cons_self, List.mem_singleton_self _⟩

end Polling

end Compiler

/-! ## Registered observers -/

theorem Registry.mem_taps {ω : Type} {registry : Registry ω} {hook : HookName} {tap : Tap ω}
    (registered : ⟨hook, tap⟩ ∈ registry) : tap ∈ (registry.hook hook).taps :=
  List.mem_map.mpr ⟨_, List.mem_filter.mpr ⟨registered, by simp⟩, rfl⟩

namespace World

variable {world after : World S} {task : TaskId} {preferChanges : Bool} {operation : Op S}
  {reply : operation.Reply} {compiler : CompilerId} {part : Registry (Watcher S)}

/-- A compiler is there with some of its observers. -/
abbrev Keeps (world : World S) (compiler : CompilerId) (part : Registry (Watcher S)) : Prop :=
  world.Has compiler fun record => part ⊆ record.registry

/-- Observers are only ever added. -/
theorem Keeps.perform (keeps : world.Keeps compiler part)
    (performed : world.perform task preferChanges operation = some (reply, after)) :
    after.Keeps compiler part := by
  have changed := (perform_changes performed).compilers
  cases operation with
  | shift | acquire | release | setChanges | setParent | setInput | setOutput | setWatcher =>
      exact keeps.modify changed fun _ _ => id
  | register => exact keeps.modify changed fun _ _ held => List.subset_append_of_subset_left _ held
  | createCompiler record => exact keeps.extend changed
  | _ => exact keeps.kept changed

theorem keeps_of_createCompiler {record : CompilerRecord S}
    (performed : world.perform task preferChanges (.createCompiler record) = some (compiler, after)) :
    after.Keeps compiler [] := by
  cases performed
  exact ⟨record, by simp, List.nil_subset _⟩

theorem keeps_of_register {hook : HookName} {name : String} {observer : Watcher S}
    (keeps : world.Keeps compiler part)
    (performed : world.perform task preferChanges (.register compiler hook name observer) =
      some ((), after)) : after.Keeps compiler [⟨hook, ⟨name, observer⟩⟩] := by
  obtain ⟨record, found, -⟩ := keeps
  have changed := (perform_changes performed).compilers
  rw [compilersAfter] at changed
  refine ⟨_, by rw [changed, List.getElem?_modify_eq, found]; rfl, ?_⟩
  exact List.subset_append_right _ _

end World

open Compiler in
/-- A task has made a compiler that is to decide against output for errors. -/
def Prepared (E : Environment S) (events : List (TaskId × Event S)) (compiler : CompilerId) : Prop :=
  ∃ (maker : TaskId) (record : CompilerRecord S) (plugins : CompilerId → Prog S Unit)
    (deeds : List (Deed S)) (earlier inner later : List (Event S)),
    record.options.noEmitOnErrors = true ∧ (create record plugins).Play deeds compiler ∧
    Expands E deeds inner ∧ eventsOf maker events = earlier ++ (inner ++ later)

/-- The built-in observer is registered last, when plugins have registered theirs. -/
theorem Compiler.play_create {record : CompilerRecord S} {plugins : CompilerId → Prog S Unit}
    {deeds : List (Deed S)} {compiler : CompilerId}
    (play : (create record plugins).Play deeds compiler)
    (strict : record.options.noEmitOnErrors = true) :
    ∃ middle, deeds = .op (.createCompiler record) compiler :: (middle ++
      [.op (.register compiler .shouldEmit "NoEmitOnErrorsPlugin" .noEmitOnErrors) ()]) := by
  obtain ⟨made, rest, created, rfl⟩ := Prog.play_perform_bind.mp play
  have finishes : ∀ {deeds : List (Deed S)}, (do
      plugins made
      applyBuiltIns made record.options
      return made : Prog S CompilerId).Play deeds compiler →
      ∃ middle, compiler = made ∧ deeds = middle ++
        [.op (.register compiler .shouldEmit "NoEmitOnErrorsPlugin" .noEmitOnErrors) ()] := by
    intro deeds play
    obtain ⟨first, -, others, -, built, rfl⟩ := Prog.play_bind.mp play
    rw [applyBuiltIns, if_pos strict] at built
    obtain ⟨-, last, ended, rfl⟩ := Prog.play_perform_bind.mp built
    obtain ⟨rfl, rfl⟩ := Prog.play_pure.mp ended
    exact ⟨first, rfl, rfl⟩
  dsimp only at created
  split at created
  · obtain ⟨-, others, finished, rfl⟩ := Prog.play_perform_bind.mp created
    obtain ⟨middle, rfl, rfl⟩ := finishes finished
    exact ⟨.op (.setCache ArtifactCache.empty) () :: middle, rfl⟩
  · obtain ⟨middle, rfl, rfl⟩ := finishes created
    exact ⟨middle, rfl⟩

namespace Machine

variable {start machine after : Machine E} {events : List (TaskId × Event S)} {id task : TaskId}
  {compiler : CompilerId}

section Registered

variable {part : Registry (Watcher S)}

theorem Step.keeps {seen : Option (Event S)} (step : machine.Step id seen after)
    (keeps : machine.world.Keeps compiler part) : after.world.Keeps compiler part := by
  cases step with
  | op runs performed => exact World.Has.kept (keeps.perform performed) rfl
  | call | request | turn | finish => exact keeps.kept rfl
  | crash runs => exact keeps.crash (fun _ held => held) id

theorem Trace.keeps (trace : start.Trace events machine) (keeps : start.world.Keeps compiler part) :
    machine.world.Keeps compiler part := by
  induction trace with
  | start => exact keeps
  | seen _ step ih => exact step.keeps ih
  | unseen _ step ih => exact step.keeps ih

/-- The built-in observer stays with a compiler that was made with it. -/
theorem Trace.prepared (trace : start.Trace events machine) (prepared : Prepared E events compiler) :
    machine.world.Keeps compiler [⟨.shouldEmit, Compiler.errorGate⟩] := by
  obtain ⟨maker, record, plugins, deeds, earlier, inner, later, strict, play, expands, own⟩ := prepared
  obtain ⟨middle, rfl⟩ := Compiler.play_create play strict
  cases expands with
  | op expands =>
      obtain ⟨past, last, rfl, -, registers⟩ := expands.of_append
      cases registers with
      | op ended =>
          rw [List.cons_append, List.append_assoc, List.cons_append] at own
          obtain ⟨before, rest, rfl, -, remaining⟩ := eventsOf_eq_append own
          obtain ⟨during, after, rfl, -, -⟩ := eventsOf_eq_append remaining
          obtain ⟨_, made, -, creation, onward⟩ := trace.split_at
          obtain ⟨_, registered, between, registration, ending⟩ := onward.split_at
          refine ending.keeps ?_
          have there : made.world.Keeps compiler [] := by
            cases creation with
            | op runs performed => exact World.Has.kept (World.keeps_of_createCompiler performed) rfl
          cases registration with
          | op runs performed =>
              exact World.Has.kept (World.keeps_of_register (between.keeps there) performed) rfl

/-- A task that was spawned later sees the built-in observer. -/
theorem Tidy.looked_prepared {spawner : TaskId} {job : Job S} {before rest : List (TaskId × Event S)}
    {record : CompilerRecord S} (tidy : start.Tidy)
    (trace : start.Trace (before ++ (spawner, .op (.spawn job) task) :: rest) machine)
    (prepared : Prepared E before compiler)
    (looked : (task, .op (.look compiler) record) ∈
      before ++ (spawner, .op (.spawn job) task) :: rest) :
    ⟨.shouldEmit, Compiler.errorGate⟩ ∈ record.registry := by
  obtain ⟨first, begun, past, spawns, onward⟩ := trace.split_at
  have later : (task, .op (.look compiler) record) ∈ rest := by
    rcases List.mem_append.mp looked with early | late
    · have born := ((tidy.trace past).program?_spawned spawns).1
      exact absurd (tidy.lt_nextTask past early) (born ▸ Nat.lt_irrefl _)
    · rcases List.mem_cons.mp late with same | late
      · cases same
      · exact late
  obtain ⟨during, others, rfl⟩ := List.append_of_mem later
  obtain ⟨now, next, between, looks, -⟩ := onward.split_at
  have keeps := between.keeps (spawns.keeps (past.prepared prepared))
  cases looks with
  | op runs performed =>
      cases performed
      exact keeps.looked (List.mem_singleton_self _)

end Registered

end Machine

/-! ## Code outside that leaves a view alone -/

/-- A request that never changes a view of the state. -/
def Environment.Leaves {ω : Type} (E : Environment S) (view : E.State → ω) (wish : S.Request) : Prop :=
  ∀ state answer after, E.serve wish state = some (answer, after) → view after = view state

/-- A program that makes no request that changes a view, as long as it makes no output. -/
inductive Prog.Harmless {ω α : Type} (E : Environment S) (view : E.State → ω) : Prog S α → Prop where
  | done (value : α) : Harmless E view (.done value)
  | op {operation : Op S} {next : operation.Reply → Prog S α}
      (rest : ∀ reply, Harmless E view (next reply)) : Harmless E view (.op operation next)
  | call {outside : Call S} {next : outside.Reply → Prog S α}
      (rest : ¬ outside.Outputs → ∀ reply, Harmless E view (next reply)) :
      Harmless E view (.call outside next)
  | request {wish : S.Request} {next : S.Answer wish → Prog S α} (leaves : E.Leaves view wish)
      (rest : ∀ answer, Harmless E view (next answer)) : Harmless E view (.request wish next)
  | panic : Harmless E view .panic

/-- Apart from output, no code outside changes the view. -/
def Environment.Harmless {ω : Type} (E : Environment S) (view : E.State → ω) : Prop :=
  ∀ outside : Call S, ¬ outside.Outputs → (E.answer outside).Harmless E view

namespace Prog.Harmless

variable {ω α β : Type} {view : E.State → ω}

theorem bind {program : Prog S α} {next : α → Prog S β} (first : program.Harmless E view)
    (rest : ∀ value, (next value).Harmless E view) : (program.bind next).Harmless E view := by
  induction first with
  | done value => exact rest value
  | op _ ih => exact .op ih
  | call _ ih => exact .call ih
  | request leaves _ ih => exact .request leaves ih
  | panic => exact .panic

/-- Code that makes no requests of its own changes nothing. -/
theorem of_within {ops : Op S → Prop} {calls : Call S → Prop} {program : Prog S α}
    (within : program.Within ops calls) : program.Harmless E view := by
  induction within with
  | done value => exact .done value
  | op _ _ ih => exact .op ih
  | call _ _ ih => exact .call fun _ => ih

theorem follows {program left : Prog S α} {events : List (Event S)} (environment : E.Harmless view)
    (harmless : program.Harmless E view) (follows : Follows E program events left)
    (silent : ∀ outside, .call outside ∈ events → ¬ outside.Outputs) : left.Harmless E view := by
  induction follows with
  | start => exact harmless
  | op _ ih =>
      cases harmless with
      | op rest => exact ih (rest _) fun outside member => silent outside (List.mem_cons_of_mem _ member)
  | call _ ih =>
      cases harmless with
      | call rest =>
          have quiet := silent _ List.mem_cons_self
          refine ih ((environment _ quiet).bind (rest quiet)) fun outside member => ?_
          exact silent outside (List.mem_cons_of_mem _ member)
  | request _ ih =>
      cases harmless with
      | request _ rest =>
          exact ih (rest _) fun outside member => silent outside (List.mem_cons_of_mem _ member)

end Prog.Harmless

namespace Machine

variable {start machine after : Machine E} {events : List (TaskId × Event S)} {spawner task : TaskId}
  {job : Job S} {ω : Type} {view : E.State → ω}

theorem Step.view_kept {seen : Option (Event S)} {program : Prog S (Compiler.Next S)}
    (step : machine.Step task seen after) (runs : machine.program? task = some program)
    (harmless : program.Harmless E view) : view after.state = view machine.state := by
  cases step with
  | request found served =>
      cases runs.symm.trans found
      cases harmless with
      | request leaves _ => exact leaves _ _ _ served
  | op | call | turn | finish | crash => rfl

/-- A task without output changes nothing of a view that code outside leaves alone. -/
theorem Tidy.view_kept {seen : Option (Event S)} (tidy : start.Tidy)
    (trace : start.Trace events machine) (spawned : (spawner, .op (.spawn job) task) ∈ events)
    (environment : E.Harmless view)
    (silent : ∀ outside, .call outside ∈ eventsOf task events → ¬ outside.Outputs)
    (step : machine.Step task seen after) : view after.state = view machine.state := by
  obtain ⟨program, runs⟩ := step.runs
  refine step.view_kept runs ?_
  rcases tidy.history trace spawned with ⟨left, found, accounts⟩ | ⟨absent, -⟩
  · obtain rfl := Option.some.inj (runs.symm.trans found)
    generalize eventsOf task events = own at accounts silent
    cases accounts with
    | between course expands => exact .of_within (Compiler.ofJobs_course course)
    | calling course expands follows =>
        have quiet := silent _ (List.mem_append_right _ List.mem_cons_self)
        have code := Prog.Harmless.follows environment (environment _ quiet) follows
          fun outside member => silent outside
            (List.mem_append_right _ (List.mem_cons_of_mem _ member))
        have job : Prog.Harmless E view _ := .of_within (Compiler.ofJobs_course course)
        cases job with
        | call rest => exact code.bind (rest quiet)
  · cases runs.symm.trans absent

end Machine

/-! ## Output in executions -/

open Compiler in
/-- What a task has done so far at the level of its job, and the call that it is in the middle of
or was broken off by. -/
inductive Tracks (E : Environment S) (job : Job S) :
    List (Event S) → List (Deed S) → Option (Call S) → Prop where
  | between {deeds events left} (course : Course job deeds left) (expands : Expands E deeds events) :
      Tracks E job events deeds none
  | calling {deeds events outside next inner code} (course : Course job deeds (.call outside next))
      (expands : Expands E deeds events) (follows : (E.answer outside).Follows E inner code) :
      Tracks E job (events ++ .call outside :: inner) deeds (some outside)

/-- A job has made a call, or is in the middle of it. -/
def Makes (deeds : List (Deed S)) (current : Option (Call S)) (outside : Call S) : Prop :=
  (∃ reply, .call outside reply ∈ deeds) ∨ current = some outside

theorem Tracks.meets {job : Job S} {events : List (Event S)} {deeds : List (Deed S)}
    {current : Option (Call S)} {outside : Call S} (tracks : Tracks E job events deeds current)
    (makes : Makes deeds current outside) :
    ∃ left, Compiler.Course job deeds left ∧ Meets deeds left outside := by
  cases tracks with
  | between course =>
      rcases makes with made | ahead
      · exact ⟨_, course, .inl made⟩
      · cases ahead
  | calling course =>
      rcases makes with made | ahead
      · exact ⟨_, course, .inl made⟩
      · cases ahead
        exact ⟨_, course, .inr ⟨_, rfl⟩⟩

theorem Tracks.mem_op {job : Job S} {events : List (Event S)} {deeds : List (Deed S)}
    {current : Option (Call S)} {operation : Op S} {reply : operation.Reply}
    (tracks : Tracks E job events deeds current) (made : .op operation reply ∈ deeds) :
    .op operation reply ∈ events := by
  have seen : ∀ {deeds : List (Deed S)} {events : List (Event S)}, Expands E deeds events →
      .op operation reply ∈ deeds → .op operation reply ∈ events := by
    intro deeds events expands made
    induction expands with
    | nothing => cases made
    | op _ ih =>
        rcases List.mem_cons.mp made with same | made
        · cases same
          exact List.mem_cons_self
        · exact List.mem_cons_of_mem _ (ih made)
    | call _ _ ih =>
        rcases List.mem_cons.mp made with same | made
        · cases same
        · exact List.mem_cons_of_mem _ (List.mem_append_right _ (ih made))
    | request _ ih =>
        rcases List.mem_cons.mp made with same | made
        · cases same
        · exact List.mem_cons_of_mem _ (ih made)
  cases tracks with
  | between course expands => exact seen expands made
  | calling course expands => exact List.mem_append_left _ (seen expands made)

namespace Machine

variable {start machine : Machine E} {events : List (TaskId × Event S)} {spawner task : TaskId}
  {job : Job S}

theorem Tidy.tracks (tidy : start.Tidy) (trace : start.Trace events machine)
    (spawned : (spawner, .op (.spawn job) task) ∈ events) :
    ∃ deeds current, Tracks E job (eventsOf task events) deeds current := by
  obtain ⟨deeds, left, seen, tail, course, expands, same, ending⟩ := tidy.did trace spawned
  rw [same]
  cases ending with
  | between =>
      rw [List.append_nil]
      exact ⟨deeds, none, .between course expands⟩
  | calling calls follows =>
      obtain rfl := calls
      exact ⟨deeds, _, .calling course expands follows⟩

open Compiler

/-- A compiler that is to decide against output for errors. -/
def strictCompiler : CompilerRecord Setting.plain where
  options := { Options.forContext (.of "/") with noEmitOnErrors := true }

/-- A task makes a compiler and starts a run of it. -/
def writing : Prog Setting.plain Unit := do
  let compiler ← create strictCompiler fun _ => return
  Compiler.run compiler ()

def writer : Machine Environment.inert := .hosting () [] writing

theorem writer_tidy : writer.Tidy := tidy_hosting (E := Environment.inert) () [] writing

/-- The phases of the run are about to begin. -/
def prepared : List (TaskId × Event Setting.plain) × Machine Environment.inert :=
  playback [] writer (List.replicate 5 0 ++ List.replicate 3 1)

/-- The phases go on until they have come to the first directory. -/
def written : List (TaskId × Event Setting.plain) × Machine Environment.inert :=
  playback [] prepared.2 (List.replicate 14 2)

theorem written_trace : writer.Trace (prepared.1 ++ written.1) written.2 :=
  Trace.append (trace_playback .start _) (trace_playback .start _)

theorem prepared_strict : Prepared Environment.inert (prepared.1.take 7) 0 := by
  have play : (create strictCompiler fun _ => return : Prog Setting.plain CompilerId).Play
      [.op (.createCompiler strictCompiler) 0, .op (.setCache ArtifactCache.empty) (),
        .op (.register 0 .shouldEmit "NoEmitOnErrorsPlugin" .noEmitOnErrors) ()] 0 :=
    .op (.op (.op (.done 0)))
  exact ⟨0, strictCompiler, _, _, [], _, _, rfl, play, .op (.op (.op .nothing)), rfl⟩

end Machine

end Bundler