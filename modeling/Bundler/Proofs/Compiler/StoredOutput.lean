import Bundler.Proofs.Compiler.AssetWriting
import Bundler.Proofs.Compiler.Footprint
import Bundler.Proofs.Storage.Directories

/-!
# Output into a store

`MemoryFiles.Answers` says that the calls of one output are answered by a store in memory and
that nothing else changes it. What a program then does to the store is what an action on
the store does that it `Mirrors`: emission in `stored`, where all observers are content.
-/

namespace Bundler

variable {S : Setting} {α β : Type} {output : StorageId}

/-- The deed makes a directory or writes a file of this output. -/
def Deed.Stores (output : StorageId) : Deed S → Prop
  | .call (.mkdir other _) _ => other = output
  | .call (.write other _ _) _ => other = output
  | _ => False

/-- No observer failed in the deed that was told of something. -/
def Deed.Unopposed : Deed S → Prop
  | .call (.observe _ _ _) reply => reply = .ok ()
  | _ => True

namespace MemoryFiles

/-- The calls of one output are answered by a store, and nothing else changes it. -/
inductive Answers (output : StorageId) : MemoryFiles → List (Deed S) → MemoryFiles → Prop where
  | nil (store : MemoryFiles) : Answers output store [] store
  | mkdir {store path deeds after} (rest : Answers output (mkdirAction path store).2 deeds after) :
      Answers output store (.call (.mkdir output path) (mkdirAction path store).1 :: deeds) after
  | write {store path content deeds after}
      (rest : Answers output (writeAction path content store).2 deeds after) :
      Answers output store (.call (.write output path content) (writeAction path content store).1 ::
        deeds) after
  | aside {store deed deeds after} (aside : ¬ deed.Stores output)
      (rest : Answers output store deeds after) : Answers output store (deed :: deeds) after

namespace Answers

variable {store after : MemoryFiles} {first rest deeds : List (Deed S)}

theorem split (answers : Answers output store (first ++ rest) after) :
    ∃ middle, Answers output store first middle ∧ Answers output middle rest after := by
  induction first generalizing store with
  | nil => exact ⟨store, .nil store, answers⟩
  | cons deed first ih =>
    cases answers with
    | mkdir others =>
      obtain ⟨middle, before, later⟩ := ih others
      exact ⟨middle, .mkdir before, later⟩
    | write others =>
      obtain ⟨middle, before, later⟩ := ih others
      exact ⟨middle, .write before, later⟩
    | aside aside others =>
      obtain ⟨middle, before, later⟩ := ih others
      exact ⟨middle, .aside aside before, later⟩

/-- A store does not change by what is no business of its output. -/
theorem eq_of_aside (answers : Answers output store deeds after)
    (aside : ∀ deed ∈ deeds, ¬ deed.Stores output) : after = store := by
  induction answers with
  | nil => rfl
  | mkdir => exact absurd rfl (aside _ List.mem_cons_self)
  | write => exact absurd rfl (aside _ List.mem_cons_self)
  | aside _ _ ih => exact ih fun deed member => aside deed (List.mem_cons_of_mem _ member)

theorem mkdir_iff {path : Path} {reply : Except FileFault Unit} :
    Answers output store [(.call (.mkdir output path) reply : Deed S)] after ↔
      mkdirAction path store = (reply, after) := by
  constructor
  · intro answers
    cases answers with
    | mkdir rest =>
      cases rest
      rfl
    | aside aside => exact absurd rfl aside
  · intro made
    have answers : Answers output store
        [(.call (.mkdir output path) (mkdirAction path store).1 : Deed S)]
        (mkdirAction path store).2 := .mkdir (.nil _)
    rwa [made] at answers

theorem write_iff {path : Path} {content : ByteArray} {reply : Except FileFault Unit} :
    Answers output store [(.call (.write output path content) reply : Deed S)] after ↔
      writeAction path content store = (reply, after) := by
  constructor
  · intro answers
    cases answers with
    | write rest =>
      cases rest
      rfl
    | aside aside => exact absurd rfl aside
  · intro written
    have answers : Answers output store
        [(.call (.write output path content) (writeAction path content store).1 : Deed S)]
        (writeAction path content store).2 := .write (.nil _)
    rwa [written] at answers

end Answers

end MemoryFiles

open MemoryFiles (Answers mkdirAction writeAction run_bind)

/-! ## Answered plays -/

/-- A look at a compiler found this record. -/
def Deed.Finds (record : CompilerRecord S) : Deed S → Prop
  | .op (.look _) reply => reply = record
  | _ => True

namespace Prog

/-- Every call can be answered so that no observer fails and the store is used. -/
theorem exists_answer (output : StorageId) (store : MemoryFiles) (outside : Call S) :
    ∃ (reply : outside.Reply) (middle : MemoryFiles), Deed.Unopposed (.call outside reply) ∧
      ∀ {deeds after}, Answers output middle deeds after →
        Answers output store (.call outside reply :: deeds) after := by
  cases outside with
  | observe compiler observer occasion => exact ⟨.ok (), store, rfl, .aside id⟩
  | mkdir other path =>
    by_cases same : other = output
    · subst same
      exact ⟨_, _, trivial, .mkdir⟩
    · exact ⟨.ok (), store, trivial, .aside same⟩
  | write other path content =>
    by_cases same : other = output
    · subst same
      exact ⟨_, _, trivial, .write⟩
    · exact ⟨.ok (), store, trivial, .aside same⟩
  | adjust => exact ⟨(.ok (), default), store, trivial, .aside id⟩
  | build => exact ⟨(.ok (), default), store, trivial, .aside id⟩
  | decide => exact ⟨.ok none, store, trivial, .aside id⟩
  | read => exact ⟨.error .notText, store, trivial, .aside id⟩
  | _ => exact ⟨default, store, trivial, .aside id⟩

/-- Every operation can be answered with a given record. -/
theorem exists_found (record : CompilerRecord S) (operation : Op S) :
    ∃ reply : operation.Reply, Deed.Finds record (.op operation reply) := by
  cases operation with
  | look => exact ⟨record, rfl⟩
  | lookSession => exact ⟨{ compiler := 0 }, trivial⟩
  | join => exact ⟨.error .panicked, trivial⟩
  | await => exact ⟨.gone, trivial⟩
  | _ => exact ⟨default, trivial⟩

/-- A program that asks nothing of the code outside but calls comes to an end on every store,
with no observer failing. -/
theorem Within.exists_answered {ops : Op S → Prop} {calls : Call S → Prop} {program : Prog S α}
    (within : Within ops calls program) (record : CompilerRecord S) (store : MemoryFiles) :
    ∃ deeds value after, program.Play deeds value ∧ Answers output store deeds after ∧
      ∀ deed ∈ deeds, deed.Unopposed ∧ deed.Finds record := by
  induction within generalizing store with
  | done value => exact ⟨[], value, store, .done value, .nil store, by simp⟩
  | @op operation next _ _ ih =>
    obtain ⟨reply, found⟩ := exists_found record operation
    obtain ⟨deeds, value, after, play, answers, content⟩ := ih reply store
    exact ⟨_, value, after, .op play, .aside id answers,
      List.forall_mem_cons.2 ⟨⟨trivial, found⟩, content⟩⟩
  | @call outside next _ _ ih =>
    obtain ⟨reply, middle, unopposed, answered⟩ := exists_answer output store outside
    obtain ⟨deeds, value, after, play, answers, content⟩ := ih reply middle
    exact ⟨_, value, after, .call play, answered answers,
      List.forall_mem_cons.2 ⟨⟨unopposed, trivial⟩, content⟩⟩

end Prog

/-! ## Programs that mirror actions -/

/-- On a store that answers the calls of an output, a program that does only what is allowed
does what the action does. -/
structure Prog.Mirrors (output : StorageId) (allowed : Deed S → Prop) (program : Prog S α)
    (action : StateM MemoryFiles α) : Prop where
  run : ∀ {store after : MemoryFiles} {deeds : List (Deed S)} {value : α},
    program.Play deeds value → Answers output store deeds after →
    (∀ deed ∈ deeds, allowed deed) → action.run store = (value, after)

namespace Prog.Mirrors

variable {allowed : Deed S → Prop}

theorem pure (value : α) : Mirrors output allowed (Pure.pure value) (Pure.pure value) := by
  refine ⟨fun {store after deeds result} play answers _ => ?_⟩
  obtain ⟨rfl, rfl⟩ := Prog.play_pure.mp play
  cases answers
  rfl

theorem bind {program : Prog S α} {action : StateM MemoryFiles α} {next : α → Prog S β}
    {follow : α → StateM MemoryFiles β} (first : Mirrors output allowed program action)
    (rest : ∀ value, Mirrors output allowed (next value) (follow value)) :
    Mirrors output allowed (program >>= next) (action >>= follow) := by
  refine ⟨fun {store after deeds result} play answers allows => ?_⟩
  obtain ⟨before, middle, later, begun, ended, rfl⟩ := Prog.play_bind.mp play
  obtain ⟨between, earlier, last⟩ := answers.split
  have began := first.run begun earlier fun deed member => allows deed (List.mem_append_left _ member)
  have went := (rest middle).run ended last fun deed member => allows deed (List.mem_append_right _ member)
  rw [run_bind, began]
  exact went

theorem mkdir (path : Bundler.Path) :
    Mirrors output allowed (Prog.invoke (.mkdir output path)) (mkdirAction path) := by
  refine ⟨fun {store after deeds result} play answers _ => ?_⟩
  rw [Prog.play_invoke.mp play] at answers
  exact Answers.mkdir_iff.1 answers

theorem write (path : Bundler.Path) (content : ByteArray) :
    Mirrors output allowed (Prog.invoke (.write output path content))
      (writeAction path content) := by
  refine ⟨fun {store after deeds result} play answers _ => ?_⟩
  rw [Prog.play_invoke.mp play] at answers
  exact Answers.write_iff.1 answers

theorem mkdirp (count : Nat) (path : Bundler.Path) :
    Mirrors output allowed
      (Bundler.mkdirp (fun path => Prog.invoke (.mkdir output path)) count path)
      (Bundler.mkdirp mkdirAction count path) := by
  induction count generalizing path with
  | zero => exact (mkdir path).bind fun _ => pure _
  | succ count ih =>
    refine (mkdir path).bind fun attempt => ?_
    cases missingAbove? path attempt with
    | none => exact pure _
    | some parent =>
      refine (ih parent).bind fun reply => ?_
      cases reply with
      | error fault => exact pure _
      | ok value => exact (mkdir path).bind fun _ => pure _

end Prog.Mirrors

/-! ## Emission -/

/-- Emission into a store, where nobody is told. -/
def MemoryFiles.stored : Emitter (StateM MemoryFiles) where
  mkdir := mkdirAction
  write := writeAction
  tell _ := pure (.ok ())

theorem MemoryFiles.run_stored_write (path : Path) (content : ByteArray) (store : MemoryFiles) :
    (stored.write path content).run store = writeAction path content store := rfl

namespace Compiler

open MemoryFiles (stored)

variable {compiler : CompilerId} {base : Path} {allowed : Deed S → Prop}

theorem mirrors_prepare (path : Path) :
    ((emitter compiler output).prepare path : Prog S _).Mirrors output allowed
      (stored.prepare path) :=
  (Prog.Mirrors.mkdirp _ path).bind fun _ => .pure _

/-- One asset is written as it is into a store. -/
theorem mirrors_emitOne (name : String) (content : ByteArray) :
    ((emitter compiler output).emitOne base name content : Prog S _).Mirrors output allowed
      (stored.emitOne base name content) := by
  have written : ∀ target, ((emitter compiler output).write target content >>=
      fun reply => pure (Emitter.failingAt target reply) : Prog S _).Mirrors output allowed
        (stored.write target content >>= fun reply => pure (Emitter.failingAt target reply)) :=
    fun target => (Prog.Mirrors.write target content).bind fun _ => .pure _
  rw [Emitter.emitOne, Emitter.emitOne]
  split
  · split
    · exact (Prog.Mirrors.pure _).bind (Except.rec (fun _ => .pure _) fun _ => written _)
    · exact (mirrors_prepare _).bind (Except.rec (fun _ => .pure _) fun _ => written _)
  · exact (Prog.Mirrors.pure _).bind (Except.rec (fun _ => .pure _) fun _ => written _)

/-- What is told is no business of an output. -/
theorem aside_of_observe {occasion : Occasion} {deeds : List (Deed S)}
    {result : Except RunError Unit} (play : (observe compiler occasion).Play deeds result) :
    ∀ deed ∈ deeds, ¬ deed.Stores output := by
  have within : (observe compiler occasion : Prog S _).Within (fun _ => True)
      (fun outside => ∃ observer, outside = .observe compiler observer occasion) :=
    within_observe trivial fun observer => ⟨observer, rfl⟩
  intro deed member
  have allowed := within.play play deed member
  match deed, allowed with
  | .op _ _, _ => exact id
  | .call _ _, ⟨_, rfl⟩ => exact id

/-- Observers that do not fail let a hook pass. -/
theorem passed_of_unopposed {occasion : Occasion} {hook : String} {taps : List (Tap (Watcher S))}
    {deeds : List (Deed S)} {ending : HookResult Unit Empty}
    (series : Series (Told compiler occasion) hook taps () deeds ending)
    (unopposed : ∀ deed ∈ deeds, deed.Unopposed) : ending = .ok ((), none) := by
  generalize start : () = value at series
  induction series with
  | through value => rw [← start]
  | passed asked remaining ih =>
    exact ih (fun deed member => unopposed deed (List.mem_append_right _ member)) rfl
  | decided asked =>
    rename_i decision
    cases decision
  | @failed tap rest value deeds reason asked =>
    unfold Told at asked
    split at asked
    · obtain ⟨reply, rfl, verdict⟩ := asked
      have agreed : reply = .ok () := unopposed _ (List.mem_singleton.2 rfl)
      rw [agreed] at verdict
      cases verdict
    · cases asked.2

theorem ok_of_unopposed {occasion : Occasion} {deeds : List (Deed S)}
    {result : Except RunError Unit} (play : (observe compiler occasion).Play deeds result)
    (unopposed : ∀ deed ∈ deeds, deed.Unopposed) : result = .ok () := by
  obtain ⟨ending, ⟨record, rest, rfl, series⟩, rfl⟩ := fires_of_observe play
  rw [passed_of_unopposed series fun deed member => unopposed deed (List.mem_cons_of_mem _ member)]
  rfl

theorem mirrors_observe (occasion : Occasion) :
    (observe compiler occasion : Prog S _).Mirrors output Deed.Unopposed (pure (.ok ())) := by
  refine ⟨fun play answers unopposed => ?_⟩
  rw [ok_of_unopposed play unopposed, answers.eq_of_aside (aside_of_observe play)]
  rfl

theorem mirrors_emitNamed (names : List String) (compilation : Compilation) :
    ((emitter compiler output).emitNamed base names compilation : Prog S _).Mirrors output
      Deed.Unopposed (stored.emitNamed base names compilation) := by
  induction names generalizing compilation with
  | nil => exact .pure _
  | cons name names ih =>
    rw [Emitter.emitNamed, Emitter.emitNamed]
    cases compilation.assets.get? name with
    | none => exact ih compilation
    | some asset =>
      refine (mirrors_emitOne name asset.content).bind fun reply => ?_
      cases reply with
      | error error => exact .pure _
      | ok value =>
        refine Prog.Mirrors.bind (mirrors_observe _) fun reply => ?_
        cases reply with
        | error error => exact .pure _
        | ok value => exact ih _

/-- Emission whose observers are content does what it does to a store alone. -/
theorem mirrors_emitAll (compilation : Compilation) :
    ((emitter compiler output).emitAll base compilation : Prog S _).Mirrors output
      Deed.Unopposed (stored.emitAll base compilation) := by
  refine (mirrors_prepare base).bind fun reply => ?_
  cases reply with
  | error error => exact .pure _
  | ok value => exact mirrors_emitNamed _ _

end Compiler

end Bundler
