import Bundler.Proofs.Build.FreshReads
import Bundler.Proofs.Compiler.Visitors

/-!
# Files around compilers

Surroundings of compilers in which there are files. Builds are those of `Compiler.bundle`; they
read through storages, which may remember what they saw; anybody may edit the files. `Surroundings`
are completed by the rest of the code outside. `Machine.Step.fresh` says of one step what a
storage remembers afterwards: as long as the files stay as they are, a fresh storage stays fresh.
-/

namespace Bundler

variable {S : Setting}

/-- Files to be seen at one moment, each under every spelling of its path. -/
structure FileTree extends FileView where
  coherent : toFileView.Coherent

/-- Two views show the same at a path. -/
structure FileView.SameAt (left right : FileView) (path : Path) : Prop where
  isFile : left.isFile path = right.isFile path
  isDirectory : left.isDirectory path = right.isDirectory path
  read : left.read path = right.read path

theorem FileTree.eq_of_sameAt {left right : FileTree}
    (same : ∀ path, left.SameAt right.toFileView path) : left = right := by
  obtain ⟨⟨isFile, isDirectory, read⟩, coherent⟩ := left
  obtain ⟨⟨otherIsFile, otherIsDirectory, otherRead⟩, otherCoherent⟩ := right
  obtain rfl : isFile = otherIsFile := funext fun path => (same path).isFile
  obtain rfl : isDirectory = otherIsDirectory := funext fun path => (same path).isDirectory
  obtain rfl : read = otherRead := funext fun path => (same path).read
  rfl

/-! ## Requests -/

/-- What code outside can ask for where there are files. -/
inductive FileRequest (Other : Type) where
  | isFile (input : StorageId) (path : Path)
  | read (input : StorageId) (path : Path)
  | purge (input : StorageId)
  /-- From now on the files are these. -/
  | edit (files : FileTree)
  | other (wish : Other)

@[reducible] def FileRequest.Answer {Other : Type} (answer : Other → Type) :
    FileRequest Other → Type
  | .isFile .. => Bool
  | .read .. => Except FileFault ByteArray
  | .purge _ => Unit
  | .edit _ => Unit
  | .other wish => answer wish

/-- A setting with files. -/
@[reducible] def Setting.filed (S : Setting) : Setting where
  Observer := S.Observer
  Callback := S.Callback
  Handler := S.Handler
  Request := FileRequest S.Request
  Answer := FileRequest.Answer S.Answer

/-- The files, the storages through which they are read, and whatever else there is. -/
structure Filed (State : Type) where
  files : FileTree
  inputs : StorageId → InputStorage
  rest : State

namespace Filed

variable {State : Type}

/-- The state after one of the storages was asked. -/
def changeInput (state : Filed State) (input : StorageId) (storage : InputStorage) : Filed State :=
  { state with inputs := fun other => if other = input then storage else state.inputs other }

/-- Ask one of the storages, in front of the files as they are. -/
def ask {α : Type} (state : Filed State) (input : StorageId)
    (question : FileView → StateM InputStorage α) : α × Filed State :=
  let (answer, storage) := question state.files.toFileView (state.inputs input)
  (answer, state.changeInput input storage)

end Filed

/-- The code outside of compilers, without builds and storages. -/
structure Surroundings (S : Setting) where
  State : Type
  code : (outside : Call S.filed) → Prog S.filed outside.Reply
  serve : (wish : S.Request) → Filed State → Option (S.Answer wish × State)

namespace Surroundings

variable (U : Surroundings S)

def answer : (outside : Call S.filed) → Prog S.filed outside.Reply
  | .build compiler input compilation => Compiler.bundle compiler input compilation
  | .isFile input path => Prog.ask (S := S.filed) (.isFile input path)
  | .read input path => Prog.ask (S := S.filed) (.read input path)
  | .purge input => Prog.ask (S := S.filed) (.purge input)
  | outside => U.code outside

def serveFiled : (wish : FileRequest S.Request) → Filed U.State →
    Option (FileRequest.Answer S.Answer wish × Filed U.State)
  | .isFile input path, state => some (state.ask input fun files => InputStorage.isFileIn files path)
  | .read input path, state => some (state.ask input fun files => InputStorage.readFrom files path)
  | .purge input, state => some ((), state.changeInput input (state.inputs input).purge)
  | .edit files, state => some ((), { state with files })
  | .other wish, state =>
    (U.serve wish state).map fun (answer, rest) => (answer, { state with rest })

@[reducible] def environment : Environment S.filed where
  State := Filed U.State
  answer := U.answer
  serve := U.serveFiled

end Surroundings

/-! ## Builds are visitors -/

/-- Questions about files, and what is done with the answer. -/
theorem Prog.visitor_inquiry {α β : Type} {panics : Prop} {input : StorageId}
    (inquiry : Inquiry α) {next : α → Prog S β} (rest : ∀ value, (next value).Visitor panics) :
    (inquiry.run (fun path => Prog.invoke (.isFile input path))
      (fun path => Prog.invoke (.read input path)) >>= next).Visitor panics := by
  induction inquiry with
  | done value => exact rest value
  | isFile path more ih => exact .call trivial fun found => ih found
  | read path more ih => exact .call trivial fun content => ih content

theorem Compiler.bundle_visitor {panics : Prop} (compiler : CompilerId) (input : StorageId)
    (compilation : Compilation) :
    (Compiler.bundle compiler input compilation : Prog S _).Visitor panics := by
  refine .op trivial fun record => .op trivial fun cache => Prog.visitor_inquiry _ fun built => ?_
  cases built.cache <;> cases built.failure
  · exact .done _
  · exact .done _
  · exact .op trivial fun _ => .done _
  · exact .op trivial fun _ => .done _

/-! ## What a step does to files and storages -/

/-- The files after an event. -/
def Event.filesAfter (files : FileTree) : Event S.filed → FileTree
  | .request (.edit edited) _ => edited
  | _ => files

/-- The files are not edited by an event. -/
def Event.Unedited : Event S.filed → Prop
  | .request (.edit _) _ => False
  | _ => True

theorem Event.Unedited.filesAfter {event : Event S.filed} (unedited : event.Unedited)
    (files : FileTree) : event.filesAfter files = files := by
  cases event with
  | op | call => rfl
  | request wish answer =>
      cases wish with
      | edit => exact unedited.elim
      | isFile | read | purge | other => rfl

/-- What a storage remembers is so. -/
def Filed.Fresh {State : Type} (state : Filed State) (input : StorageId) : Prop :=
  (state.inputs input).Fresh state.files.toFileView

namespace Filed

variable {State : Type} {state : Filed State} {input asked : StorageId}

theorem Fresh.changeInput {storage : InputStorage} (fresh : state.Fresh input)
    (kept : (state.inputs asked).Fresh state.files.toFileView →
      storage.Fresh state.files.toFileView) : (state.changeInput asked storage).Fresh input := by
  change InputStorage.Fresh (if input = asked then storage else state.inputs input) _
  split
  · rename_i same
    exact kept (same ▸ fresh)
  · exact fresh

theorem fresh_purge (state : Filed State) (input : StorageId) :
    (state.changeInput input (state.inputs input).purge).Fresh input := by
  change InputStorage.Fresh (if input = input then _ else _) _
  rw [if_pos rfl]
  exact InputStorage.fresh_purge _ _

end Filed

namespace Surroundings

variable {U : Surroundings S} {wish : FileRequest S.Request}
  {answer : FileRequest.Answer S.Answer wish} {state after : Filed U.State} {input : StorageId}

theorem serve_files (served : U.serveFiled wish state = some (answer, after)) :
    after.files = (Event.request (S := S.filed) wish answer).filesAfter state.files := by
  cases wish with
  | isFile | read | purge | edit =>
      cases served
      rfl
  | other =>
      obtain ⟨⟨value, rest⟩, -, same⟩ := Option.map_eq_some_iff.mp served
      cases same
      rfl

/-- A fresh storage stays fresh as long as the files stay as they are. -/
theorem serve_fresh (served : U.serveFiled wish state = some (answer, after))
    (kept : (Event.request (S := S.filed) wish answer).filesAfter state.files = state.files)
    (fresh : state.Fresh input) : after.Fresh input := by
  cases wish with
  | isFile asked path =>
      cases served
      exact fresh.changeInput fun held => held.noteKind state.files.coherent path
  | read asked path =>
      cases served
      exact fresh.changeInput fun held => held.noteRead state.files.coherent path
  | purge asked =>
      cases served
      exact fresh.changeInput fun _ => InputStorage.fresh_purge _ _
  | edit files =>
      obtain rfl : files = state.files := kept
      cases served
      exact fresh
  | other =>
      obtain ⟨⟨value, rest⟩, -, same⟩ := Option.map_eq_some_iff.mp served
      cases same
      exact fresh

/-- A fresh storage answers as the files are. -/
theorem serve_isFile {path : Path} {found : Bool} (fresh : state.Fresh input)
    (served : U.serveFiled (.isFile input path) state = some (found, after)) :
    found = state.files.isFile path := by
  cases served
  exact (fresh.view_eq path).1

theorem serve_read {path : Path} {content : Except FileFault ByteArray} (fresh : state.Fresh input)
    (served : U.serveFiled (.read input path) state = some (content, after)) :
    content = state.files.read path := by
  cases served
  exact (fresh.view_eq path).2

/-- All code around compilers is code of visitors, builds and storages included. -/
theorem environment_hosts {panics : Prop} (visits : ∀ outside, (U.code outside).Visitor panics) :
    U.environment.Hosts panics := by
  intro outside
  cases outside with
  | isFile | read | purge => exact .request fun _ => .done _
  | build compiler input compilation => exact Compiler.bundle_visitor compiler input compilation
  | _ => exact visits _

end Surroundings

namespace Machine

variable {U : Surroundings S} {machine after : Machine U.environment} {id : TaskId}
  {event : Event S.filed} {input : StorageId}

theorem Step.files (step : machine.Step id (some event) after) :
    after.state.files = event.filesAfter machine.state.files := by
  cases step with
  | op | call => rfl
  | request runs served => exact Surroundings.serve_files served

theorem Step.fresh (step : machine.Step id (some event) after)
    (kept : event.filesAfter machine.state.files = machine.state.files)
    (fresh : machine.state.Fresh input) : after.state.Fresh input := by
  cases step with
  | op | call => exact fresh
  | request runs served => exact Surroundings.serve_fresh served kept fresh

/-- What has just been forgotten is fresh, whatever was there before. -/
theorem Step.fresh_purged (step : machine.Step id (some (.request (.purge input) ())) after) :
    after.state.Fresh input := by
  cases step with
  | request runs served =>
      cases served
      exact machine.state.fresh_purge input

theorem Step.state_unseen (step : machine.Step id none after) : after.state = machine.state := by
  cases step <;> rfl

end Machine

end Bundler
