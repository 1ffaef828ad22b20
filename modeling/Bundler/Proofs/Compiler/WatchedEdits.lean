import Bundler.Proofs.Compiler.BuildPrograms
import Bundler.Proofs.Compiler.ChangeDelivery

/-!
# Edits and the runs that see them

Files are edited while a driver watches them. `Survey` collects at which paths edits have changed
anything since a run of the driver last took its changes, and `Window` says how far the driver is
with a run: from its opening on until its worker is done no file may change under it. If all that
was touched is mentioned in change sets that were received, a run without changes has nothing
to forget.
-/

namespace Bundler

variable {S : Setting}

/-- An intake without changes is one of empty change sets. -/
theorem Intake.isEmpty_of_merged {intake : Intake} (empty : intake.merged.isEmpty = true) :
    ∀ changes ∈ intake.sets, changes.isEmpty = true := by
  obtain ⟨sets, invalidated⟩ := intake
  simp only [merged] at empty
  induction sets using List.reverseRecOn with
  | nil => simp
  | append_singleton sets changes ih =>
      rw [List.foldl_append, List.foldl_cons, List.foldl_nil] at empty
      obtain ⟨before, last⟩ := ChangeSet.isEmpty_of_merge empty
      intro other member
      rcases List.mem_append.mp member with member | member
      · exact ih before other member
      · obtain rfl := List.mem_singleton.mp member
        exact last

/-! ## Files over time -/

/-- The files after some events. -/
def filesOf (files : FileTree) (events : List (TaskId × Event S.filed)) : FileTree :=
  events.foldl (fun files entry => entry.2.filesAfter files) files

theorem filesOf_append (files : FileTree) (first rest : List (TaskId × Event S.filed)) :
    filesOf files (first ++ rest) = filesOf (filesOf files first) rest := by
  simp [filesOf]

/-- The files, and the paths at which edits have changed anything since a run of the driver last
took its changes. -/
structure Survey where
  files : FileTree
  touched : Path → Prop

namespace Survey

/-- One more event, which may be one of the driver. -/
def note (survey : Survey) (entry : Bool × Event S.filed) : Survey :=
  match entry.2 with
  | .request (.edit files) _ =>
    { files
      touched := fun path => survey.touched path ∨ ¬ survey.files.SameAt files.toFileView path }
  | _ => if SessionView.begins entry then { survey with touched := fun _ => False } else survey

end Survey

/-- What some events make of files to which nothing had happened. -/
def surveyOf (files : FileTree) (events : SessionView.Events S.filed) : Survey :=
  events.foldl Survey.note ⟨files, fun _ => False⟩

section Surveys

variable {files : FileTree} {survey : Survey}

theorem Survey.note_files (entry : Bool × Event S.filed) :
    (survey.note entry).files = entry.2.filesAfter survey.files := by
  rw [note]
  split
  · rename_i edits
    rw [edits]
    rfl
  · rename_i unedited
    have same : entry.2.filesAfter survey.files = survey.files := by
      rw [Event.filesAfter]
      exact unedited
    rw [same]
    split <;> rfl

theorem surveyOf_append (events : SessionView.Events S.filed) (entry : Bool × Event S.filed) :
    surveyOf files (events ++ [entry]) = (surveyOf files events).note entry := by
  simp [surveyOf]

theorem surveyOf_files (driver : TaskId) (events : List (TaskId × Event S.filed)) :
    (surveyOf files (marked driver events)).files = filesOf files events := by
  induction events using List.reverseRecOn with
  | nil => rfl
  | append_singleton events entry ih =>
      rw [marked_append, filesOf_append]
      exact (congrArg Survey.files (surveyOf_append _ _)).trans
        ((Survey.note_files _).trans (by rw [ih]; rfl))

/-- What is untouched after an event was untouched before, unless the driver took its changes;
and the files are what they were. -/
theorem Survey.untouched_before {entry : Bool × Event S.filed}
    (other : SessionView.begins entry = false)
    (untouched : ∀ path, ¬ (survey.note entry).touched path) :
    (∀ path, ¬ survey.touched path) ∧ entry.2.filesAfter survey.files = survey.files := by
  rw [← note_files]
  rw [note] at untouched ⊢
  split at untouched
  · rename_i edited _ edits
    refine ⟨fun path touched => untouched path (.inl touched), ?_⟩
    refine (FileTree.eq_of_sameAt fun path => ?_).symm
    by_contra differs
    exact untouched path (.inr differs)
  · rw [other] at untouched ⊢
    exact ⟨untouched, rfl⟩

end Surveys

/-! ## Runs of the driver -/

/-- How far a driver is with a run, as far as files matter. -/
inductive Window where
  /-- No run has begun, or its worker is done. -/
  | closed
  | opened
  /-- The input has forgotten what it knew. -/
  | purged
  /-- The run has taken its changes, and its worker may read. -/
  | taken
  deriving DecidableEq

namespace Window

/-- One more event of the driver of a compiler that reads through an input. -/
def note (compiler : CompilerId) (input : StorageId) (window : Window) : Event S.filed → Window
  | .op (.acquire other) _ => if other = compiler then .opened else window
  | .request (.purge other) _ => if other = input ∧ window = .opened then .purged else window
  | .op (.setChanges _ _) _ => .taken
  | .op (.join _) _ => .closed
  | _ => window

/-- What the input remembers was seen in the run. -/
def Forgets (window : Window) : Prop := window = .purged ∨ window = .taken

end Window

def windowOf (compiler : CompilerId) (input : StorageId) (events : List (Event S.filed)) : Window :=
  events.foldl (Window.note compiler input) .closed

section Windows

variable {compiler : CompilerId} {input : StorageId} {window : Window} {event : Event S.filed}

theorem windowOf_append (events : List (Event S.filed)) :
    windowOf compiler input (events ++ [event]) =
      (windowOf compiler input events).note compiler input event := by
  simp [windowOf]

/-- How the input comes to have forgotten. -/
theorem Window.Forgets.before (forgets : (window.note compiler input event).Forgets) :
    window.Forgets ∨ event = .request (.purge input) () ∨
      ∃ taker changes, event = .op (.setChanges taker changes) () := by
  cases event with
  | op operation reply =>
      cases operation with
      | setChanges taker changes => exact .inr (.inr ⟨taker, changes, rfl⟩)
      | acquire other =>
          simp only [note] at forgets
          split at forgets
          · rcases forgets with same | same <;> cases same
          · exact .inl forgets
      | join => rcases forgets with same | same <;> cases same
      | _ => exact .inl forgets
  | call outside => exact .inl forgets
  | request wish answer =>
      cases wish with
      | purge other =>
          simp only [note] at forgets
          split at forgets
          · rename_i same
            obtain rfl := same.1
            exact .inr (.inl rfl)
          · exact .inl forgets
      | isFile | read | edit | other => exact .inl forgets

end Windows

end Bundler
