import Bundler.Proofs.Build.BuiltModules
import Bundler.Proofs.Build.NeededFiles
import Bundler.Proofs.Options.EntryCollisions
import Bundler.Proofs.Source.OpenedCalls

/-!
# Calls that a build notices

A build notices a call if it extracts the request, or if it warns that some call of the file
computes its request. The warnings of a build are those of the files that it reads, in order of
reading. `calls_noticed_iff` says which calls are noticed: those that are extracted, and all calls
of a file in which the argument of one begins without a quote. `unnoticed_concatenation` is a
request that is put together behind a quoted text: neither extracted nor reported.
-/

namespace Bundler.Build

/-- The warning about a file in which a call computes its request. -/
def fileWarnings (view : FileView) (context path : Path) : List Diagnostic :=
  if Source.hasDynamicCall (textAt view path) then [.dynamicRequest (moduleId context path)] else []

theorem fileWarnings_of_error {view : FileView} {path : Path} {fault : FileFault}
    (unread : view.read path = .error fault) (context : Path) :
    fileWarnings view context path = [] := by
  have empty : textAt view path = "" := by rw [textAt, unread]
  rw [fileWarnings, empty]
  rfl

/-! ## Warnings of a scan -/

namespace Scan

variable (view : FileView) (context : Path)

theorem warnings_note (directory : Path) (scan : Scan) (request : String) (module : Option String)
    (resolution : Resolution) :
    (scan.note context directory request module resolution).2.compilation.warnings =
      scan.compilation.warnings := by
  cases resolution <;> rfl

theorem warnings_resolveEntries (entries : List (String × String)) (scan : Scan) :
    ((resolveEntries context entries scan).answer view).compilation.warnings =
      scan.compilation.warnings := by
  induction entries generalizing scan with
  | nil => rfl
  | cons entry rest ih =>
    obtain ⟨name, request⟩ := entry
    have noted := warnings_note context context scan request none
      ((resolve context request).answer view)
    simp only [resolveEntries, Inquiry.answer_bind]
    generalize scan.note context context request none _ = outcome at noted ⊢
    obtain ⟨found, noted'⟩ := outcome
    cases found <;> exact (ih _).trans noted

theorem warnings_resolveRequests (directory : Path) (id : String) (requests : List String)
    (resolved : List (String × Option String)) (scan : Scan) :
    ((resolveRequests context directory id requests resolved scan).answer view).2.compilation.warnings =
      scan.compilation.warnings := by
  induction requests generalizing resolved scan with
  | nil => rfl
  | cons request rest ih =>
    simp only [resolveRequests, Inquiry.answer_bind]
    exact (ih ..).trans (warnings_note ..)

theorem warnings_decodeModule (scan : Scan) (id : String) (content : ByteArray) :
    (scan.decodeModule id content).2.compilation.warnings = scan.compilation.warnings ++
      if Source.hasDynamicCall (Text.decode content).text then [.dynamicRequest id] else [] := by
  simp only [decodeModule]
  cases (Text.decode content).fault <;>
    cases Source.hasDynamicCall (Text.decode content).text <;>
    simp [Compilation.pushWarning, Compilation.pushError]

/-- Taking in a file adds the warning about the file. -/
theorem warnings_addFile (scan : Scan) {path : Path} {content : ByteArray}
    (read : view.read path = .ok content) :
    ((scan.addFile context path content).answer view).compilation.warnings =
      scan.compilation.warnings ++ fileWarnings view context path := by
  have text : (Text.decode content).text = textAt view path := by rw [textAt, read]
  simp only [addFile, Inquiry.answer_bind, Inquiry.answer_pure]
  refine (warnings_resolveRequests view context ..).trans ?_
  rw [warnings_decodeModule, text]
  rfl

/-- Every file that is read from here on adds its warning, in the order of reading. -/
theorem warnings_drain (budget : Nat) (scan : Scan) :
    ((drain context budget scan).answer view).compilation.warnings =
      scan.compilation.warnings ++
        ((drain context budget scan).reads view).flatMap (fileWarnings view context) := by
  induction budget generalizing scan with
  | zero =>
    unfold drain
    split
    · exact (List.append_nil _).symm
    · exact (List.append_nil _).symm
    · next zero _ => cases zero
  | succ budget ih =>
    cases next : scan.queue.dropWhile scan.knows with
    | nil =>
      rw [drain_of_nil context _ next]
      exact (List.append_nil _).symm
    | cons path rest =>
      rw [drain_of_cons context budget next, Inquiry.reads_read, Inquiry.answer]
      cases read : view.read path with
      | error fault =>
        simp [Inquiry.reads, fileWarnings_of_error read]
      | ok content =>
        obtain ⟨grown, -⟩ := grows_addFile view
          { scan with seen := path :: scan.seen, queue := rest } context path content
        simp only [Inquiry.answer_bind, Inquiry.reads_bind, Inquiry.reads_eq_nil grown.asksFiles,
          List.nil_append, List.flatMap_cons]
        rw [ih, warnings_addFile view context _ read, List.append_assoc]

theorem warnings_run (options : Options) (budget : Nat) (initial : Compilation) :
    ((run options budget initial).answer view).compilation.warnings = initial.warnings ++
      ((run options budget initial).reads view).flatMap (fileWarnings view options.context) := by
  have grown := grows_resolveEntries view options.context options.entry.entries
    { compilation := initial }
  simp only [run, Inquiry.answer_bind, Inquiry.reads_bind, Inquiry.reads_eq_nil grown.asksFiles,
    List.nil_append]
  rw [warnings_drain, warnings_resolveEntries]

end Scan

/-! ## Warnings of a build -/

theorem warnings_addEntries (options : Options) (modules : Table String ScannedModule)
    (entries : List (String × String)) (compilation : Compilation) :
    (entries.foldl (fun compilation (name, entry) =>
      addEntry options modules compilation name entry) compilation).warnings =
      compilation.warnings := by
  induction entries generalizing compilation with
  | nil => rfl
  | cons entry rest ih =>
    refine (ih _).trans ?_
    simp only [addEntry, Compilation.emitAsset]
    split
    · rfl
    · split <;> rfl

theorem warnings_renderAll (digest : ByteArray → Fingerprint)
    (modules : Table String ScannedModule) (rendering : Rendering) :
    (renderAll digest modules rendering).compilation.warnings = rendering.compilation.warnings := by
  obtain ⟨added, -, -, shape, -⟩ := @renderAll_eq (fun _ _ => True) digest modules
    (fun _ _ _ => trivial) rendering fun _ _ _ _ _ => trivial
  rw [shape]
  clear shape
  generalize rendering.compilation = compilation
  induction added generalizing compilation with
  | nil => rfl
  | cons module rest ih => exact ih _

/-- Rendering warns of nothing. -/
theorem warnings_finish (digest : ByteArray → Fingerprint) (options : Options)
    (cache : Option ArtifactCache) (scan : Scan) :
    (finish digest options cache scan).compilation.warnings = scan.compilation.warnings := by
  unfold finish
  cases scan.failure with
  | some failure => rfl
  | none => exact (warnings_addEntries ..).trans (warnings_renderAll ..)

/-- The warnings of a build are those about the files that it reads. A call that is opened in one of
these files is noticed, extracted or warned about, exactly if it is a literal call that lies inside
no earlier one, or if the argument of some call in the file begins without a quote. -/
theorem calls_noticed_iff (digest : ByteArray → Fingerprint) (options : Options) (budget : Nat)
    (cache : Option ArtifactCache) (initial : Compilation) (view : FileView) :
    let build := buildBundles digest options budget cache initial
    (build.answer view).compilation.warnings = initial.warnings ++
        (build.reads view).flatMap (fileWarnings view options.context) ∧
      ∀ path ∈ build.reads view, ∀ before first,
        Source.Opened (textAt view path).toList before first →
        (((∃ request ∈ Source.requests (textAt view path),
              Source.Extracted (textAt view path) before request) ∨
            .dynamicRequest (moduleId options.context path) ∈
              fileWarnings view options.context path) ↔
          (Source.WritesCall (textAt view path).toList before ∧
              ¬ Source.Within (textAt view path) before) ∨
            ∃ other, Source.IsComputed (textAt view path).toList other) := by
  intro build
  refine ⟨?_, fun path _ before first opened => ?_⟩
  · simp only [build, reads_buildBundles]
    simp only [buildBundles, Inquiry.answer_bind, Inquiry.answer_pure]
    rw [warnings_finish, Scan.warnings_run]
  · have extracted : (∃ request ∈ Source.requests (textAt view path),
        Source.Extracted (textAt view path) before request) ↔
          ∃ request, Source.Extracted (textAt view path) before request := by
      constructor
      · rintro ⟨request, -, found⟩
        exact ⟨request, found⟩
      · rintro ⟨request, found⟩
        exact ⟨request, found.mem_requests, found⟩
    have warned : .dynamicRequest (moduleId options.context path) ∈
        fileWarnings view options.context path ↔
          Source.hasDynamicCall (textAt view path) = true := by
      rw [fileWarnings]
      split
      · next dynamic => exact iff_of_true List.mem_cons_self dynamic
      · next quiet => exact iff_of_false List.not_mem_nil quiet
    rw [extracted, warned, Source.extracted_iff opened.1, Source.hasDynamicCall_iff]

/-- The options of a project of one file. -/
def oneFileOptions : Options := Options.projectOptions (Table.empty.insert "main" "./a")

def oneFileBuild : Inquiry Built :=
  buildBundles Fingerprint.of oneFileOptions 2 none { id := 1 }

def oneFile (text : String) : FileView := .holding [(.of "/project/a.js", text.toUTF8)]

/-- A call that is put together behind a quoted text, in front of one whose request is a name. -/
def mixedCalls : String := "require('./b' + x);require(y)"

/-- The first call of the file is noticed because of the second one. -/
theorem calls_noticed_mixed :
    Source.Opened mixedCalls.toList [] '\'' ∧
    (.of "/project/a.js") ∈ oneFileBuild.reads (oneFile mixedCalls) ∧
    (oneFileBuild.answer (oneFile mixedCalls)).compilation.warnings = [.dynamicRequest "./a.js"] ∧
    ((∃ request ∈ Source.requests mixedCalls, Source.Extracted mixedCalls [] request) ∨
      .dynamicRequest "./a.js" ∈ fileWarnings (oneFile mixedCalls) oneFileOptions.context
        (.of "/project/a.js")) := by
  have text : textAt (oneFile mixedCalls) (.of "/project/a.js") = mixedCalls := by decide +kernel
  have read : (.of "/project/a.js") ∈ oneFileBuild.reads (oneFile mixedCalls) := by decide +kernel
  have opened : Source.Opened mixedCalls.toList [] '\'' :=
    ⟨rfl, by decide, mixedCalls.toList, "./b' + x);require(y)".toList, rfl,
      Source.argument?_eq_some_iff.1 (by decide +kernel)⟩
  have computed : Source.IsComputed mixedCalls.toList "require('./b' + x);".toList :=
    ⟨'y', ⟨by decide +kernel, by decide, "require(y)".toList, [')'], by decide +kernel,
      Source.argument?_eq_some_iff.1 (by decide +kernel)⟩, by decide, by decide⟩
  have id : moduleId oneFileOptions.context (.of "/project/a.js") = "./a.js" := by decide +kernel
  obtain ⟨-, noticed⟩ := calls_noticed_iff Fingerprint.of oneFileOptions 2 none { id := 1 }
    (oneFile mixedCalls)
  have here := noticed _ read [] '\'' (text.symm ▸ opened)
  rw [text, id] at here
  exact ⟨opened, read, by decide +kernel, here.2 (.inr ⟨_, computed⟩)⟩

/-- A request that is put together behind a quoted text goes by without a request and without a
diagnostic. -/
theorem unnoticed_concatenation :
    let built := oneFileBuild.answer (oneFile "require('./b' + x)")
    Source.Opened "require('./b' + x)".toList [] '\'' ∧
    Source.requests "require('./b' + x)" = [] ∧
    built.failure = none ∧
    built.compilation.modules.keys = ["./a.js"] ∧
    built.compilation.warnings = [] ∧
    built.compilation.errors = [] := by
  intro built
  refine ⟨⟨rfl, by decide, "require('./b' + x)".toList, "./b' + x)".toList, rfl, ?_⟩, ?_⟩
  · exact Source.argument?_eq_some_iff.1 (by decide +kernel)
  · decide +kernel

end Bundler.Build
