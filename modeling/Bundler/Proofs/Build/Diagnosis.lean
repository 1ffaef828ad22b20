import Bundler.Proofs.Build.NeededFiles
import Bundler.Proofs.Options.EntryCollisions

/-!
# What a build reports

A view tells which requests have no file (`vain`) and which files are no text, so it tells what a
build has to report: `entryFaults` for the entries, `fileFaults` for each file that is read. A part of a scan adds the faults of what it looks at, in order, and counts the
candidates that were tried as missing (`Reports`). `faults_reported` says that a whole build
reports these faults and nothing else.
-/

namespace Bundler.Build

/-! ## Faults in a view -/

/-- None of the candidates of a request is a file. -/
def isVain (view : FileView) (directory : Path) (request : String) : Bool :=
  (Resolution.candidates directory request).all fun candidate => !view.isFile candidate

/-- The candidates that a request is tried under, if none of them is a file. -/
def triedInVain (view : FileView) (directory : Path) (request : String) : List Path :=
  if isVain view directory request then Resolution.candidates directory request else []

/-- The candidates that the requests of a file are tried under in vain. -/
def triedIn (view : FileView) (context path : Path) : List Path :=
  (Source.requests (textAt view path)).flatMap (triedInVain view (directoryOf context path))

/-- The requests that no file answers. -/
def vain (view : FileView) (directory : Path) (requests : List String) : List String :=
  requests.filter (isVain view directory)

/-- An error for each entry that no file answers. -/
def entryFaults (view : FileView) (options : Options) : List Diagnostic :=
  (vain view options.context options.entry.values).map fun request =>
    .unresolved request options.context none

/-- An error for each literal request of a file that no file answers. -/
def requestFaults (view : FileView) (context path : Path) : List Diagnostic :=
  (vain view (directoryOf context path) (Source.requests (textAt view path))).map fun request =>
    .unresolved request (directoryOf context path) (some (moduleId context path))

/-- An error for a file that is not UTF-8; it tells of the first bytes that are not. -/
def textFaults (view : FileView) (context path : Path) : List Diagnostic :=
  match view.read path with
  | .error _ => []
  | .ok content =>
    if (String.fromUTF8? content).isSome then []
    else [.illFormedModule (((Text.decode content).fault.map Text.Utf8Fault.message).getD "")
      (moduleId context path)]

/-- What there is to report of a file. -/
def fileFaults (view : FileView) (context path : Path) : List Diagnostic :=
  textFaults view context path ++ requestFaults view context path

theorem answer_of_isVain {view : FileView} {directory : Path} {request : String}
    (nowhere : isVain view directory request = true) :
    (resolve directory request).answer view =
      .notFound (Resolution.candidates directory request) := by
  have none : (Resolution.candidates directory request).find? view.isFile = none := by
    simpa [isVain] using nowhere
  rw [Resolution.answer_resolve, Resolution.first, none]

theorem exists_answer_of_not_isVain {view : FileView} {directory : Path} {request : String}
    (somewhere : isVain view directory request = false) :
    ∃ path, (resolve directory request).answer view = .found path := by
  have isSome : ((Resolution.candidates directory request).find? view.isFile).isSome = true := by
    simpa [isVain] using somewhere
  obtain ⟨path, found⟩ := Option.isSome_iff_exists.1 isSome
  exact ⟨path, by rw [Resolution.answer_resolve, Resolution.first, found]⟩

theorem vain_cons (view : FileView) (directory : Path) (request : String) (rest : List String) :
    vain view directory (request :: rest) =
      vain view directory [request] ++ vain view directory rest :=
  List.filter_append [request] rest

/-- A file that cannot be read asks for nothing. -/
theorem requests_of_error {view : FileView} {path : Path} {fault : FileFault}
    (unread : view.read path = .error fault) : Source.requests (textAt view path) = [] := by
  have empty : textAt view path = "" := by rw [textAt, unread]
  rw [empty]
  decide +kernel

theorem fileFaults_of_error {view : FileView} {path : Path} {fault : FileFault}
    (unread : view.read path = .error fault) (context : Path) :
    fileFaults view context path = [] := by
  simp [fileFaults, textFaults, requestFaults, unread, requests_of_error unread, vain]

/-- No fault of a file is a conflict of assets. -/
theorem kind_of_mem_fileFaults {view : FileView} {context path : Path} {fault : Diagnostic}
    (member : fault ∈ fileFaults view context path) : fault.kind ≠ .plugin := by
  rcases List.mem_append.1 member with text | request
  · unfold textFaults at text
    split at text
    · cases text
    · split at text
      · cases text
      · rw [List.mem_singleton.1 text]
        simp [Diagnostic.illFormedModule]
  · obtain ⟨request, -, rfl⟩ := List.mem_map.1 request
    simp [Diagnostic.unresolved]

theorem kind_of_mem_entryFaults {view : FileView} {options : Options} {fault : Diagnostic}
    (member : fault ∈ entryFaults view options) : fault.kind ≠ .plugin := by
  obtain ⟨request, -, rfl⟩ := List.mem_map.1 member
  simp [Diagnostic.unresolved]

/-! ## Parts of a scan -/

/-- What a part of a build reports: some errors, and some paths that are missing. -/
structure Reports (before after : Compilation) (faults : List Diagnostic) (tried : List Path) :
    Prop where
  errors : after.errors = before.errors ++ faults
  kept : ∀ path, before.missing.contains path = true → after.missing.contains path = true
  missing : ∀ path ∈ tried, after.missing.contains path = true

namespace Reports

theorem refl (compilation : Compilation) : Reports compilation compilation [] [] where
  errors := (List.append_nil _).symm
  kept _ held := held
  missing := by simp

theorem trans {before middle after : Compilation} {firstFaults restFaults : List Diagnostic}
    {firstTried restTried : List Path} (first : Reports before middle firstFaults firstTried)
    (rest : Reports middle after restFaults restTried) :
    Reports before after (firstFaults ++ restFaults) (firstTried ++ restTried) where
  errors := by rw [rest.errors, first.errors, List.append_assoc]
  kept path held := rest.kept path (first.kept path held)
  missing path tried := (List.mem_append.1 tried).elim
    (fun tried => rest.kept path (first.missing path tried)) (rest.missing path)

end Reports

namespace Scan

variable {view : FileView} (context : Path)

/-- A request that no file answers is an error, and its candidates are missing. -/
theorem reports_note (view : FileView) (context directory shown : Path) (scan : Scan)
    (request : String) (module : Option String) :
    Reports scan.compilation
      (scan.note context shown request module
        ((resolve directory request).answer view)).2.compilation
      ((vain view directory [request]).map fun request => .unresolved request shown module)
      (triedInVain view directory request) := by
  cases nowhere : isVain view directory request with
  | false =>
    obtain ⟨path, found⟩ := exists_answer_of_not_isVain nowhere
    rw [found, triedInVain, nowhere, vain, List.filter_singleton, nowhere]
    exact .refl scan.compilation
  | true =>
    rw [answer_of_isVain nowhere, triedInVain, nowhere, vain, List.filter_singleton, nowhere]
    exact ⟨rfl, fun path held => PathSet.contains_addAll_of_contains _ held,
      fun path member => PathSet.contains_addAll_of_mem _ member⟩

theorem reports_resolveEntries (view : FileView) (context : Path)
    (entries : List (String × String)) (scan : Scan) :
    Reports scan.compilation ((resolveEntries context entries scan).answer view).compilation
      ((vain view context (entries.map Prod.snd)).map fun request =>
        .unresolved request context none)
      (entries.flatMap fun entry => triedInVain view context entry.2) := by
  induction entries generalizing scan with
  | nil => exact .refl scan.compilation
  | cons entry rest ih =>
    obtain ⟨name, request⟩ := entry
    have noted := reports_note view context context context scan request none
    simp only [resolveEntries, Inquiry.answer_bind, List.map_cons, List.flatMap_cons]
    rw [vain_cons, List.map_append]
    generalize scan.note context context request none _ = outcome at noted ⊢
    obtain ⟨found, noted'⟩ := outcome
    cases found with
    | none => exact noted.trans (ih noted')
    | some id => exact noted.trans (ih { noted' with entries := noted'.entries ++ [(name, id)] })

theorem reports_resolveRequests (view : FileView) (context directory : Path) (id : String)
    (requests : List String) (resolved : List (String × Option String)) (scan : Scan) :
    Reports scan.compilation
      ((resolveRequests context directory id requests resolved scan).answer view).2.compilation
      ((vain view directory requests).map fun request => .unresolved request directory (some id))
      (requests.flatMap fun request => triedInVain view directory request) := by
  induction requests generalizing resolved scan with
  | nil => exact .refl scan.compilation
  | cons request rest ih =>
    have noted := reports_note view context directory directory scan request (some id)
    simp only [resolveRequests, Inquiry.answer_bind, List.flatMap_cons]
    rw [vain_cons, List.map_append]
    exact noted.trans (ih ..)

/-- A file that is not UTF-8 is an error. -/
theorem reports_decodeModule (scan : Scan) {path : Path} {content : ByteArray}
    (read : view.read path = .ok content) :
    Reports scan.compilation (scan.decodeModule (moduleId context path) content).2.compilation
      (textFaults view context path) [] := by
  have missing : (scan.decodeModule (moduleId context path) content).2.compilation.missing =
      scan.compilation.missing := by
    obtain ⟨errors, warnings, shape⟩ := decodeModule_eq scan (moduleId context path) content
    rw [shape]
  refine ⟨?_, fun other held => missing ▸ held, by simp⟩
  have isText := Text.decode_fault_eq_none_iff content
  simp only [textFaults, read, decodeModule]
  cases fault : (Text.decode content).fault with
  | none =>
    rw [if_pos (isText.1 fault)]
    split <;> simp [Compilation.pushWarning]
  | some fault =>
    have noText : ¬ (String.fromUTF8? content).isSome = true := fun text => by
      rw [isText.2 text] at *
      contradiction
    rw [if_neg noText]
    split <;> rfl

theorem reports_addFile (scan : Scan) {path : Path} {content : ByteArray}
    (read : view.read path = .ok content) :
    Reports scan.compilation ((scan.addFile context path content).answer view).compilation
      (fileFaults view context path) (triedIn view context path) := by
  have text : (Text.decode content).text = textAt view path := by rw [textAt, read]
  have source : ∀ before : Scan, (before.decodeModule (moduleId context path) content).1 =
      textAt view path := fun _ => text
  have added : Reports scan.compilation (scan.compilation.addFile path) [] [] :=
    ⟨(List.append_nil _).symm, fun _ held => held, by simp⟩
  have decoded := added.trans (reports_decodeModule context
    { scan with compilation := scan.compilation.addFile path } read)
  simp only [addFile, Inquiry.answer_bind, Inquiry.answer_pure, source]
  exact decoded.trans (reports_resolveRequests view context (directoryOf context path)
    (moduleId context path) (Source.requests (textAt view path)) [] _)

/-! ## The whole scan -/

/-- Every file that is read from here on reports its faults, in the order of reading. -/
theorem reports_drain (view : FileView) (context : Path) (budget : Nat) (scan : Scan) :
    Reports scan.compilation ((drain context budget scan).answer view).compilation
      (((drain context budget scan).reads view).flatMap (fileFaults view context))
      (((drain context budget scan).reads view).flatMap (triedIn view context)) := by
  induction budget generalizing scan with
  | zero =>
    unfold drain
    split
    · exact .refl scan.compilation
    · exact .refl scan.compilation
    · next zero _ => cases zero
  | succ budget ih =>
    cases next : scan.queue.dropWhile scan.knows with
    | nil =>
      rw [drain_of_nil context _ next]
      exact .refl scan.compilation
    | cons path rest =>
      rw [drain_of_cons context budget next, Inquiry.reads_read, Inquiry.answer]
      cases read : view.read path with
      | error fault =>
        have nothing : triedIn view context path = [] := by
          rw [triedIn, requests_of_error read, List.flatMap_nil]
        simpa [Inquiry.reads, fileFaults_of_error read, nothing] using
          Reports.refl scan.compilation
      | ok content =>
        have added := reports_addFile context
          { scan with seen := path :: scan.seen, queue := rest } read
        obtain ⟨grown, -⟩ := grows_addFile view
          { scan with seen := path :: scan.seen, queue := rest } context path content
        simp only [Inquiry.answer_bind, Inquiry.reads_bind, Inquiry.reads_eq_nil grown.asksFiles,
          List.nil_append, List.flatMap_cons]
        exact added.trans (ih _)

theorem reports_run (view : FileView) (options : Options) (budget : Nat) (initial : Compilation) :
    Reports initial ((run options budget initial).answer view).compilation
      (entryFaults view options ++
        ((run options budget initial).reads view).flatMap (fileFaults view options.context))
      (options.entry.entries.flatMap (fun entry => triedInVain view options.context entry.2) ++
        ((run options budget initial).reads view).flatMap (triedIn view options.context)) := by
  have grown := grows_resolveEntries view options.context options.entry.entries
    { compilation := initial }
  have entries := reports_resolveEntries view options.context options.entry.entries
    { compilation := initial }
  simp only [run, Inquiry.answer_bind, Inquiry.reads_bind, Inquiry.reads_eq_nil grown.asksFiles,
    List.nil_append]
  exact entries.trans (reports_drain view options.context budget _)

end Scan

/-! ## Builds -/

/-- Rendering reports nothing where different entries name different files. -/
theorem errors_finish {options : Options} (digest : ByteArray → Fingerprint)
    (cache : Option ArtifactCache) {scan : Scan}
    (distinct : (scan.entries.map fun entry => options.output.filenameFor entry.1).Nodup)
    (fresh : scan.compilation.assets = Table.empty) :
    (finish digest options cache scan).compilation.errors = scan.compilation.errors := by
  unfold finish
  cases scan.failure with
  | some failure => rfl
  | none =>
    obtain ⟨assets, errors⟩ := renderAll_assets digest scan.modules ⟨scan.compilation, cache⟩
    refine (addEntries_reports scan.modules scan.entries _ distinct fun entry _ => ?_).trans errors
    rw [assets, fresh, Table.get?_empty]

/-- A build of accepted options into a fresh compilation reports one error for each entry that
is not resolved, then, file by file in the order of reading, one for a file that is not UTF-8 and
one for each of its requests that is not resolved. It reads no file twice and reports no conflict
of assets, and every candidate of these requests is among the missing paths. -/
theorem faults_reported {options : Options} (digest : ByteArray → Fingerprint) (budget : Nat)
    (cache : Option ArtifactCache) (id : Nat) (name : Option String) (bail : Bool)
    (view : FileView) (accepted : options.validate = .ok ()) (sorted : options.entry.Sorted) :
    let build := buildBundles digest options budget cache { id, name, bail }
    let built := (build.answer view).compilation
    built.errors = entryFaults view options ++
        (build.reads view).flatMap (fileFaults view options.context) ∧
      ((build.reads view).map Path.components).Nodup ∧
      ¬ built.ReportsConflict ∧
      (∀ entry ∈ options.entry.entries,
        ∀ candidate ∈ triedInVain view options.context entry.2,
          built.missing.contains candidate = true) ∧
      ∀ path ∈ build.reads view, ∀ request ∈ Source.requests (textAt view path),
        ∀ candidate ∈ triedInVain view (directoryOf options.context path) request,
          built.missing.contains candidate = true := by
  intro build built
  have reads : build.reads view = (Scan.run options budget { id, name, bail }).reads view :=
    reads_buildBundles ..
  have reported := Scan.reports_run view options budget { id, name, bail }
  obtain ⟨assets, -, names⟩ := Scan.run_names view options budget { id, name, bail }
  have shape : built = (finish digest options cache
      ((Scan.run options budget { id, name, bail }).answer view)).compilation := by
    simp only [built, build, buildBundles, Inquiry.answer_bind, Inquiry.answer_pure]
  have distinct := (names.map options.output.filenameFor).nodup
    (Options.filenames_nodup accepted sorted)
  rw [List.map_map] at distinct
  have errors : built.errors = entryFaults view options ++
      (build.reads view).flatMap (fileFaults view options.context) := by
    rw [shape, errors_finish digest cache distinct assets, reported.errors, reads]
    rfl
  have missing : built.missing =
      ((Scan.run options budget { id, name, bail }).answer view).compilation.missing := by
    rw [shape]
    exact (sameWatch_finish digest options cache _).2
  rw [← reads] at reported
  refine ⟨errors, ?_, ?_, fun entry listed candidate tried => ?_,
    fun path read request asked candidate tried => ?_⟩
  · rw [reads]
    exact Scan.nodup_reads_run view options budget _
  · rintro ⟨file, conflict⟩
    rw [errors] at conflict
    rcases List.mem_append.1 conflict with entry | other
    · exact kind_of_mem_entryFaults entry rfl
    · obtain ⟨path, -, member⟩ := List.mem_flatMap.1 other
      exact kind_of_mem_fileFaults member rfl
  · rw [missing]
    exact reported.missing candidate
      (List.mem_append_left _ (List.mem_flatMap.2 ⟨entry, listed, tried⟩))
  · rw [missing]
    have inFile : candidate ∈ triedIn view options.context path :=
      List.mem_flatMap.2 ⟨request, asked, tried⟩
    exact reported.missing candidate
      (List.mem_append_right _ (List.mem_flatMap.2 ⟨path, read, inFile⟩))

/-- A project that lacks the file of one entry; the other entry is not UTF-8 and requires a
missing file twice. -/
def faultyOptions : Options :=
  Options.projectOptions ((Table.empty.insert "a" "./a").insert "z" "./gone")

def faultyFiles : FileView :=
  .holding [(.of "/project/a.js", ⟨#[0xff]⟩ ++ "require('./lost');require('./lost')".toUTF8)]

/-- Every fault of the project is reported, the missing file once for each request, and what it
could have been is missing. -/
theorem faults_reported_faulty :
    let built := ((buildBundles Fingerprint.of faultyOptions 3 none { id := 1 }).answer
      faultyFiles).compilation
    faultyOptions.validate = .ok () ∧ faultyOptions.entry.Sorted ∧
      built.errors =
        [.unresolved "./gone" (.of "/project") none,
          .illFormedModule "invalid utf-8 sequence of 1 bytes from index 0" "./a.js",
          .unresolved "./lost" (.of "/project") (some "./a.js"),
          .unresolved "./lost" (.of "/project") (some "./a.js")] ∧
      built.missing.contains (.of "/project/gone.js") = true := by
  have accepted : faultyOptions.validate = .ok () := by decide +kernel
  have sorted : faultyOptions.entry.Sorted :=
    (Table.sorted_empty.insert "a" "./a").insert "z" "./gone"
  obtain ⟨errors, -, -, missing, -⟩ :=
    faults_reported Fingerprint.of 3 none 1 none false faultyFiles accepted sorted
  refine ⟨accepted, sorted, errors.trans ?_, missing ("z", "./gone") ?_ (.of "/project/gone.js") ?_⟩
  all_goals decide +kernel

end Bundler.Build
