import Bundler.Build.Scan
import Bundler.Proofs.Inquiry
import Bundler.Proofs.PathOrder
import Mathlib.Data.List.TakeWhile

/-!
# What a scan records

A scan asks about candidates and reads files. Of a finished scan,
`Scan.recorded_run` says what its compilation knows about every question that
was asked: a path that is a file, and a path that was read, is among the files;
a path that is no file is among the missing ones, unless it stood in front of
the file that its request was resolved to (`PassedOver`).
-/

namespace Bundler

/-- A candidate that was tried in vain before the one that its request was
resolved to. -/
def PassedOver (view : FileView) (path : Path) : Prop :=
  ∃ directory request found,
    (resolve directory request).answer view = .found found ∧
    path ∈ (Resolution.candidates directory request).takeWhile fun candidate =>
      !view.isFile candidate

namespace Resolution

theorem isFile_of_answer_found {view : FileView} {directory : Path} {request : String}
    {found : Path} (answered : (resolve directory request).answer view = .found found) :
    view.isFile found = true := by
  rw [answer_resolve, first] at answered
  split at answered
  · next path search =>
    obtain rfl := Resolution.found.inj answered
    exact List.find?_some search
  · cases answered

theorem mem_candidates_of_answer_found {view : FileView} {directory : Path} {request : String}
    {found : Path} (answered : (resolve directory request).answer view = .found found) :
    found ∈ candidates directory request := by
  rw [answer_resolve, first] at answered
  split at answered
  · next path search =>
    obtain rfl := Resolution.found.inj answered
    exact List.mem_of_find?_eq_some search
  · cases answered

/-- The questions of a resolution: its candidates up to the first file. -/
theorem mem_questions_probe {view : FileView} {tried paths : List Path}
    {question : Inquiry.Question} (asked : question ∈ (probe tried paths).questions view) :
    ∃ path, question = .isFile path ∧
      (view.isFile path = true → (probe tried paths).answer view = .found path) ∧
      (view.isFile path = false → path ∈ paths.takeWhile fun other => !view.isFile other) := by
  induction paths generalizing tried with
  | nil => simp [probe] at asked
  | cons path rest ih =>
    simp only [probe, Inquiry.questions, Inquiry.answer, List.mem_cons] at asked ⊢
    rcases asked with rfl | asked
    · exact ⟨path, rfl, fun isFile => by simp [isFile], fun noFile => by simp [noFile]⟩
    · cases isFile : view.isFile path with
      | true => simp [isFile] at asked
      | false =>
        simp only [isFile, Bool.false_eq_true, if_false] at asked ⊢
        obtain ⟨other, rfl, answered, vain⟩ := ih asked
        refine ⟨other, rfl, answered, fun noFile => ?_⟩
        simpa [isFile] using .inr (vain noFile)

theorem mem_questions_resolve {view : FileView} {directory : Path} {request : String}
    {question : Inquiry.Question} (asked : question ∈ (resolve directory request).questions view) :
    ∃ path, question = .isFile path ∧
      (view.isFile path = true → (resolve directory request).answer view = .found path) ∧
      (view.isFile path = false →
        path ∈ (candidates directory request).takeWhile fun other => !view.isFile other) :=
  mem_questions_probe asked

/-- All candidates of a request that is not resolved are listed. -/
theorem tried_of_answer_notFound {view : FileView} {directory : Path} {request : String}
    {tried : List Path} (answered : (resolve directory request).answer view = .notFound tried) :
    tried = candidates directory request := by
  rw [answer_resolve, first] at answered
  split at answered
  · cases answered
  · exact (Resolution.notFound.inj answered).symm

end Resolution

namespace Build.Scan

variable {view : FileView}

/-- A compilation has recorded what a build needs to know of a question. -/
def Recorded (view : FileView) (compilation : Compilation) : Inquiry.Question → Prop
  | .isFile path =>
    (view.isFile path = true → compilation.files.contains path = true) ∧
    (view.isFile path = false → compilation.missing.contains path = true ∨ PassedOver view path)
  | .read path => compilation.files.contains path = true

/-- A part of a scan that asks for no content: what it finds is queued, and what
it looks for in vain is recorded. -/
structure Grows (view : FileView) (asked : List Inquiry.Question) (before after : Scan) :
    Prop where
  seen : after.seen = before.seen
  failure : after.failure = before.failure
  queue : ∀ path ∈ before.queue, path ∈ after.queue
  files : ∀ path, before.compilation.files.contains path = true →
    after.compilation.files.contains path = true
  missing : ∀ path, before.compilation.missing.contains path = true →
    after.compilation.missing.contains path = true
  asksFiles : ∀ question ∈ asked, ∃ path, question = .isFile path
  found : ∀ path, .isFile path ∈ asked → view.isFile path = true → path ∈ after.queue
  failed : ∀ path, .isFile path ∈ asked → view.isFile path = false →
    after.compilation.missing.contains path = true ∨ PassedOver view path

theorem Grows.refl (scan : Scan) : Grows view [] scan scan := by
  constructor <;> simp

theorem Grows.trans {first second : List Inquiry.Question} {before middle after : Scan}
    (start : Grows view first before middle) (rest : Grows view second middle after) :
    Grows view (first ++ second) before after where
  seen := rest.seen.trans start.seen
  failure := rest.failure.trans start.failure
  queue path member := rest.queue path (start.queue path member)
  files path held := rest.files path (start.files path held)
  missing path held := rest.missing path (start.missing path held)
  asksFiles question asked := (List.mem_append.1 asked).elim
    (start.asksFiles question) (rest.asksFiles question)
  found path asked isFile := (List.mem_append.1 asked).elim
    (fun asked => rest.queue path (start.found path asked isFile))
    (fun asked => rest.found path asked isFile)
  failed path asked noFile := (List.mem_append.1 asked).elim
    (fun asked => (start.failed path asked noFile).imp_left (rest.missing path))
    (fun asked => rest.failed path asked noFile)

/-- Resolving a request and noting the outcome. -/
theorem grows_note (view : FileView) (scan : Scan) (context directory shown : Path)
    (request : String) (module : Option String) :
    Grows view ((resolve directory request).questions view) scan
      (scan.note context shown request module ((resolve directory request).answer view)).2 := by
  have onlyFiles : ∀ question ∈ (resolve directory request).questions view,
      ∃ path, question = .isFile path := by
    intro question asked
    obtain ⟨path, rfl, -⟩ := Resolution.mem_questions_resolve asked
    exact ⟨path, rfl⟩
  have candidate : ∀ path, .isFile path ∈ (resolve directory request).questions view →
      (view.isFile path = true → (resolve directory request).answer view = .found path) ∧
        (view.isFile path = false → path ∈ (Resolution.candidates directory request).takeWhile
          fun other => !view.isFile other) := by
    intro path asked
    obtain ⟨other, same, facts⟩ := Resolution.mem_questions_resolve asked
    obtain rfl := Inquiry.Question.isFile.inj same
    exact facts
  cases answered : (resolve directory request).answer view with
  | found found =>
    constructor <;> try simp [note]
    · exact fun path member => .inl member
    · exact onlyFiles
    · intro path asked isFile
      have same := (candidate path asked).1 isFile
      rw [answered] at same
      exact .inr (Resolution.found.inj same).symm
    · intro path asked noFile
      exact .inr ⟨directory, request, found, answered, (candidate path asked).2 noFile⟩
  | notFound tried =>
    have all := Resolution.tried_of_answer_notFound answered
    constructor <;> try simp [note, Compilation.pushError, Compilation.addMissingPaths]
    · exact fun path held => PathSet.contains_addAll_of_contains tried held
    · exact onlyFiles
    · intro path asked isFile
      have same := (candidate path asked).1 isFile
      rw [answered] at same
      cases same
    · intro path asked noFile
      refine .inl (PathSet.contains_addAll_of_mem _ ?_)
      rw [all]
      exact (List.takeWhile_sublist _).subset ((candidate path asked).2 noFile)

theorem grows_resolveEntries (view : FileView) (context : Path)
    (entries : List (String × String)) (scan : Scan) :
    Grows view ((resolveEntries context entries scan).questions view) scan
      ((resolveEntries context entries scan).answer view) := by
  induction entries generalizing scan with
  | nil => exact .refl scan
  | cons entry rest ih =>
    obtain ⟨name, request⟩ := entry
    simp only [resolveEntries, Inquiry.questions_bind, Inquiry.answer_bind]
    refine (grows_note view scan context context context request none).trans ?_
    generalize scan.note context context request none _ = noted
    obtain ⟨found, noted⟩ := noted
    cases found with
    | none => exact ih noted
    | some id =>
      have grown := ih { noted with entries := noted.entries ++ [(name, id)] }
      exact ⟨grown.seen, grown.failure, grown.queue, grown.files, grown.missing,
        grown.asksFiles, grown.found, grown.failed⟩

theorem grows_resolveRequests (view : FileView) (context directory : Path) (id : String)
    (requests : List String) (resolved : List (String × Option String)) (scan : Scan) :
    Grows view ((resolveRequests context directory id requests resolved scan).questions view) scan
      ((resolveRequests context directory id requests resolved scan).answer view).2 := by
  induction requests generalizing resolved scan with
  | nil => exact .refl scan
  | cons request rest ih =>
    simp only [resolveRequests, Inquiry.questions_bind, Inquiry.answer_bind]
    exact (grows_note view scan context directory directory request (some id)).trans (ih _ _)

/-- Decoding a module touches diagnostics only. -/
theorem decodeModule_eq (scan : Scan) (id : String) (content : ByteArray) :
    ∃ errors warnings, (scan.decodeModule id content).2 =
      { scan with compilation := { scan.compilation with errors, warnings } } := by
  refine ⟨(scan.decodeModule id content).2.compilation.errors,
    (scan.decodeModule id content).2.compilation.warnings, ?_⟩
  obtain ⟨⟨record, children⟩, modules, entries, seen, queue, failure⟩ := scan
  dsimp only [decodeModule]
  cases (Text.decode content).fault <;>
    cases Source.hasDynamicCall (Text.decode content).text <;>
    rfl

/-- Taking in a file records the file. -/
theorem grows_addFile (view : FileView) (scan : Scan) (context path : Path) (content : ByteArray) :
    Grows view ((scan.addFile context path content).questions view) scan
        ((scan.addFile context path content).answer view) ∧
      ((scan.addFile context path content).answer view).compilation.files.contains path =
        true := by
  simp only [addFile, Inquiry.questions_bind, Inquiry.answer_bind, Inquiry.questions_pure,
    Inquiry.answer_pure, List.append_nil]
  generalize Source.requests _ = requests
  obtain ⟨errors, warnings, decoded⟩ := decodeModule_eq
    { scan with compilation := scan.compilation.addFile path } (moduleId context path) content
  rw [decoded]
  have grown := grows_resolveRequests view context (path.parent?.getD context)
    (moduleId context path) requests []
    { scan with compilation := { scan.compilation.addFile path with errors, warnings } }
  have files : ∀ other, scan.compilation.files.contains other = true →
      (scan.compilation.addFile path).files.contains other = true := by
    intro other held
    simp [Compilation.addFile, held]
  refine ⟨⟨grown.seen, grown.failure, grown.queue, fun other held => ?_, grown.missing,
    grown.asksFiles, grown.found, grown.failed⟩, ?_⟩
  · exact grown.files other (files other held)
  · refine grown.files path ?_
    simp [Compilation.addFile, Std.ReflOrd.compare_self]

/-! ## The whole scan -/

theorem drain_of_nil (context : Path) (budget : Nat) {scan : Scan}
    (nothing : scan.queue.dropWhile scan.knows = []) :
    drain context budget scan = .done { scan with queue := [] } := by
  cases budget <;> simp only [drain, nothing]

/-- The next file of a scan is read and taken in. -/
theorem drain_of_cons (context : Path) (budget : Nat) {scan : Scan} {path : Path}
    {rest : List Path} (next : scan.queue.dropWhile scan.knows = path :: rest) :
    drain context (budget + 1) scan = .read path fun content =>
      match content with
      | .error fault =>
        .done { scan with seen := path :: scan.seen, queue := rest, failure := some (.io path fault) }
      | .ok content =>
        ({ scan with seen := path :: scan.seen, queue := rest } : Scan).addFile context path content >>=
          drain context budget := by
  conv => lhs; unfold drain
  split
  case h_1 empty => cases next.symm.trans empty
  case h_2 none _ => cases none
  case h_3 same more =>
    cases next.symm.trans more
    cases same
    rfl

/-- What a scan that did not fail knows in the end. -/
structure Settles (view : FileView) (asked : List Inquiry.Question) (before after : Scan) :
    Prop where
  files : ∀ path, before.compilation.files.contains path = true →
    after.compilation.files.contains path = true
  missing : ∀ path, before.compilation.missing.contains path = true →
    after.compilation.missing.contains path = true
  queued : ∀ path ∈ before.queue, after.compilation.files.contains path = true
  recorded : ∀ question ∈ asked, Recorded view after.compilation question

/-- A part that queues what it finds, followed by a part that takes all of the
queue in. -/
theorem Grows.settles {first second : List Inquiry.Question} {before middle after : Scan}
    (start : Grows view first before middle) (rest : Settles view second middle after) :
    Settles view (first ++ second) before after where
  files path held := rest.files path (start.files path held)
  missing path held := rest.missing path (start.missing path held)
  queued path member := rest.queued path (start.queue path member)
  recorded question asked := by
    rcases List.mem_append.1 asked with asked | asked
    · obtain ⟨path, rfl⟩ := start.asksFiles question asked
      exact ⟨fun isFile => rest.queued path (start.found path asked isFile),
        fun noFile => (start.failed path asked noFile).imp_left (rest.missing path)⟩
    · exact rest.recorded question asked

/-- A queued path was seen before, or waits to be read. -/
theorem seen_or_waits {scan : Scan} {path : Path} (queued : path ∈ scan.queue) :
    (∃ spelling ∈ scan.seen, path.components = spelling.components) ∨
      path ∈ scan.queue.dropWhile scan.knows := by
  rw [← List.takeWhile_append_dropWhile (p := scan.knows) (l := scan.queue)] at queued
  rcases List.mem_append.1 queued with known | waits
  · have known : scan.knows path = true := List.mem_takeWhile_imp known
    obtain ⟨spelling, visited, same⟩ := List.any_eq_true.1 known
    exact .inl ⟨spelling, visited, (Path.same_iff path spelling).1 same⟩
  · exact .inr waits

/-- Where nothing waits to be read, all that is queued is among the files. -/
theorem settles_of_nil (view : FileView) (context : Path) (budget : Nat) {scan : Scan}
    (seen : ∀ path ∈ scan.seen, scan.compilation.files.contains path = true)
    (nothing : scan.queue.dropWhile scan.knows = []) :
    Settles view ((drain context budget scan).questions view) scan
      ((drain context budget scan).answer view) := by
  rw [drain_of_nil context budget nothing]
  refine ⟨fun _ held => held, fun _ held => held, fun path queued => ?_, by simp⟩
  rcases seen_or_waits queued with ⟨spelling, member, same⟩ | waits
  · rw [PathSet.contains_congr _ same]
    exact seen spelling member
  · simp [nothing] at waits

/-- The loop keeps that every path that was seen is among the files. -/
theorem settles_drain (view : FileView) (context : Path) (budget : Nat) (scan : Scan)
    (seen : ∀ path ∈ scan.seen, scan.compilation.files.contains path = true)
    (success : ((drain context budget scan).answer view).failure = none) :
    Settles view ((drain context budget scan).questions view) scan
      ((drain context budget scan).answer view) := by
  induction budget generalizing scan with
  | zero =>
    cases next : scan.queue.dropWhile scan.knows with
    | nil => exact settles_of_nil view context 0 seen next
    | cons path rest =>
      unfold drain at success
      simp [next] at success
  | succ budget ih =>
    cases next : scan.queue.dropWhile scan.knows with
    | nil => exact settles_of_nil view context (budget + 1) seen next
    | cons path rest =>
      rw [drain_of_cons context budget next] at success ⊢
      simp only [Inquiry.answer, Inquiry.questions] at success ⊢
      cases held : view.read path with
      | error fault => simp [held] at success
      | ok content =>
        simp only [held, Inquiry.answer_bind, Inquiry.questions_bind] at success ⊢
        obtain ⟨grown, added⟩ := grows_addFile view
          { scan with seen := path :: scan.seen, queue := rest } context path content
        have settled := ih _ ?_ success
        · have all := grown.settles settled
          refine ⟨all.files, all.missing, fun other queued => ?_, fun question asked => ?_⟩
          · rcases seen_or_waits queued with ⟨spelling, member, same⟩ | waits
            · rw [PathSet.contains_congr _ same]
              exact all.files spelling (seen spelling member)
            · rw [next] at waits
              rcases List.mem_cons.1 waits with rfl | waits
              · exact settled.files other added
              · exact all.queued other waits
          · rcases List.mem_cons.1 asked with rfl | asked
            · exact settled.files path added
            · exact all.recorded question asked
        · intro other member
          rw [grown.seen] at member
          rcases List.mem_cons.1 member with rfl | member
          · exact added
          · exact grown.files other (seen other member)

/-- Whatever a scan that did not fail asked, it recorded. -/
theorem recorded_run {options : Options} {budget : Nat} {compilation : Compilation}
    (success : ((run options budget compilation).answer view).failure = none) :
    ∀ question ∈ (run options budget compilation).questions view,
      Recorded view ((run options budget compilation).answer view).compilation question := by
  simp only [run, Inquiry.answer_bind, Inquiry.questions_bind] at success ⊢
  have grown := grows_resolveEntries view options.context options.entry.entries
    { compilation }
  have settled := settles_drain view options.context budget _
    (by simp [grown.seen]) success
  exact (grown.settles settled).recorded

end Build.Scan

end Bundler
