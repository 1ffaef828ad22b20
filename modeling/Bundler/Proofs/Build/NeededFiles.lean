import Bundler.Proofs.Build.Exploration
import Bundler.Proofs.Build.WatchedSet
import Mathlib.Data.List.Nodup
import Mathlib.Data.List.Perm.Subperm

/-!
# The files that a build reads

A scan goes on until nothing waits that it has not read. It reads no path twice, under any
spelling, so it ends where there are finitely many files: it takes no more turns than there are
files. `reads_needed` says this of whole builds, and that a build that does not fail has read
what is needed and nothing else.
-/

namespace Bundler

namespace Inquiry

variable {α β : Type}

def Question.read? : Question → Option Path
  | .read path => some path
  | .isFile _ => none

/-- The paths that an inquiry reads, in order. -/
def reads (view : FileView) (inquiry : Inquiry α) : List Path :=
  (questions view inquiry).filterMap Question.read?

theorem reads_bind (view : FileView) (inquiry : Inquiry α) (next : α → Inquiry β) :
    reads view (inquiry >>= next) = reads view inquiry ++ reads view (next (answer view inquiry)) := by
  rw [reads, questions_bind, List.filterMap_append]
  rfl

theorem reads_read (view : FileView) (path : Path)
    (next : Except FileFault ByteArray → Inquiry α) :
    reads view (.read path next) = path :: reads view (next (view.read path)) := rfl

/-- An inquiry that only asks which paths are files reads none. -/
theorem reads_eq_nil {view : FileView} {inquiry : Inquiry α}
    (asksFiles : ∀ question ∈ questions view inquiry, ∃ path, question = .isFile path) :
    reads view inquiry = [] := by
  refine List.filterMap_eq_nil_iff.2 fun question asked => ?_
  obtain ⟨path, rfl⟩ := asksFiles question asked
  rfl

end Inquiry

namespace Build

namespace Scan

variable {view : FileView} {context : Path}

/-! ## No path twice -/

/-- What is read from here on was not read before, and is read once. -/
theorem nodup_reads_drain (view : FileView) (context : Path) (budget : Nat) (scan : Scan) :
    (((drain context budget scan).reads view).map Path.components).Nodup ∧
      ∀ path ∈ (drain context budget scan).reads view, ∀ earlier ∈ scan.seen,
        path.components ≠ earlier.components := by
  induction budget generalizing scan with
  | zero =>
    have nothing : (drain context 0 scan).reads view = [] := by
      unfold drain
      split <;> first | rfl | contradiction
    simp [nothing]
  | succ budget ih =>
    cases next : scan.queue.dropWhile scan.knows with
    | nil =>
      rw [drain_of_nil context _ next]
      simp [Inquiry.reads]
    | cons path rest =>
      have unknown : ∀ earlier ∈ scan.seen, path.components ≠ earlier.components :=
        fun earlier visited => components_ne_of_next next visited
      rw [drain_of_cons context budget next, Inquiry.reads_read]
      cases read : view.read path with
      | error fault => simpa [Inquiry.reads] using unknown
      | ok content =>
        obtain ⟨grown, -⟩ := grows_addFile view
          { scan with seen := path :: scan.seen, queue := rest } context path content
        dsimp only
        rw [Inquiry.reads_bind, Inquiry.reads_eq_nil grown.asksFiles, List.nil_append]
        obtain ⟨later, apart⟩ := ih
          ((addFile { scan with seen := path :: scan.seen, queue := rest } context path
            content).answer view)
        rw [grown.seen] at apart
        refine ⟨List.nodup_cons.2 ⟨fun twice => ?_, later⟩, fun other member => ?_⟩
        · obtain ⟨other, member, same⟩ := List.mem_map.1 twice
          exact apart other member path List.mem_cons_self same
        · rcases List.mem_cons.1 member with rfl | member
          · exact unknown
          · exact fun earlier visited => apart other member earlier (List.mem_cons_of_mem _ visited)

/-! ## As many turns as there are files -/

variable {options : Options} {initial : Compilation}

theorem Explored.nodup_components {scan : Scan} (explored : Explored view options initial scan) :
    (scan.seen.map Path.components).Nodup := by
  refine explored.distinct.map_on fun left seenLeft right seenRight same => ?_
  obtain ⟨_, _, shape⟩ := explored.shaped left (List.mem_append_right _ seenLeft)
  obtain ⟨_, _, other⟩ := explored.shaped right (List.mem_append_right _ seenRight)
  exact shape.spelled.eq_of_components_eq other.spelled same

/-- A scan that runs out of its budget has met one file more than the budget allows. -/
theorem Explored.overflow {scan : Scan} (explored : Explored view options initial scan)
    (running : scan.failure = none) (budget : Nat)
    (stopped : ((Scan.drain options.context budget scan).answer view).failure = some .tooManyFiles) :
    ∃ paths : List Path, paths.length = scan.seen.length + budget + 1 ∧
      (paths.map Path.components).Nodup ∧ ∀ path ∈ paths, view.isFile path = true := by
  induction budget generalizing scan with
  | zero =>
    cases next : scan.queue.dropWhile scan.knows with
    | nil =>
      rw [drain_of_nil options.context 0 next] at stopped
      cases running.symm.trans stopped
    | cons path rest =>
      have waiting : path ∈ scan.queue :=
        (List.dropWhile_sublist _).subset (next ▸ List.mem_cons_self)
      refine ⟨path :: scan.seen, rfl, List.nodup_cons.2 ⟨fun twice => ?_,
        explored.nodup_components⟩, fun other member => ?_⟩
      · obtain ⟨earlier, visited, same⟩ := List.mem_map.1 twice
        exact components_ne_of_next next visited same.symm
      · rcases List.mem_cons.1 member with rfl | visited
        · exact explored.isFile _ (List.mem_append_left _ waiting)
        · exact explored.isFile _ (List.mem_append_right _ visited)
  | succ budget ih =>
    cases next : scan.queue.dropWhile scan.knows with
    | nil =>
      rw [drain_of_nil options.context _ next] at stopped
      cases running.symm.trans stopped
    | cons path rest =>
      rw [drain_of_cons options.context budget next, Inquiry.answer] at stopped
      cases read : view.read path with
      | error fault => simp [read] at stopped
      | ok content =>
        simp only [read, Inquiry.answer_bind] at stopped
        obtain ⟨grown, -⟩ := grows_addFile view
          { scan with seen := path :: scan.seen, queue := rest } options.context path content
        obtain ⟨paths, length, distinct, areFiles⟩ := ih (explored.addFile next read)
          (grown.failure.trans running) stopped
        refine ⟨paths, ?_, distinct, areFiles⟩
        rw [length, grown.seen, List.length_cons]
        omega

/-- A scan that has budget enough does not depend on it. -/
theorem answer_drain_of_le {budget larger : Nat} (enough : budget ≤ larger) (scan : Scan)
    (ended : ((drain context budget scan).answer view).failure ≠ some .tooManyFiles) :
    (drain context larger scan).answer view = (drain context budget scan).answer view := by
  induction budget generalizing scan larger with
  | zero =>
    cases next : scan.queue.dropWhile scan.knows with
    | nil => rw [drain_of_nil context _ next, drain_of_nil context _ next]
    | cons path rest =>
      unfold drain at ended
      simp [next] at ended
  | succ budget ih =>
    obtain ⟨larger, rfl⟩ : ∃ rest, larger = rest + 1 := ⟨larger - 1, by omega⟩
    cases next : scan.queue.dropWhile scan.knows with
    | nil => rw [drain_of_nil context _ next, drain_of_nil context _ next]
    | cons path rest =>
      rw [drain_of_cons context budget next, Inquiry.answer] at ended ⊢
      rw [drain_of_cons context larger next, Inquiry.answer]
      cases read : view.read path with
      | error fault => rfl
      | ok content =>
        simp only [read, Inquiry.answer_bind] at ended ⊢
        exact ih (by omega) _ ended

/-- Where there are no more files than the budget allows, it does not run out. -/
theorem failure_run_ne (options : Options) (initial : Compilation) {files : List Path}
    (covered : ∀ path, view.isFile path = true → ∃ file ∈ files, file.components = path.components)
    {budget : Nat} (enough : files.length ≤ budget) :
    ((run options budget initial).answer view).failure ≠ some .tooManyFiles := by
  intro stopped
  simp only [run, Inquiry.answer_bind] at stopped
  have grown := grows_resolveEntries view options.context options.entry.entries
    { compilation := initial }
  obtain ⟨paths, length, distinct, areFiles⟩ :=
    (explored_resolveEntries view options initial).overflow grown.failure budget stopped
  -- Different paths that are files stand for different members of the covering list.
  have among : paths.map Path.components ⊆ files.map Path.components := by
    intro components member
    obtain ⟨path, met, rfl⟩ := List.mem_map.1 member
    obtain ⟨file, listed, same⟩ := covered path (areFiles path met)
    exact List.mem_map.2 ⟨file, listed, same⟩
  have bound := (distinct.subperm among).length_le
  simp only [List.length_map] at bound
  omega

/-! ## What is needed, and nothing else -/

/-- What a scan that did not fail has seen in the end is what it has read. -/
theorem mem_seen_drain (budget : Nat) (scan : Scan)
    (success : ((drain context budget scan).answer view).failure = none) (path : Path) :
    path ∈ ((drain context budget scan).answer view).seen ↔
      path ∈ (drain context budget scan).reads view ∨ path ∈ scan.seen := by
  induction budget generalizing scan with
  | zero =>
    cases next : scan.queue.dropWhile scan.knows with
    | nil => simp [drain_of_nil context 0 next, Inquiry.reads]
    | cons first rest =>
      unfold drain at success
      simp [next] at success
  | succ budget ih =>
    cases next : scan.queue.dropWhile scan.knows with
    | nil => simp [drain_of_nil context _ next, Inquiry.reads]
    | cons first rest =>
      rw [drain_of_cons context budget next] at success ⊢
      rw [Inquiry.reads_read]
      simp only [Inquiry.answer] at success ⊢
      cases read : view.read first with
      | error fault => simp [read] at success
      | ok content =>
        obtain ⟨grown, -⟩ := grows_addFile view
          { scan with seen := first :: scan.seen, queue := rest } context first content
        simp only [read, Inquiry.answer_bind, Inquiry.reads_bind] at success ⊢
        rw [ih _ success, grown.seen, Inquiry.reads_eq_nil grown.asksFiles]
        simp only [List.nil_append, List.mem_cons]
        tauto

/-- A scan with nothing waiting has read all that is needed. -/
theorem Explored.mem_seen_iff {scan : Scan} (explored : Explored view options initial scan)
    (nothing : scan.queue = []) (path : Path) : path ∈ scan.seen ↔ Needed view options path := by
  have visited : ∀ other ∈ scan.queue ++ scan.seen, other ∈ scan.seen := by
    rw [nothing]
    exact fun other member => member
  constructor
  · exact fun seen => explored.needed path (List.mem_append_right _ seen)
  · intro needed
    induction needed with
    | entry listed found =>
      exact visited _ (explored.entered _ listed _ (foundBy_eq_some_iff.2 found))
    | require needed read asked found seen =>
      refine visited _ (explored.followed _ seen _ (List.mem_filterMap.2 ⟨_, ?_,
        foundBy_eq_some_iff.2 found⟩))
      rw [textAt, read]
      exact asked

theorem nodup_reads_run (view : FileView) (options : Options) (budget : Nat)
    (initial : Compilation) : (((run options budget initial).reads view).map Path.components).Nodup := by
  have grown := grows_resolveEntries view options.context options.entry.entries
    { compilation := initial }
  rw [run, Inquiry.reads_bind, Inquiry.reads_eq_nil grown.asksFiles, List.nil_append]
  exact (nodup_reads_drain view options.context budget _).1

/-- A scan that did not fail has seen what it has read. -/
theorem perm_seen_run {budget : Nat}
    (success : ((run options budget initial).answer view).failure = none) :
    ((run options budget initial).answer view).seen.Perm ((run options budget initial).reads view) := by
  refine (List.perm_ext_iff_of_nodup (explored_run success).1.distinct
    (nodup_reads_run view options budget initial).of_map).2 fun path => ?_
  have grown := grows_resolveEntries view options.context options.entry.entries
    { compilation := initial }
  simp only [run, Inquiry.answer_bind, Inquiry.reads_bind] at success ⊢
  rw [mem_seen_drain budget _ success, grown.seen, Inquiry.reads_eq_nil grown.asksFiles]
  simp

/-- What a scan that did not fail has read, and what its compilation records of it. -/
theorem mem_reads_run {budget : Nat}
    (success : ((run options budget initial).answer view).failure = none) :
    (∀ path, path ∈ (run options budget initial).reads view ↔ Needed view options path) ∧
      ∀ path, ((run options budget initial).answer view).compilation.files.contains path =
        (initial.files.contains path ||
          ((run options budget initial).reads view).any path.same) := by
  obtain ⟨explored, nothing⟩ := explored_run success
  have seen := perm_seen_run success
  refine ⟨fun path => seen.mem_iff.symm.trans (explored.mem_seen_iff nothing path), fun path => ?_⟩
  rw [explored.files, PathSet.contains_foldr_add, seen.any_eq]

end Scan

/-! ## Builds -/

theorem reads_buildBundles (digest : ByteArray → Fingerprint) (options : Options) (budget : Nat)
    (cache : Option ArtifactCache) (compilation : Compilation) (view : FileView) :
    (buildBundles digest options budget cache compilation).reads view =
      (Scan.run options budget compilation).reads view := by
  simp [buildBundles, Inquiry.reads]

/-- A build ends wherever there are finitely many files: with a budget of as many turns as there
are files it does not run out of turns, and a larger budget changes nothing. It reads no path
twice, whatever the spelling. A build that does not fail has read exactly the files that are
needed, and these are the files that it adds to the compilation. -/
theorem reads_needed (digest : ByteArray → Fingerprint) (options : Options)
    (cache : Option ArtifactCache) (compilation : Compilation) (view : FileView) :
    let build (budget : Nat) := buildBundles digest options budget cache compilation
    (∀ files : List Path,
      (∀ path, view.isFile path = true → ∃ file ∈ files, file.components = path.components) →
      ∀ budget, files.length ≤ budget →
        ((build budget).answer view).failure ≠ some .tooManyFiles ∧
          (build budget).answer view = (build files.length).answer view) ∧
    ∀ budget, (((build budget).reads view).map Path.components).Nodup ∧
      (((build budget).answer view).failure = none →
        (∀ path, path ∈ (build budget).reads view ↔ Needed view options path) ∧
        ∀ path, ((build budget).answer view).compilation.files.contains path = true ↔
          compilation.files.contains path = true ∨
            ∃ needed, Needed view options needed ∧ path.same needed = true) := by
  intro build
  have failure : ∀ budget, ((build budget).answer view).failure =
      ((Scan.run options budget compilation).answer view).failure := by
    intro budget
    simp only [build, buildBundles, Inquiry.answer_bind, Inquiry.answer_pure, failure_finish]
  refine ⟨fun files covered budget enough => ⟨?_, ?_⟩, fun budget => ⟨?_, fun success => ?_⟩⟩
  · rw [failure]
    exact Scan.failure_run_ne options compilation covered enough
  · have ended := Scan.failure_run_ne options compilation covered (Nat.le_refl files.length)
    simp only [build, buildBundles, Scan.run, Inquiry.answer_bind] at ended ⊢
    rw [Scan.answer_drain_of_le enough _ ended]
  · simp only [build, reads_buildBundles]
    exact Scan.nodup_reads_run view options budget compilation
  · rw [failure] at success
    obtain ⟨required, recorded⟩ := Scan.mem_reads_run success
    have files : ((build budget).answer view).compilation.files =
        ((Scan.run options budget compilation).answer view).compilation.files := by
      simp only [build, buildBundles, Inquiry.answer_bind, Inquiry.answer_pure]
      exact (sameWatch_finish digest options cache _).1
    simp only [build, reads_buildBundles] at files ⊢
    refine ⟨required, fun path => ?_⟩
    rw [files, recorded path, Bool.or_eq_true, List.any_eq_true]
    exact or_congr_right (exists_congr fun needed => and_congr_left' (required needed))

/-- Two files that require each other. -/
def cycleFiles : List (Path × ByteArray) :=
  [(.of "/p/a.js", "require('./b')".toUTF8), (.of "/p/b.js", "require('./a')".toUTF8)]

/-- The entry `./a` in the directory `/p`. -/
def cycleOptions : Options :=
  { context := .of "/p", entry := Table.empty.insert "main" "./a", output := {},
    noEmitOnErrors := false }

/-- A build of the two files. -/
def cycleBuild (budget : Nat) : Inquiry Built :=
  buildBundles Fingerprint.of cycleOptions budget none { id := 1 }

/-- A build goes round a cycle once. -/
theorem reads_cycle :
    ((cycleBuild 9).answer (.holding cycleFiles)).failure ≠ some .tooManyFiles ∧
      (cycleBuild 9).answer (.holding cycleFiles) = (cycleBuild 2).answer (.holding cycleFiles) ∧
      ((cycleBuild 2).answer (.holding cycleFiles)).failure = none ∧
      ((cycleBuild 2).reads (.holding cycleFiles)) = [.of "/p/a.js", .of "/p/b.js"] ∧
      Needed (.holding cycleFiles) cycleOptions (.of "/p/b.js") := by
  obtain ⟨ends, reads⟩ := reads_needed Fingerprint.of cycleOptions none { id := 1 }
    (.holding cycleFiles)
  have covered : ∀ path, (FileView.holding cycleFiles).isFile path = true →
      ∃ file ∈ cycleFiles.map Prod.fst, file.components = path.components := by
    intro path shown
    obtain ⟨file, listed, same⟩ := List.any_eq_true.1 shown
    exact ⟨file.1, List.mem_map_of_mem listed, (Path.same_iff _ _).1 same⟩
  have success : ((cycleBuild 2).answer (.holding cycleFiles)).failure = none := by decide +kernel
  have order : ((cycleBuild 2).reads (.holding cycleFiles)) = [.of "/p/a.js", .of "/p/b.js"] := by
    decide +kernel
  obtain ⟨notOut, same⟩ := ends (cycleFiles.map Prod.fst) covered 9 (by decide)
  refine ⟨notOut, same, success, order, (((reads 2).2 success).1 _).1 ?_⟩
  change _ ∈ (cycleBuild 2).reads (.holding cycleFiles)
  rw [order]
  decide +kernel

end Build

end Bundler
