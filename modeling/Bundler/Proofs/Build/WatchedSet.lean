import Bundler.Build.Bundle
import Bundler.Proofs.Build.ScanRecords

/-!
# What a watch session has to look at

After a build a session subscribes to the files and the missing paths of the
compilation. These two sets do not determine the build: a candidate that was
tried in vain before its request was resolved is in neither of them. The
candidates that are left out are `overlooked`, and `answer_eq_iff_of_watched`
says that they are all that is missing: while the watched paths stay as they
are, the build stays as it is exactly as long as no overlooked candidate
becomes a file.
-/

namespace Bundler

/-- The paths that a session subscribes to after a build. -/
def Compilation.Watches (compilation : Compilation) (path : Path) : Prop :=
  compilation.files.contains path = true ∨ compilation.missing.contains path = true

/-- The view of some files, each under every spelling of its path. -/
def FileView.holding (files : List (Path × ByteArray)) : FileView where
  isFile path := files.any fun file => file.1.same path
  isDirectory _ := false
  read path :=
    match files.find? fun file => file.1.same path with
    | some file => .ok file.2
    | none => .error (.missing path)

/-- One more file is seen under the spellings of its path only. -/
theorem FileView.holding_cons_of_ne (file : Path × ByteArray) (files : List (Path × ByteArray))
    {path : Path} (other : path.components ≠ file.1.components) :
    (holding files).isFile path = (holding (file :: files)).isFile path ∧
      (holding files).read path = (holding (file :: files)).read path := by
  have apart : file.1.same path = false := by
    rw [Bool.eq_false_iff, ne_eq, Path.same_iff]
    exact fun same => other same.symm
  simp [holding, List.find?_cons, apart]

/-- Watched paths do not see a new file that has no watched spelling. -/
theorem Compilation.Watches.agree_holding_cons {compilation : Compilation}
    {file : Path × ByteArray} (files : List (Path × ByteArray))
    (unwatched : compilation.files.contains file.1 = false ∧
      compilation.missing.contains file.1 = false)
    {path : Path} (watched : compilation.Watches path) :
    (FileView.holding files).isFile path = (FileView.holding (file :: files)).isFile path ∧
      (FileView.holding files).read path = (FileView.holding (file :: files)).read path := by
  apply FileView.holding_cons_of_ne
  intro same
  rcases watched with held | held
  · rw [PathSet.contains_congr _ same, unwatched.1] at held
    cases held
  · rw [PathSet.contains_congr _ same, unwatched.2] at held
    cases held

namespace Build

/-- The paths that a build asked about, that were no files, and that it did not
record. -/
def overlooked (view : FileView) (build : Inquiry Built) : List Path :=
  (build.questions view).filterMap fun
    | .isFile path =>
      if view.isFile path || (build.answer view).compilation.missing.contains path then none
      else some path
    | .read _ => none

theorem mem_overlooked {view : FileView} {build : Inquiry Built} {path : Path} :
    path ∈ overlooked view build ↔ .isFile path ∈ build.questions view ∧
      view.isFile path = false ∧
      (build.answer view).compilation.missing.contains path = false := by
  simp only [overlooked, List.mem_filterMap]
  constructor
  · rintro ⟨question, asked, shown⟩
    cases question with
    | read other => simp at shown
    | isFile other =>
      dsimp only at shown
      split at shown
      · cases shown
      · next unrecorded =>
        obtain rfl := Option.some.inj shown
        simpa [asked] using unrecorded
  · rintro ⟨asked, noFile, unrecorded⟩
    exact ⟨.isFile path, asked, by simp [noFile, unrecorded]⟩

/-! ## Rendering watches nothing new -/

/-- Two compilations watch the same paths. -/
def SameWatch (left right : Compilation) : Prop :=
  left.files = right.files ∧ left.missing = right.missing

theorem SameWatch.trans {first second third : Compilation} (left : SameWatch first second)
    (right : SameWatch second third) : SameWatch first third :=
  ⟨left.1.trans right.1, left.2.trans right.2⟩

theorem sameWatch_add (rendering : Rendering) (id : String) (module : ScannedModule)
    (fingerprint : Fingerprint) :
    SameWatch (rendering.add id module fingerprint).compilation rendering.compilation := by
  obtain ⟨compilation, cache⟩ := rendering
  cases cache with
  | none => exact ⟨rfl, rfl⟩
  | some cache =>
    simp only [Rendering.add]
    split
    exact ⟨rfl, rfl⟩

theorem sameWatch_renderAll (digest : ByteArray → Fingerprint)
    (modules : Table String ScannedModule) (rendering : Rendering) :
    SameWatch (renderAll digest modules rendering).compilation rendering.compilation :=
  List.foldlRecOn (motive := fun held => SameWatch held.compilation rendering.compilation) _ _
    ⟨rfl, rfl⟩ fun held same _ _ => (sameWatch_add held _ _ _).trans same

theorem sameWatch_addEntry (options : Options) (modules : Table String ScannedModule)
    (compilation : Compilation) (name entry : String) :
    SameWatch (addEntry options modules compilation name entry) compilation := by
  simp only [addEntry, Compilation.emitAsset]
  split
  · exact ⟨rfl, rfl⟩
  · split <;> exact ⟨rfl, rfl⟩

theorem sameWatch_finish (digest : ByteArray → Fingerprint) (options : Options)
    (cache : Option ArtifactCache) (scan : Scan) :
    SameWatch (finish digest options cache scan).compilation scan.compilation := by
  unfold finish
  cases scan.failure with
  | some failure => exact ⟨rfl, rfl⟩
  | none =>
    exact List.foldlRecOn (motive := fun held => SameWatch held scan.compilation) _ _
      (sameWatch_renderAll digest scan.modules ⟨scan.compilation, cache⟩)
      fun held same _ _ => (sameWatch_addEntry options scan.modules held _ _).trans same

theorem failure_finish (digest : ByteArray → Fingerprint) (options : Options)
    (cache : Option ArtifactCache) (scan : Scan) :
    (finish digest options cache scan).failure = scan.failure := by
  unfold finish
  cases failed : scan.failure <;> rfl

/-- Whatever a build that did not fail asked, it recorded. -/
theorem recorded_buildBundles {view : FileView} {digest : ByteArray → Fingerprint}
    {options : Options} {budget : Nat} {cache : Option ArtifactCache} {compilation : Compilation}
    (success : ((buildBundles digest options budget cache compilation).answer view).failure = none) :
    ∀ question ∈ (buildBundles digest options budget cache compilation).questions view,
      Scan.Recorded view
        ((buildBundles digest options budget cache compilation).answer view).compilation
        question := by
  simp only [buildBundles, Inquiry.answer_bind, Inquiry.questions_bind, Inquiry.answer_pure,
    Inquiry.questions_pure, List.append_nil, failure_finish] at success ⊢
  have recorded := Scan.recorded_run success
  generalize (Scan.run options budget compilation).answer view = scan at recorded ⊢
  obtain ⟨files, missing⟩ := sameWatch_finish digest options cache scan
  intro question asked
  have known := recorded question asked
  cases question <;> simpa only [Scan.Recorded, files, missing] using known

/-- While all watched paths stay as they are, a build stays as it is exactly as
long as no overlooked candidate becomes a file; and only candidates that were
tried in vain before the one that a request was resolved to are overlooked. -/
theorem answer_eq_iff_of_watched {digest : ByteArray → Fingerprint} {options : Options}
    {budget : Nat} {cache : Option ArtifactCache} {compilation : Compilation}
    {left right : FileView}
    (success : ((buildBundles digest options budget cache compilation).answer left).failure = none)
    (watched : ∀ path,
      ((buildBundles digest options budget cache compilation).answer left).compilation.Watches path →
        left.isFile path = right.isFile path ∧ left.read path = right.read path) :
    ((buildBundles digest options budget cache compilation).answer right =
        (buildBundles digest options budget cache compilation).answer left ↔
      ∀ path ∈ overlooked left (buildBundles digest options budget cache compilation),
        right.isFile path = false) ∧
    ∀ path ∈ overlooked left (buildBundles digest options budget cache compilation),
      PassedOver left path := by
  have recorded := recorded_buildBundles success
  have recordedRight : _ → ∀ question ∈ _, _ :=
    @recorded_buildBundles right digest options budget cache compilation
  generalize buildBundles digest options budget cache compilation = build at *
  refine ⟨⟨fun same path member => ?_, fun absent => ?_⟩, fun path member => ?_⟩
  · -- A disagreement would be met by both builds, and one of them would have read the path.
    have agree : ∀ question ∈ build.questions left, question.Agree left right := by
      by_contra disagree
      obtain ⟨question, asked, askedRight, apart⟩ :=
        Inquiry.exists_shared_disagreement build disagree
      have known := recorded question asked
      have knownRight := recordedRight (by rw [same]; exact success) question askedRight
      rw [same] at knownRight
      cases question with
      | read path => exact apart (watched path (.inl known)).2
      | isFile path =>
        apply apart
        change left.isFile path = right.isFile path
        cases found : left.isFile path with
        | true => exact found ▸ (watched path (.inl (known.1 found))).1
        | false =>
          cases foundRight : right.isFile path with
          | true => exact found ▸ foundRight ▸ (watched path (.inl (knownRight.1 foundRight))).1
          | false => rfl
    obtain ⟨asked, noFile, -⟩ := mem_overlooked.1 member
    exact (agree _ asked).symm.trans noFile
  · refine Inquiry.answer_congr build fun question asked => ?_
    have known := recorded question asked
    cases question with
    | read path => exact (watched path (.inl known)).2
    | isFile path =>
      cases found : left.isFile path with
      | true => exact (watched path (.inl (known.1 found))).1
      | false =>
        by_cases missing :
            (build.answer left).compilation.missing.contains path = true
        · exact (watched path (.inr missing)).1
        · have overlooked := mem_overlooked.2 ⟨asked, found, by simpa using missing⟩
          exact found.trans (absent path overlooked).symm
  · obtain ⟨asked, noFile, unrecorded⟩ := mem_overlooked.1 member
    have known := (recorded _ asked).2 noFile
    simpa [unrecorded] using known

/-- A build of the entry `./a` in the directory `/p`. -/
def singleEntry : Inquiry Built :=
  buildBundles Fingerprint.of
    { context := .of "/p", entry := Table.empty.insert "main" "./a", output := {},
      noEmitOnErrors := false } 5 none { id := 1 }

/-- A file that no request looked for does not change a build. -/
theorem answer_singleEntry_of_unrelated :
    (singleEntry.answer (.holding [(.of "/p/b.js", "".toUTF8), (.of "/p/a.js", "".toUTF8)]) =
        singleEntry.answer (.holding [(.of "/p/a.js", "".toUTF8)]) ↔
      ∀ path ∈ overlooked (.holding [(.of "/p/a.js", "".toUTF8)]) singleEntry,
        (FileView.holding
          [(.of "/p/b.js", "".toUTF8), (.of "/p/a.js", "".toUTF8)]).isFile path = false) ∧
    ∀ path ∈ overlooked (.holding [(.of "/p/a.js", "".toUTF8)]) singleEntry,
      PassedOver (.holding [(.of "/p/a.js", "".toUTF8)]) path := by
  refine answer_eq_iff_of_watched (by decide +kernel) fun path watched => ?_
  exact Compilation.Watches.agree_holding_cons _ (by decide +kernel) watched

/-- The watched paths alone do not determine a build: `./a` was resolved to
`a.js`, and a new file `a` takes its place without being watched. -/
theorem watched_set_insufficient :
    ¬ ∀ (options : Options) (budget : Nat) (compilation : Compilation) (left right : FileView),
      let build := buildBundles Fingerprint.of options budget none compilation
      (build.answer left).failure = none →
      (∀ path, (build.answer left).compilation.Watches path →
        left.isFile path = right.isFile path ∧ left.read path = right.read path) →
      (build.answer right).compilation.modules = (build.answer left).compilation.modules ∧
        (build.answer right).compilation.chunks = (build.answer left).compilation.chunks ∧
        (build.answer right).compilation.assets = (build.answer left).compilation.assets ∧
        (build.answer right).compilation.errors = (build.answer left).compilation.errors ∧
        (build.answer right).compilation.warnings = (build.answer left).compilation.warnings := by
  intro sufficient
  have same := sufficient
    { context := .of "/p", entry := Table.empty.insert "main" "./a", output := {},
      noEmitOnErrors := false } 5 { id := 1 }
    (.holding [(.of "/p/a.js", "".toUTF8)])
    (.holding [(.of "/p/a", "".toUTF8), (.of "/p/a.js", "".toUTF8)])
    (by decide +kernel)
    fun path watched => Compilation.Watches.agree_holding_cons _ (by decide +kernel) watched
  exact absurd same.2.1 (by decide +kernel)

end Build

end Bundler
