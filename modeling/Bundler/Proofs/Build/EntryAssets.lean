import Bundler.Build.Bundle
import Bundler.Proofs.Build.ScanRecords
import Bundler.Proofs.Table

/-!
# Assets of entries

A scan names no asset and reports no conflict between assets; every entry that it resolved
then names one asset. `Build.conflict_of_build` says that a build whose entries name different
files reports no conflict that was not reported before.
-/

namespace Bundler

/-- A compilation reports that two assets claim one name. -/
def Compilation.ReportsConflict (compilation : Compilation) : Prop :=
  ∃ name, Diagnostic.assetConflict name ∈ compilation.errors

namespace Build

namespace Scan

/-- A part of a scan that leaves the assets and the resolved entries alone and reports no
conflict. -/
structure Unnamed (before after : Scan) : Prop where
  assets : after.compilation.assets = before.compilation.assets
  entries : after.entries = before.entries
  reports : after.compilation.ReportsConflict → before.compilation.ReportsConflict

theorem Unnamed.refl (scan : Scan) : Unnamed scan scan := ⟨rfl, rfl, id⟩

theorem Unnamed.trans {before middle after : Scan} (start : Unnamed before middle)
    (rest : Unnamed middle after) : Unnamed before after where
  assets := rest.assets.trans start.assets
  entries := rest.entries.trans start.entries
  reports := start.reports ∘ rest.reports

/-- Reporting something else than a conflict. -/
theorem reportsConflict_pushError {compilation : Compilation} {diagnostic : Diagnostic}
    (other : diagnostic.kind ≠ .plugin)
    (reports : (compilation.pushError diagnostic).ReportsConflict) : compilation.ReportsConflict := by
  obtain ⟨name, member⟩ := reports
  rcases List.mem_append.1 member with member | last
  · exact ⟨name, member⟩
  · rw [← List.mem_singleton.1 last] at other
    exact absurd rfl other

theorem unnamed_note (scan : Scan) (context directory : Path) (request : String)
    (module : Option String) (resolution : Resolution) :
    Unnamed scan (scan.note context directory request module resolution).2 := by
  cases resolution with
  | found path => exact ⟨rfl, rfl, id⟩
  | notFound tried => exact ⟨rfl, rfl, reportsConflict_pushError (by simp [Diagnostic.unresolved])⟩

theorem unnamed_decodeModule (scan : Scan) (id : String) (content : ByteArray) :
    Unnamed scan (scan.decodeModule id content).2 := by
  obtain ⟨errors, warnings, shape⟩ := decodeModule_eq scan id content
  refine ⟨by rw [shape], by rw [shape], ?_⟩
  unfold decodeModule
  dsimp only
  intro reports
  have decoded : ∀ compilation : Compilation,
      (if Source.hasDynamicCall (Text.decode content).text then
        compilation.pushWarning (.dynamicRequest id) else compilation).ReportsConflict →
        compilation.ReportsConflict := by
    intro compilation reports
    split at reports <;> exact reports
  have reports := decoded _ reports
  split at reports
  · exact reportsConflict_pushError (by simp [Diagnostic.illFormedModule]) reports
  · exact reports

theorem unnamed_resolveRequests (view : FileView) (context directory : Path) (id : String) (requests : List String)
    (resolved : List (String × Option String)) (scan : Scan) :
    Unnamed scan ((resolveRequests context directory id requests resolved scan).answer view).2 := by
  induction requests generalizing resolved scan with
  | nil => exact .refl scan
  | cons request rest ih =>
    simp only [resolveRequests, Inquiry.answer_bind]
    exact (unnamed_note ..).trans (ih ..)

theorem unnamed_addFile (view : FileView) (scan : Scan) (context path : Path) (content : ByteArray) :
    Unnamed scan ((scan.addFile context path content).answer view) := by
  simp only [addFile, Inquiry.answer_bind, Inquiry.answer_pure]
  have read : Unnamed scan { scan with compilation := scan.compilation.addFile path } :=
    ⟨rfl, rfl, id⟩
  have requests := (read.trans (unnamed_decodeModule _ (moduleId context path) content)).trans
    (unnamed_resolveRequests view context (path.parent?.getD context)
      (moduleId context path) (Source.requests
        (decodeModule { scan with compilation := scan.compilation.addFile path }
          (moduleId context path) content).1) [] _)
  exact ⟨requests.assets, requests.entries, requests.reports⟩

theorem unnamed_drain (view : FileView) (context : Path) (budget : Nat) (scan : Scan) :
    Unnamed scan ((drain context budget scan).answer view) := by
  induction budget generalizing scan with
  | zero =>
    unfold drain
    split
    · exact ⟨rfl, rfl, id⟩
    · exact ⟨rfl, rfl, id⟩
    · next zero _ => cases zero
  | succ budget ih =>
    cases next : scan.queue.dropWhile scan.knows with
    | nil =>
      rw [drain_of_nil context _ next]
      exact ⟨rfl, rfl, id⟩
    | cons path rest =>
      rw [drain_of_cons context budget next, Inquiry.answer]
      have taken : Unnamed scan { scan with seen := path :: scan.seen, queue := rest } :=
        ⟨rfl, rfl, id⟩
      cases view.read path with
      | error fault => exact ⟨rfl, rfl, id⟩
      | ok content =>
        simp only [Inquiry.answer_bind]
        exact (taken.trans (unnamed_addFile view _ context path content)).trans (ih _)

/-- Entries that resolve are noted under their names, in order. -/
theorem resolveEntries_names (view : FileView) (context : Path)
    (entries : List (String × String)) (scan : Scan) :
    let after := (resolveEntries context entries scan).answer view
    after.compilation.assets = scan.compilation.assets ∧
      (after.compilation.ReportsConflict → scan.compilation.ReportsConflict) ∧
      ∃ names, names.Sublist (entries.map Prod.fst) ∧
        after.entries.map Prod.fst = scan.entries.map Prod.fst ++ names := by
  induction entries generalizing scan with
  | nil => exact ⟨rfl, id, [], List.nil_sublist _, by simp [resolveEntries]⟩
  | cons entry rest ih =>
    obtain ⟨name, request⟩ := entry
    simp only [resolveEntries, Inquiry.answer_bind]
    have noted := unnamed_note scan context context request none
      ((resolve context request).answer view)
    generalize scan.note context context request none _ = outcome at noted
    obtain ⟨found, scan'⟩ := outcome
    cases found with
    | none =>
      obtain ⟨assets, reports, names, sublist, shape⟩ := ih scan'
      refine ⟨assets.trans noted.assets, noted.reports ∘ reports, names, sublist.cons name, ?_⟩
      rw [← noted.entries]
      exact shape
    | some id =>
      obtain ⟨assets, reports, names, sublist, shape⟩ :=
        ih { scan' with entries := scan'.entries ++ [(name, id)] }
      refine ⟨assets.trans noted.assets, noted.reports ∘ reports, name :: names,
        sublist.cons_cons name, ?_⟩
      rw [← noted.entries]
      simpa using shape

theorem run_names (view : FileView) (options : Options) (budget : Nat) (compilation : Compilation) :
    let after := (run options budget compilation).answer view
    after.compilation.assets = compilation.assets ∧
      (after.compilation.ReportsConflict → compilation.ReportsConflict) ∧
      (after.entries.map Prod.fst).Sublist options.entry.keys := by
  simp only [run, Inquiry.answer_bind]
  obtain ⟨assets, reports, names, sublist, shape⟩ := resolveEntries_names view
    options.context options.entry.entries { compilation }
  have drained := unnamed_drain view options.context budget
    ((resolveEntries options.context options.entry.entries { compilation }).answer view)
  refine ⟨drained.assets.trans assets, reports ∘ drained.reports, ?_⟩
  rw [drained.entries, shape]
  exact sublist

end Scan

/-! ## Assets of a finished scan -/

theorem Rendering.add_assets (rendering : Rendering) (id : String) (module : ScannedModule)
    (fingerprint : Fingerprint) :
    (rendering.add id module fingerprint).compilation.assets = rendering.compilation.assets ∧
      (rendering.add id module fingerprint).compilation.errors = rendering.compilation.errors := by
  unfold Rendering.add
  split
  · exact ⟨rfl, rfl⟩
  · dsimp only
    split
    exact ⟨rfl, rfl⟩

theorem renderAll_assets (digest : ByteArray → Fingerprint) (modules : Table String ScannedModule)
    (rendering : Rendering) :
    (renderAll digest modules rendering).compilation.assets = rendering.compilation.assets ∧
      (renderAll digest modules rendering).compilation.errors = rendering.compilation.errors := by
  unfold renderAll
  generalize (graphOf digest modules).fingerprints digest = fingerprints
  induction modules.entries generalizing rendering with
  | nil => exact ⟨rfl, rfl⟩
  | cons entry rest ih =>
    have added := rendering.add_assets entry.1 entry.2
      ((fingerprints.get? entry.1).getD (digest entry.2.source.toUTF8))
    exact ⟨(ih _).1.trans added.1, (ih _).2.trans added.2⟩

/-- Entries whose files are new and differ are added without a conflict. -/
theorem addEntries_reports {options : Options} (modules : Table String ScannedModule)
    (entries : List (String × String)) (compilation : Compilation)
    (distinct : (entries.map fun entry => options.output.filenameFor entry.1).Nodup)
    (fresh : ∀ entry ∈ entries,
      compilation.assets.get? (options.output.filenameFor entry.1) = none) :
    (entries.foldl (fun compilation (name, entry) =>
      addEntry options modules compilation name entry) compilation).errors = compilation.errors := by
  induction entries generalizing compilation with
  | nil => rfl
  | cons entry rest ih =>
    obtain ⟨name, id⟩ := entry
    have absent := fresh (name, id) List.mem_cons_self
    simp only [List.map_cons, List.nodup_cons] at distinct
    simp only [List.foldl_cons]
    have added : (addEntry options modules compilation name id).errors = compilation.errors ∧
        ∃ asset, (addEntry options modules compilation name id).assets =
          compilation.assets.insert (options.output.filenameFor name) asset := by
      simp only [addEntry, Compilation.emitAsset, absent]
      exact ⟨rfl, _, rfl⟩
    obtain ⟨errors, asset, assets⟩ := added
    rw [ih _ distinct.2, errors]
    intro other member
    rw [assets, Table.get?_insert_of_ne]
    · exact fresh other (List.mem_cons_of_mem _ member)
    · intro same
      refine distinct.1 (List.mem_map.2 ⟨other, member, ?_⟩)
      exact Std.LawfulEqCmp.eq_of_compare same

/-- A build into a compilation without assets, whose entries name different files, reports
no conflict. -/
theorem reportsConflict_of_build {view : FileView} {options : Options} {digest : ByteArray → Fingerprint}
    {budget : Nat} {cache : Option ArtifactCache} {compilation : Compilation}
    (distinct : (options.entry.keys.map options.output.filenameFor).Nodup)
    (fresh : compilation.assets = Table.empty)
    (reports : ((buildBundles digest options budget cache compilation).answer
      view).compilation.ReportsConflict) : compilation.ReportsConflict := by
  simp only [buildBundles, Inquiry.answer_bind, Inquiry.answer_pure] at reports
  obtain ⟨assets, unreported, names⟩ := Scan.run_names view options budget compilation
  generalize (Scan.run options budget compilation).answer view = scan
    at assets unreported names reports
  apply unreported
  unfold finish at reports
  split at reports
  · exact reports
  · obtain ⟨rendered, errors⟩ := renderAll_assets digest scan.modules ⟨scan.compilation, cache⟩
    have differ := (names.map options.output.filenameFor).nodup distinct
    rw [List.map_map] at differ
    have added := addEntries_reports scan.modules scan.entries
      (renderAll digest scan.modules ⟨scan.compilation, cache⟩).compilation differ fun entry _ => by
        rw [rendered, assets, fresh, Table.get?_empty]
    obtain ⟨name, member⟩ := reports
    exact ⟨name, errors ▸ added ▸ member⟩

end Build

end Bundler
