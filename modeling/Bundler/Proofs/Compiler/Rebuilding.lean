import Bundler.Proofs.Build.Rebuilds
import Bundler.Proofs.Compiler.BuildsUnderWay
import Bundler.Proofs.Compiler.Stages

/-!
# Compilations after each other

`Prog.Undisturbed` says how a program is carried out while the files stay as they are and nothing
else uses the shared cache, whatever happens to the world otherwise. A compilation then comes to
what the builder makes of the files and of the cache (`filled_of_compile`), and it leaves its
modules in the cache. So of two compilations in succession the second renders what was edited and
what leads there, and takes all else from the cache (`rebuilds_minimal`).
-/

namespace Bundler

open Build

variable {S : Setting} {α β : Type}

/-- A call of the builder, or one that it makes. -/
def Call.OfBuild : Call S → Prop
  | .build _ _ _ | .isFile _ _ | .read _ _ => True
  | _ => False

/-- An operation after which the shared cache may be another one. -/
def Op.ChangesCache : Op S → Prop
  | .setCache _ | .retain _ => True
  | _ => False

theorem World.cacheAfter_eq {operation : Op S} (unchanging : ¬ operation.ChangesCache)
    (world : World S) : world.cacheAfter operation = world.cache := by
  cases operation with
  | setCache | retain => exact absurd trivial unchanging
  | _ => rfl

namespace Prog

/-- A program is carried out as the circumstances of one build are, from one state of the shared
cache to another: the compiler has these options, the builder is called for this compilation and
finds these files, and nothing but the program and the builder uses the cache. Otherwise the world
may be any at each operation, and other calls may give any answers. -/
inductive Undisturbed (compiler : CompilerId) (call : BuildCall) :
    {α : Type} → Prog S α → Option ArtifactCache → Option ArtifactCache → α → Prop where
  | done {α : Type} (value : α) (cache : Option ArtifactCache) :
      Undisturbed compiler call (.done value) cache cache value
  | op {α : Type} {operation : Op S} {next : operation.Reply → Prog S α} {world after : World S}
      {task : TaskId} {preferChanges : Bool} {reply : operation.Reply}
      {before final : Option ArtifactCache} {value : α} (cached : world.cache = before)
      (configured : (world.compiler compiler).options = call.options)
      (performed : world.perform task preferChanges operation = some (reply, after))
      (rest : Undisturbed compiler call (next reply) after.cache final value) :
      Undisturbed compiler call (.op operation next) before final value
  | build {α : Type} {input : StorageId} {next : Except RunError Unit × Compilation → Prog S α}
      {reply : Except RunError Unit × Compilation} {before middle final : Option ArtifactCache}
      {value : α}
      (built : Undisturbed compiler call (Compiler.bundle compiler input call.compilation : Prog S _)
        before middle reply)
      (rest : Undisturbed compiler call (next reply) middle final value) :
      Undisturbed compiler call (.call (.build compiler input call.compilation) next) before final
        value
  | isFile {α : Type} {input : StorageId} {path : Bundler.Path} {next : Bool → Prog S α}
      {before final : Option ArtifactCache} {value : α}
      (rest : Undisturbed compiler call (next (call.view.isFile path)) before final value) :
      Undisturbed compiler call (.call (.isFile input path) next) before final value
  | read {α : Type} {input : StorageId} {path : Bundler.Path}
      {next : Except FileFault ByteArray → Prog S α} {before final : Option ArtifactCache} {value : α}
      (rest : Undisturbed compiler call (next (call.view.read path)) before final value) :
      Undisturbed compiler call (.call (.read input path) next) before final value
  | outside {α : Type} {outside : Call S} {next : outside.Reply → Prog S α} {reply : outside.Reply}
      {before final : Option ArtifactCache} {value : α} (other : ¬ outside.OfBuild)
      (rest : Undisturbed compiler call (next reply) before final value) :
      Undisturbed compiler call (.call outside next) before final value

namespace Undisturbed

variable {compiler : CompilerId} {call : BuildCall} {before final : Option ArtifactCache} {value : α}

theorem of_pure {result : α}
    (course : (pure result : Prog S α).Undisturbed compiler call before final value) :
    value = result ∧ final = before := by
  cases course
  exact ⟨rfl, rfl⟩

/-- A program after another one goes on with the cache that the first one leaves. -/
theorem of_bind {program : Prog S β} {next : β → Prog S α}
    (course : (program >>= next).Undisturbed compiler call before final value) :
    ∃ middle cache, program.Undisturbed compiler call before cache middle ∧
      (next middle).Undisturbed compiler call cache final value := by
  change (program.bind next).Undisturbed compiler call before final value at course
  induction program generalizing before with
  | done middle => exact ⟨middle, before, .done .., course⟩
  | op operation follow ih =>
      cases course with
      | op cached configured performed rest =>
          obtain ⟨middle, cache, first, later⟩ := ih _ rest
          exact ⟨middle, cache, .op cached configured performed first, later⟩
  | call outside follow ih =>
      cases course with
      | build built rest =>
          obtain ⟨middle, cache, first, later⟩ := ih _ rest
          exact ⟨middle, cache, .build built first, later⟩
      | isFile rest =>
          obtain ⟨middle, cache, first, later⟩ := ih _ rest
          exact ⟨middle, cache, .isFile first, later⟩
      | read rest =>
          obtain ⟨middle, cache, first, later⟩ := ih _ rest
          exact ⟨middle, cache, .read first, later⟩
      | outside other rest =>
          obtain ⟨middle, cache, first, later⟩ := ih _ rest
          exact ⟨middle, cache, .outside other first, later⟩
  | request | panic => cases course

/-- An operation is answered by a world that has the cache and the options. -/
theorem of_perform {operation : Op S} {reply : operation.Reply}
    (course : (perform operation).Undisturbed compiler call before final reply) :
    ∃ world : World S, world.cache = before ∧ (world.compiler compiler).options = call.options ∧
      final = world.cacheAfter operation ∧
      ∃ task preferChanges after, world.perform task preferChanges operation = some (reply, after) := by
  cases course with
  | @op _ _ _ world after _ _ _ _ _ _ cached configured performed rest =>
      cases rest
      exact ⟨world, cached, configured, World.perform_cache performed, _, _, _, performed⟩

theorem of_look_bind {next : CompilerRecord S → Prog S α}
    (course : (look compiler >>= next).Undisturbed compiler call before final value) :
    ∃ record, record.options = call.options ∧
      (next record).Undisturbed compiler call before final value := by
  obtain ⟨record, cache, looked, rest⟩ := of_bind course
  obtain ⟨world, cached, configured, same, _, _, _, performed⟩ := of_perform looked
  cases performed
  subst same cached
  exact ⟨_, configured, rest⟩

/-- A program that neither builds nor changes the cache leaves it as it is. -/
theorem cache_eq {program : Prog S α}
    (within : program.Within (fun operation => ¬ operation.ChangesCache) fun outside => ¬ outside.OfBuild)
    (course : program.Undisturbed compiler call before final value) : final = before := by
  induction within generalizing before with
  | done => exact (of_pure course).2
  | op unchanging _ ih =>
      cases course with
      | op cached _ performed rest =>
          rw [ih _ rest, World.perform_cache performed, World.cacheAfter_eq unchanging, cached]
  | call foreign _ ih =>
      cases course with
      | build | isFile | read => exact absurd trivial foreign
      | outside _ rest => exact ih _ rest

/-- An inquiry gets the answer that the files give, and leaves the cache as it is. -/
theorem of_inquiry {input : StorageId} {inquiry : Inquiry α}
    (course : (inquiry.run (fun path => invoke (.isFile input path))
      (fun path => invoke (.read input path)) : Prog S α).Undisturbed compiler call before final
        value) : value = inquiry.answer call.view ∧ final = before := by
  induction inquiry generalizing before with
  | done => exact of_pure course
  | isFile path next ih =>
      cases course with
      | isFile rest => exact ih _ rest
      | outside other => exact absurd trivial other
  | read path next ih =>
      cases course with
      | read rest => exact ih _ rest
      | outside other => exact absurd trivial other

/-! ## Phases -/

theorem of_phase {first : Phase S β} {next : β → Phase S α}
    (course : (first >>= next).run.Undisturbed compiler call before final (.ok value)) :
    ∃ middle cache, first.run.Undisturbed compiler call before cache (.ok middle) ∧
      (next middle).run.Undisturbed compiler call cache final (.ok value) := by
  rw [ExceptT.run_bind] at course
  obtain ⟨result, cache, begun, ended⟩ := of_bind course
  cases result with
  | error error => cases (of_pure ended).1
  | ok middle => exact ⟨middle, cache, begun, ended⟩

/-- A phase that neither builds nor changes the cache. -/
theorem past_phase {first : Phase S β} {next : β → Phase S α}
    (course : (first >>= next).run.Undisturbed compiler call before final (.ok value))
    (within : first.run.Within (fun operation => ¬ operation.ChangesCache)
      fun outside => ¬ outside.OfBuild) :
    ∃ middle, (next middle).run.Undisturbed compiler call before final (.ok value) := by
  obtain ⟨middle, cache, begun, ended⟩ := of_phase course
  exact ⟨middle, cache_eq within begun ▸ ended⟩

theorem of_lift_bind {program : Prog S β} {next : β → Phase S α} {result : Except RunError α}
    (course : ((liftM program : Phase S β) >>= next).run.Undisturbed compiler call before final
      result) : (program >>= fun middle => (next middle).run).Undisturbed compiler call before final
        result := by
  rw [← ExceptT.run_bind_lift]
  exact course

theorem of_proceed_bind {step : Prog S (Except RunError Unit × β)} {next : β → Phase S α}
    (course : (Compiler.proceed step >>= next).run.Undisturbed compiler call before final (.ok value)) :
    ∃ middle cache, step.Undisturbed compiler call before cache (.ok (), middle) ∧
      (next middle).run.Undisturbed compiler call cache final (.ok value) := by
  obtain ⟨middle, cache, proceeds, rest⟩ := of_phase course
  obtain ⟨⟨result, given⟩, _, begun, ended⟩ := of_bind (of_lift_bind proceeds)
  cases result with
  | error error => cases (of_pure ended).1
  | ok =>
      obtain ⟨same, rfl⟩ := of_pure ended
      exact ⟨middle, cache, Except.ok.inj same ▸ begun, rest⟩

end Undisturbed

end Prog

theorem Build.Built.success_of_reply {built : Built} {compilation : Compilation}
    (replied : (.ok (), compilation) = built.reply) :
    built.failure = none ∧ compilation = built.compilation := by
  rw [Built.reply] at replied
  cases failed : built.failure with
  | none =>
      rw [failed] at replied
      exact ⟨rfl, (Prod.mk.inj replied).2⟩
  | some error =>
      rw [failed] at replied
      cases (Prod.mk.inj replied).1

namespace Compiler

variable {compiler : CompilerId} {call : BuildCall} {before final : Option ArtifactCache}

/-- The builder fills the compilation and the cache as a build does. -/
theorem built_of_bundle {input : StorageId} {reply : Except RunError Unit × Compilation}
    (limit : call.budget = fileLimit)
    (course : (bundle compiler input call.compilation : Prog S _).Undisturbed compiler call before
      final reply) :
    let built := call.result Fingerprint.of before
    reply = built.reply ∧ final = built.cache.or before := by
  rw [bundle_eq] at course
  obtain ⟨record, configured, course⟩ := Prog.Undisturbed.of_look_bind course
  obtain ⟨_, _, shared, asking⟩ := Prog.Undisturbed.of_bind course
  obtain ⟨world, cached, -, unchanged, _, _, _, performed⟩ := Prog.Undisturbed.of_perform shared
  cases performed
  obtain ⟨built, cache, asked, storing⟩ := Prog.Undisturbed.of_bind asking
  obtain ⟨answered, kept⟩ := Prog.Undisturbed.of_inquiry asked
  rw [configured, ← limit, cached] at answered
  change built = call.result Fingerprint.of before at answered
  subst answered
  have held : cache = before := kept.trans (unchanged.trans cached)
  dsimp only
  cases after : (call.result Fingerprint.of before).cache with
  | none =>
      simp only [after] at storing
      obtain ⟨rfl, same⟩ := Prog.Undisturbed.of_pure storing
      exact ⟨rfl, same.trans held⟩
  | some stocked =>
      simp only [after] at storing
      obtain ⟨_, _, stored, ended⟩ := Prog.Undisturbed.of_bind storing
      obtain ⟨rfl, rfl⟩ := Prog.Undisturbed.of_pure ended
      obtain ⟨_, -, -, same, -⟩ := Prog.Undisturbed.of_perform stored
      exact ⟨rfl, same⟩

theorem built_of_invoke {input : StorageId} {compilation : Compilation}
    {reply : Except RunError Unit × Compilation} (limit : call.budget = fileLimit)
    (course : (Prog.invoke (.build compiler input compilation) : Prog S _).Undisturbed compiler call
      before final reply) :
    let built := call.result Fingerprint.of before
    reply = built.reply ∧ final = built.cache.or before := by
  cases course with
  | build built rest =>
      obtain ⟨rfl, rfl⟩ := Prog.Undisturbed.of_pure rest
      exact built_of_bundle limit built
  | outside other => exact absurd trivial other

/-- A compilation that does not fail is filled by the builder. A compiler that is no child then
drops the artifacts of other modules. -/
theorem filled_of_compile {filled : Compilation} (limit : call.budget = fileLimit)
    (course : (compile compiler : Phase S _).run.Undisturbed compiler call before final (.ok filled)) :
    let built := call.result Fingerprint.of before
    built.failure = none ∧ filled = built.compilation ∧
      (final = built.cache.or before ∨
        final = (built.cache.or before).map fun cache => (cache.retain filled.moduleIds).2) := by
  have adjusting : ∀ {adjustment : Adjustment} {compilation : Compilation},
      (proceed (adjust compiler adjustment compilation) : Phase S _).run.Within
        (fun operation => ¬ operation.ChangesCache) fun outside => ¬ outside.OfBuild :=
    within_proceed (within_adjust not_false fun _ _ => not_false)
  rw [compile_eq] at course
  obtain ⟨fresh, course⟩ := Prog.Undisturbed.past_phase course (.lift (.perform not_false))
  obtain ⟨_, course⟩ := Prog.Undisturbed.past_phase course adjusting
  obtain ⟨begun, course⟩ := Prog.Undisturbed.past_phase course adjusting
  obtain ⟨built, cache, building, telling⟩ := Prog.Undisturbed.of_phase course
  obtain ⟨_, ended⟩ :=
    Prog.Undisturbed.past_phase telling (within_observe not_false fun _ => not_false)
  obtain ⟨same, rfl⟩ := Prog.Undisturbed.of_pure ended
  obtain rfl := Except.ok.inj same
  rw [buildPhase] at building
  obtain ⟨record, -, building⟩ :=
    Prog.Undisturbed.of_look_bind (Prog.Undisturbed.of_lift_bind building)
  obtain ⟨given, stored, called, building⟩ := Prog.Undisturbed.of_proceed_bind building
  obtain ⟨later, -, building⟩ :=
    Prog.Undisturbed.of_look_bind (Prog.Undisturbed.of_lift_bind building)
  obtain ⟨replied, rfl⟩ := built_of_invoke limit called
  obtain ⟨success, rfl⟩ := Built.success_of_reply replied
  refine ⟨success, ?_⟩
  by_cases child : later.parent.isTruthy = true
  · simp only [child, Bool.not_true, Bool.false_eq_true, if_false] at building
    obtain ⟨same, rfl⟩ := Prog.Undisturbed.of_pure building
    exact ⟨Except.ok.inj same, .inl rfl⟩
  · simp only [Bool.not_eq_true] at child
    simp only [child, Bool.not_false, if_true] at building
    obtain ⟨_, _, retained, ended⟩ :=
      Prog.Undisturbed.of_bind (Prog.Undisturbed.of_lift_bind building)
    obtain ⟨same, rfl⟩ := Prog.Undisturbed.of_pure ended
    obtain rfl := Except.ok.inj same
    obtain ⟨world, cached, -, pruned, -⟩ := Prog.Undisturbed.of_perform retained
    exact ⟨rfl, .inr (pruned.trans (cached ▸ rfl))⟩

/-- A compilation through a cache leaves all its modules there. -/
theorem stocked_of_compile {cache : ArtifactCache} {filled : Compilation}
    (limit : call.budget = fileLimit)
    (course : (compile compiler : Phase S _).run.Undisturbed compiler call (some cache) final
      (.ok filled)) :
    ∃ after, final = some after ∧ Stocked Fingerprint.of call.scan.modules filled after := by
  obtain ⟨success, rfl, ending⟩ := filled_of_compile limit course
  rw [call.result_eq, failure_finish] at success
  obtain ⟨explored, -⟩ := Scan.explored_run success
  obtain ⟨after, left, served⟩ := finish_served Fingerprint.of call.options cache explored.sorted success
  have stocked : Stocked Fingerprint.of call.scan.modules
      (call.result Fingerprint.of (some cache)).compilation after := by
    intro id module held
    rw [call.result_eq]
    exact ⟨_, served id module ((explored.sorted.get?_eq_some_iff ..).1 held)⟩
  have caches : (call.result Fingerprint.of (some cache)).cache = some after := by
    rw [call.result_eq]
    exact left
  rw [caches, Option.or_some] at ending
  rcases ending with rfl | rfl
  · exact ⟨after, rfl, stocked⟩
  · exact ⟨_, rfl, stocked.retain⟩

/-! ## Two compilations -/

/-- Builds with the same options that find the same entries and modules with the same requests,
which lead to the same modules. -/
structure SameRequests (first second : BuildCall) : Prop where
  options : first.options = second.options
  entries : first.scan.entries = second.scan.entries
  modules : Build.SameRequests first.scan.modules second.scan.modules

theorem hashed_eq (success : call.scan.failure = none) :
    call.hashed Fingerprint.of = hashedFor Fingerprint.of call.scan.modules := by
  rw [BuildCall.hashed, tablesOf, success, List.flatMap_singleton]

/-- The asset that a build makes for an entry. -/
theorem get?_asset (success : call.scan.failure = none) (cache : Option ArtifactCache) {file : String}
    {entry : String × String} (free : call.compilation.assets.get? file = none)
    (named : entryOf? call.options call.scan.entries file = some entry) :
    let built := (call.result Fingerprint.of cache).compilation
    built.assets.get? file =
      some ⟨chunkContent built.modules (chunkOf call.options call.scan.modules entry), false⟩ := by
  have assets := (Scan.run_names call.view call.options call.budget call.compilation).1
  change call.scan.compilation.assets = call.compilation.assets at assets
  rw [call.result_eq]
  refine (get?_assets_finish Fingerprint.of call.options cache success file).trans ?_
  rw [assets, free, Option.none_or, named, Option.map_some]

/-- Two compilations of a compiler, one after the other with nothing else using the cache in
between, whose builds find the same requests: if hashing does not collide, the second one takes a
module from the cache exactly if no source is edited among the modules that it leads to, itself
included. The artifact is then that of the first compilation, and where an entry gives an asset in
both whose chunk has no edited module, the two assets are the same. -/
theorem rebuilds_minimal {first second : BuildCall} {earlier : ArtifactCache}
    {between later : Option ArtifactCache} {old new : Compilation}
    (firstLimit : first.budget = fileLimit) (secondLimit : second.budget = fileLimit)
    (compiled : (compile compiler : Phase S _).run.Undisturbed compiler first (some earlier) between
      (.ok old))
    (recompiled : (compile compiler : Phase S _).run.Undisturbed compiler second between later
      (.ok new))
    (same : SameRequests first second)
    (apart : ∀ left ∈ first.hashed Fingerprint.of ++ second.hashed Fingerprint.of,
      ∀ right ∈ first.hashed Fingerprint.of ++ second.hashed Fingerprint.of,
        Fingerprint.of left = Fingerprint.of right → left = right) :
    let edited := Edited first.scan.modules second.scan.modules
    (∀ id module, second.scan.modules.get? id = some module → ∃ before after,
      old.modules.get? id = some before ∧ new.modules.get? id = some after ∧
      (after.cached = true ↔
        ∀ other, Leads (dependenciesIn second.scan.modules) id other → ¬ edited other) ∧
      (after.cached = true → after.artifact = before.artifact)) ∧
    ∀ file entry, entryOf? second.options second.scan.entries file = some entry →
      first.compilation.assets.get? file = none → second.compilation.assets.get? file = none →
      (∀ id ∈ (chunkOf second.options second.scan.modules entry).modules, ¬ edited id) →
      ∃ asset, old.assets.get? file = some asset ∧ new.assets.get? file = some asset := by
  obtain ⟨cache, rfl, stocked⟩ := stocked_of_compile firstLimit compiled
  obtain ⟨firstSuccess, rfl, -⟩ := filled_of_compile firstLimit compiled
  obtain ⟨success, rfl, -⟩ := filled_of_compile secondLimit recompiled
  rw [first.result_eq, failure_finish] at firstSuccess
  rw [second.result_eq, failure_finish] at success
  have firstExplored : Scan.Explored _ _ _ first.scan := (Scan.explored_run firstSuccess).1
  have explored : Scan.Explored _ _ _ second.scan ∧ second.scan.queue = [] := Scan.explored_run success
  obtain ⟨explored, nothing⟩ := explored
  rw [hashed_eq firstSuccess, hashed_eq success] at apart
  have digestSize : ∀ content, (Fingerprint.of content).bytes.size = 32 := blake3_size
  have distinguishes := fun left inLeft right inRight =>
    apart left (List.mem_append_left _ inLeft) right (List.mem_append_right _ inRight)
  refine ⟨fun id module found => ?_, fun file entry named firstFree free stable => ?_⟩
  · rw [second.result_eq]
    exact rebuilt_module digestSize firstExplored.sorted explored.sorted success same.modules
      distinguishes stocked second.options found
  · have listed : entry ∈ second.scan.entries := List.mem_of_find?_eq_some named
    have contents := rebuilt_chunk digestSize firstExplored.sorted explored.sorted success same.modules
      distinguishes stocked (fun id inside => explored.isSome_of_leads nothing listed
        ((mem_reachable_iff ..).1 inside)) stable
    have sameName : entryOf? first.options first.scan.entries file = some entry := by
      rw [same.options, same.entries, named]
    have before := get?_asset firstSuccess (some earlier) firstFree sameName
    have after := get?_asset success (some cache) free named
    rw [same.options] at before
    rw [← second.result_eq] at contents
    exact ⟨_, before, after.trans (by rw [contents])⟩

end Compiler

/-! ## Compilers without observers -/

namespace Prog.Undisturbed

variable {compiler : CompilerId} {call : BuildCall} {before cache final : Option ArtifactCache}
  {middle : β} {value : α}

theorem bind {program : Prog S β} {next : β → Prog S α}
    (first : program.Undisturbed compiler call before cache middle)
    (rest : (next middle).Undisturbed compiler call cache final value) :
    (program >>= next).Undisturbed compiler call before final value := by
  change (program.bind next).Undisturbed compiler call before final value
  induction first with
  | done => exact rest
  | op cached configured performed _ ih => exact .op cached configured performed (ih rest)
  | build built _ _ ih => exact .build built (ih rest)
  | isFile _ ih => exact .isFile (ih rest)
  | read _ ih => exact .read (ih rest)
  | outside other _ ih => exact .outside other (ih rest)

theorem inquiry {input : StorageId} (inquiry : Inquiry α) :
    (inquiry.run (fun path => invoke (.isFile input path))
      (fun path => invoke (.read input path)) : Prog S α).Undisturbed compiler call cache cache
        (inquiry.answer call.view) := by
  induction inquiry with
  | done => exact .done ..
  | isFile path next ih => exact .isFile (ih _)
  | read path next ih => exact .read (ih _)

theorem phase {first : Phase S β} {next : β → Phase S α}
    (begun : first.run.Undisturbed compiler call before cache (.ok middle))
    (rest : (next middle).run.Undisturbed compiler call cache final (.ok value)) :
    (first >>= next).run.Undisturbed compiler call before final (.ok value) := by
  rw [ExceptT.run_bind]
  exact begun.bind rest

theorem lift {program : Prog S α} (course : program.Undisturbed compiler call before final value) :
    (liftM program : Phase S α).run.Undisturbed compiler call before final (.ok value) :=
  course.bind (.done ..)

theorem proceed {step : Prog S (Except RunError Unit × α)}
    (course : step.Undisturbed compiler call before final (.ok (), value)) :
    (Compiler.proceed step).run.Undisturbed compiler call before final (.ok value) :=
  (lift course).phase (.done ..)

section World

variable (world : World S) (configured : (world.compiler compiler).options = call.options)

include configured

theorem perform (operation : Op S) {reply : operation.Reply} {after : World S}
    (performed : world.perform 0 false operation = some (reply, after)) :
    (Prog.perform operation).Undisturbed compiler call world.cache after.cache reply :=
  .op rfl configured performed (.done ..)

theorem look : (Prog.look compiler).Undisturbed compiler call world.cache world.cache
    (world.compiler compiler) :=
  perform world configured (.look compiler) rfl

variable (quiet : (world.compiler compiler).registry = [])

include quiet

theorem adjust {adjustment : Adjustment} {compilation : Compilation} :
    (Compiler.adjust compiler adjustment compilation : Prog S _).Undisturbed compiler call world.cache
      world.cache (.ok (), compilation) := by
  refine (look world configured).bind ?_
  rw [quiet]
  exact .done ..

theorem observe {occasion : Occasion} :
    (Compiler.observe compiler occasion : Prog S _).Undisturbed compiler call world.cache world.cache
      (.ok ()) := by
  refine (look world configured).bind ?_
  rw [quiet]
  exact .done ..

end World

end Prog.Undisturbed

namespace Compiler

variable {compiler : CompilerId} {call : BuildCall}

theorem undisturbed_bundle (world : World S) (limit : call.budget = fileLimit)
    (configured : (world.compiler compiler).options = call.options) (input : StorageId) :
    (bundle compiler input call.compilation : Prog S _).Undisturbed compiler call world.cache
      ((call.result Fingerprint.of world.cache).cache.or world.cache)
      (call.result Fingerprint.of world.cache).reply := by
  rw [bundle_eq]
  refine (Prog.Undisturbed.look world configured).bind ?_
  refine Prog.Undisturbed.bind (Prog.Undisturbed.perform world configured .lookCache rfl) ?_
  refine Prog.Undisturbed.bind (Prog.Undisturbed.inquiry _) ?_
  rw [configured, ← limit]
  have answered : call.result Fingerprint.of world.cache = Inquiry.answer call.view
      (buildBundles Fingerprint.of call.options call.budget world.cache call.compilation) := rfl
  rw [← answered]
  cases (call.result Fingerprint.of world.cache).cache with
  | none => exact .done ..
  | some cache =>
      exact Prog.Undisturbed.bind
        (Prog.Undisturbed.perform world configured (.setCache cache) rfl) (.done ..)

/-- A compiler without observers compiles as its builder does. -/
theorem undisturbed_compile (world : World S) (limit : call.budget = fileLimit)
    (configured : (world.compiler compiler).options = call.options)
    (quiet : (world.compiler compiler).registry = [])
    (fresh : call.compilation = (world.newCompilation compiler).1)
    (success : call.scan.failure = none) :
    ∃ final, (compile compiler : Phase S _).run.Undisturbed compiler call world.cache final
      (.ok (call.result Fingerprint.of world.cache).compilation) := by
  have replied : (call.result Fingerprint.of world.cache).reply =
      (.ok (), (call.result Fingerprint.of world.cache).compilation) := by
    rw [Built.reply, call.result_eq, failure_finish, success]
  have building := undisturbed_bundle world limit configured (world.compiler compiler).input
  rw [replied] at building
  generalize call.result Fingerprint.of world.cache = built at building ⊢
  generalize stored : built.cache.or world.cache = cache at building
  -- The builder and what follows it find the compiler as it was, whatever the cache is.
  have looked : (Prog.look compiler : Prog S _).Undisturbed compiler call cache cache
      (world.compiler compiler) :=
    .look { world with cache } configured
  have told : ∀ {kept : Option ArtifactCache},
      (observe compiler (.afterCompile built.compilation) : Prog S _).Undisturbed compiler call kept
        kept (.ok ()) := fun {kept} =>
    .observe { world with cache := kept } configured quiet
  have pruning : ∃ final, (do
      if !(world.compiler compiler).parent.isTruthy then
        (Prog.perform (.retain built.compilation.moduleIds) : Prog S Unit)
      return built.compilation : Phase S Compilation).run.Undisturbed compiler call cache final
        (.ok built.compilation) := by
    cases (world.compiler compiler).parent.isTruthy with
    | true => exact ⟨cache, .done ..⟩
    | false =>
        exact ⟨_, .phase (.lift (.perform { world with cache } configured
          (.retain built.compilation.moduleIds) rfl)) (.done ..)⟩
  obtain ⟨final, pruned⟩ := pruning
  have filling : (buildPhase compiler call.compilation : Phase S _).run.Undisturbed compiler call
      world.cache final (.ok built.compilation) :=
    .phase (.lift (.look world configured)) (.phase (.proceed (.build building (.done ..)))
      (.phase (.lift looked) pruned))
  have made : (Prog.perform (.newCompilation compiler) : Prog S Compilation).Undisturbed compiler call
      world.cache world.cache call.compilation := by
    rw [fresh]
    change Prog.Undisturbed _ _ _ _ (world.newCompilation compiler).2.cache _
    exact .perform world configured (.newCompilation compiler) rfl
  rw [compile_eq]
  refine ⟨final, .phase (.lift made) ?_⟩
  refine .phase (.proceed (.adjust world configured quiet)) ?_
  refine .phase (.proceed (.adjust world configured quiet)) ?_
  exact .phase filling (.phase told (.done ..))

/-- A compiler without observers that builds `./a` and `./b` in `/p`. -/
def quietCompiler : CompilerRecord Setting.plain where
  options :=
    { context := .of "/p", entry := (Table.empty.insert "a" "./a").insert "b" "./b", output := {},
      noEmitOnErrors := false }

/-- The world of this compiler, in which some compilations were made. -/
def quietWorld (count : Nat) (cache : Option ArtifactCache) : World Setting.plain :=
  { compilers := [quietCompiler], lastCompilation := count, cache }

/-- Its builds of two scripts, of which the first one requires the second one. -/
def pairBuild (count : Nat) (source : String) : BuildCall where
  view := viewOfTexts [("/p/a.js", source), ("/p/b.js", "")]
  options := quietCompiler.options
  budget := fileLimit
  compilation := ((quietWorld count none).newCompilation 0).1

def pairModules (source : String) : Table String ScannedModule :=
  (Table.empty.insert "./a.js" ⟨.of "/p/a.js", source, [("./b", some "./b.js")]⟩).insert "./b.js"
    ⟨.of "/p/b.js", "", []⟩

/-- The first script before and after an edit. -/
def pairSources : List String := ["require('./b')", "require('./b');"]

theorem scan_pairBuild : ∀ count ∈ [0, 1], ∀ source ∈ pairSources,
    (pairBuild count source).scan.failure = none ∧
      (pairBuild count source).scan.entries = [("a", "./a.js"), ("b", "./b.js")] ∧
      (pairBuild count source).scan.modules = pairModules source := by
  decide +kernel

/-- The bytes that stand for the second script. -/
def calmBytes : ByteArray := Graph.unitBytes false [⟨"./b.js", .of "".toUTF8, []⟩] []

/-- The bytes that stand for the first script. -/
def busyBytes (source : String) : ByteArray :=
  Graph.unitBytes false [⟨"./a.js", .of source.toUTF8, ["./b.js"]⟩] [("./b.js", .of calmBytes)]

theorem units_pairModules : ∀ source ∈ pairSources,
    let graph := graphOf Fingerprint.of (pairModules source)
    graph.units = [[1], [0]] ∧ graph.isCyclic [1] = false ∧ graph.isCyclic [0] = false := by
  decide +kernel

theorem hashed_pairModules {source : String} (listed : source ∈ pairSources) :
    hashedFor Fingerprint.of (pairModules source) =
      [source.toUTF8, "".toUTF8, calmBytes, busyBytes source] := by
  obtain ⟨units, calm, busy⟩ := units_pairModules source listed
  have nodes : (graphOf Fingerprint.of (pairModules source)).nodes =
      [⟨"./a.js", .of source.toUTF8, ["./b.js"]⟩, ⟨"./b.js", .of "".toUTF8, []⟩] := rfl
  have messages : (graphOf Fingerprint.of (pairModules source)).messages Fingerprint.of =
      [⟨false, [⟨"./b.js", .of "".toUTF8, []⟩], []⟩,
        ⟨false, [⟨"./a.js", .of source.toUTF8, ["./b.js"]⟩], [("./b.js", .of calmBytes)]⟩] := by
    have first : (graphOf Fingerprint.of (pairModules source)).members [1] =
        [⟨"./b.js", .of "".toUTF8, []⟩] := by simp [Graph.members, nodes]
    have second : (graphOf Fingerprint.of (pairModules source)).members [0] =
        [⟨"./a.js", .of source.toUTF8, ["./b.js"]⟩] := by simp [Graph.members, nodes]
    simp only [Graph.messages, units, Graph.messagesFrom, Graph.messageOf, Graph.addUnit, first, second,
      calm, busy]
    rfl
  rw [hashedFor, Graph.hashed, messages]
  rfl

/-- What is hashed for the two scripts before and after the edit. -/
def pairStrings : List ByteArray :=
  "".toUTF8 :: calmBytes :: (pairSources.map String.toUTF8 ++ pairSources.map busyBytes)

theorem firstByte_pairStrings :
    pairStrings.map (fun content => (Fingerprint.of content).bytes.data[0]?) =
      [some 175, some 171, some 220, some 71, some 151, some 181] := by
  have blank : (Fingerprint.of "".toUTF8).bytes.data[0]? = some 175 := by decide +kernel
  have old : (Fingerprint.of "require('./b')".toUTF8).bytes.data[0]? = some 220 := by
    decide +kernel
  have new : (Fingerprint.of "require('./b');".toUTF8).bytes.data[0]? = some 71 := by
    decide +kernel
  -- the bytes of the first script hold this fingerprint, which is computed once
  have ofCalm : Fingerprint.of calmBytes = ⟨⟨#[171, 179, 50, 231, 184, 193, 217, 234, 205, 48, 141,
      120, 117, 26, 113, 145, 37, 65, 147, 12, 12, 207, 20, 197, 12, 248, 206, 97, 143, 148, 123,
      232]⟩⟩ := by decide +kernel
  have calm : (Fingerprint.of calmBytes).bytes.data[0]? = some 171 := by
    rw [ofCalm]
    rfl
  have busyOld : (Fingerprint.of (busyBytes "require('./b')")).bytes.data[0]? = some 151 := by
    rw [busyBytes, ofCalm]
    decide +kernel
  have busyNew : (Fingerprint.of (busyBytes "require('./b');")).bytes.data[0]? = some 181 := by
    rw [busyBytes, ofCalm]
    decide +kernel
  simp only [pairStrings, pairSources, List.map_cons, List.map_nil, List.cons_append,
    List.nil_append, blank, calm, old, new, busyOld, busyNew]

theorem hashed_pairBuild {count : Nat} (counted : count ∈ [0, 1]) {source : String}
    (listed : source ∈ pairSources) :
    ∀ content ∈ (pairBuild count source).hashed Fingerprint.of, content ∈ pairStrings := by
  obtain ⟨success, -, modules⟩ := scan_pairBuild count counted source listed
  rw [hashed_eq success, modules, hashed_pairModules listed]
  intro content inside
  simp only [List.mem_cons, List.not_mem_nil, or_false] at inside
  rcases inside with rfl | rfl | rfl | rfl
  · exact .tail _ (.tail _ (List.mem_append_left _ (List.mem_map_of_mem listed)))
  · exact .head _
  · exact .tail _ (.head _)
  · exact .tail _ (.tail _ (List.mem_append_right _ (List.mem_map_of_mem listed)))

/-- None of the strings collide. -/
theorem eq_of_digest_pairStrings_eq {first second : ByteArray} (inFirst : first ∈ pairStrings)
    (inSecond : second ∈ pairStrings) (same : Fingerprint.of first = Fingerprint.of second) :
    first = second := by
  have distinct : (pairStrings.map fun content =>
      (Fingerprint.of content).bytes.data[0]?).Nodup := by
    rw [firstByte_pairStrings]
    decide
  exact List.inj_on_of_nodup_map distinct inFirst inSecond
    (congrArg (fun fingerprint : Fingerprint => fingerprint.bytes.data[0]?) same)

/-- The first script is edited in between: it is rendered again, the second one and its asset are
not. -/
theorem rebuilds_pair : ∃ between later old new,
    (compile 0 : Phase Setting.plain _).run.Undisturbed 0 (pairBuild 0 "require('./b')")
      (some ArtifactCache.empty) between (.ok old) ∧
    (compile 0 : Phase Setting.plain _).run.Undisturbed 0 (pairBuild 1 "require('./b');") between later
      (.ok new) ∧
    (∃ after, new.modules.get? "./a.js" = some after ∧ after.cached = false) ∧
    (∃ before after, old.modules.get? "./b.js" = some before ∧ new.modules.get? "./b.js" = some after ∧
      after.cached = true ∧ after.artifact = before.artifact) ∧
    ∃ asset, old.assets.get? "b.js" = some asset ∧ new.assets.get? "b.js" = some asset := by
  obtain ⟨firstSuccess, firstEntries, firstModules⟩ :=
    scan_pairBuild 0 (by decide) "require('./b')" (by decide)
  obtain ⟨success, entries, modules⟩ := scan_pairBuild 1 (by decide) "require('./b');" (by decide)
  obtain ⟨between, compiled⟩ := @undisturbed_compile Setting.plain 0
    (pairBuild 0 "require('./b')") (quietWorld 0 (some .empty)) rfl rfl rfl rfl firstSuccess
  obtain ⟨later, recompiled⟩ := @undisturbed_compile Setting.plain 0
    (pairBuild 1 "require('./b');") (quietWorld 1 between) rfl rfl rfl rfl success
  have hashed : ∀ content ∈ (pairBuild 0 "require('./b')").hashed Fingerprint.of ++
      (pairBuild 1 "require('./b');").hashed Fingerprint.of, content ∈ pairStrings := by
    intro content inside
    rcases List.mem_append.1 inside with old | new
    · exact hashed_pairBuild (by decide) (by decide) content old
    · exact hashed_pairBuild (by decide) (by decide) content new
  have same : SameRequests (pairBuild 0 "require('./b')") (pairBuild 1 "require('./b');") :=
    ⟨rfl, firstEntries.trans entries.symm, by rw [firstModules, modules]; rfl⟩
  obtain ⟨each, assets⟩ := rebuilds_minimal rfl rfl compiled recompiled same
    fun left inLeft right inRight => eq_of_digest_pairStrings_eq (hashed left inLeft) (hashed right inRight)
  rw [firstModules, modules] at each assets
  have calm : ∀ other, Leads (dependenciesIn (pairModules "require('./b');")) "./b.js" other →
      ¬ Edited (pairModules "require('./b')") (pairModules "require('./b');") other := by
    rintro other leads ⟨before, after, held, found, differ⟩
    rcases leads.cases_head with rfl | ⟨_, step, -⟩
    · cases held
      cases found
      exact differ rfl
    · cases step
  refine ⟨between, later, _, _, compiled, recompiled, ?_, ?_, ?_⟩
  · obtain ⟨_, after, -, found, cached, -⟩ := each "./a.js" _ rfl
    refine ⟨after, found, Bool.eq_false_iff.2 fun served => ?_⟩
    exact cached.1 served "./a.js" .refl ⟨_, _, rfl, rfl, by decide⟩
  · obtain ⟨before, after, held, found, cached, kept⟩ := each "./b.js" _ rfl
    have served := cached.2 calm
    exact ⟨before, after, held, found, served, kept served⟩
  · refine assets "b.js" ("b", "./b.js") ?_ rfl rfl fun id inside => calm id ?_
    · rw [entries]
      decide +kernel
    · exact (mem_reachable_iff ..).1 inside

end Compiler

end Bundler
