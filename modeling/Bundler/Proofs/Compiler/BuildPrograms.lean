import Bundler.Proofs.Build.CacheTransparency
import Bundler.Proofs.Compiler.FileRequests

/-!
# The program of a build

A build asks for files one at a time and looks at the shared cache on its way, so others come in
between its steps. `Prog.Builds` says what is left of a build for which the files are what they
were when it began, and for which the cache is honest whenever it looks: it sets honest caches
only, it neither waits nor panics, and it ends as a build does that has no cache.
-/

namespace Bundler

open Build

variable {S : Setting} {α β : Type}

namespace Prog

/-- What is left of a build of some files. Every entry of a cache that it sees or sets was
rendered from one of some scanned modules. -/
inductive Builds (input : StorageId) (files : FileTree)
    (tables : List (Table String ScannedModule)) (ending : α → Prop) : Prog S.filed α → Prop where
  | done {value} (ends : ending value) : Builds input files tables ending (.done value)
  | lookCache {next}
      (rest : ∀ cache, (∀ held, cache = some held → Honest Fingerprint.of tables held) →
        Builds input files tables ending (next cache)) :
      Builds input files tables ending (.op .lookCache next)
  | setCache {cache next} (honest : Honest Fingerprint.of tables cache)
      (rest : Builds input files tables ending (next ())) :
      Builds input files tables ending (.op (.setCache cache) next)
  | isFile {path next} (rest : Builds input files tables ending (next (files.isFile path))) :
      Builds input files tables ending (.call (.isFile input path) next)
  | asksIsFile {path next} (rest : Builds input files tables ending (next (files.isFile path))) :
      Builds input files tables ending (.request (.isFile input path) next)
  | read {path next} (rest : Builds input files tables ending (next (files.read path))) :
      Builds input files tables ending (.call (.read input path) next)
  | asksRead {path next} (rest : Builds input files tables ending (next (files.read path))) :
      Builds input files tables ending (.request (.read input path) next)

variable {input : StorageId} {files : FileTree} {tables : List (Table String ScannedModule)}

theorem Builds.bind {middle : α → Prop} {ending : β → Prop} {program : Prog S.filed α}
    {next : α → Prog S.filed β} (first : program.Builds input files tables middle)
    (rest : ∀ value, middle value → (next value).Builds input files tables ending) :
    (program >>= next).Builds input files tables ending := by
  change (program.bind next).Builds input files tables ending
  induction first with
  | done ends => exact rest _ ends
  | lookCache _ ih => exact .lookCache ih
  | setCache honest _ ih => exact .setCache honest ih
  | isFile _ ih => exact .isFile ih
  | asksIsFile _ ih => exact .asksIsFile ih
  | read _ ih => exact .read ih
  | asksRead _ ih => exact .asksRead ih

/-- An inquiry gets the answer that the files give. -/
theorem builds_inquiry (inquiry : Inquiry α) :
    (inquiry.run (fun path => invoke (.isFile input path))
      (fun path => invoke (.read input path)) : Prog S.filed α).Builds input files tables
        fun value => value = inquiry.answer files.toFileView := by
  induction inquiry with
  | done value => exact .done rfl
  | isFile path next ih => exact .isFile (ih _)
  | read path next ih => exact .read (ih _)

end Prog

namespace Build

/-- What a builder gives back. -/
def Built.reply (built : Built) : Except RunError Unit × Compilation :=
  match built.failure with
  | none => (.ok (), built.compilation)
  | some error => (.error error, built.compilation)

/-- A reply is the one of a builder without a cache, but for the marks of cached modules. -/
structure BuildCall.Answered (call : BuildCall) (reply : Except RunError Unit × Compilation) :
    Prop where
  result : reply.1 = (call.result Fingerprint.of none).reply.1
  compilation : reply.2.forgetCached = (call.result Fingerprint.of none).reply.2.forgetCached

theorem Built.reply_fst (built : Built) :
    built.reply.1 = match built.failure with | none => .ok () | some error => .error error := by
  rw [reply]
  cases built.failure <;> rfl

theorem Built.reply_snd (built : Built) : built.reply.2 = built.compilation := by
  rw [reply]
  cases built.failure <;> rfl

variable {tables : List (Table String ScannedModule)} {context : Path}

/-- A scan that is rendered with or without an honest cache ends in the same way, and leaves no
cache or an honest one. -/
theorem finish_honest {cache : Option ArtifactCache} {scan : Scan}
    (absolute : context.isAbsolute = true) (comparable : Comparable Fingerprint.of context tables)
    (options : Options) (known : ∀ modules ∈ tablesOf scan, modules ∈ tables)
    (honest : ∀ held, cache = some held → Honest Fingerprint.of tables held) :
    let warm := finish Fingerprint.of options cache scan
    let cold := finish Fingerprint.of options none scan
    warm.failure = cold.failure ∧ warm.compilation.forgetCached = cold.compilation.forgetCached ∧
      ∀ after, warm.cache = some after → Honest Fingerprint.of tables after := by
  have digestSize : ∀ content, (Fingerprint.of content).bytes.size = 32 := blake3_size
  cases cache with
  | some cache =>
      exact forgetCached_finish digestSize absolute comparable options known (honest cache rfl)
  | none =>
      refine ⟨rfl, rfl, fun after same => ?_⟩
      rw [tablesOf] at known
      rw [finish] at same
      cases failed : scan.failure with
      | some failure =>
          rw [failed] at same
          cases same
      | none =>
          rw [failed] at known same
          have member := known scan.modules List.mem_cons_self
          exact (forgetCached_renderAll digestSize absolute comparable member
            ⟨scan.compilation, none⟩ fun held none_ => by cases none_).2 after same

end Build

namespace Compiler

/-- A build after it has looked at the options. -/
def bundleFor (options : Options) (input : StorageId) (compilation : Compilation) :
    Prog S (Except RunError Unit × Compilation) := do
  let cache ← Prog.perform .lookCache
  let built ← (buildBundles Fingerprint.of options fileLimit cache compilation).run
    (fun path => Prog.invoke (.isFile input path)) (fun path => Prog.invoke (.read input path))
  match built.cache with
  | some cache => Prog.perform (.setCache cache)
  | none => pure ()
  return built.reply

theorem bundle_eq (compiler : CompilerId) (input : StorageId) (compilation : Compilation) :
    (bundle compiler input compilation : Prog S _) =
      Prog.look compiler >>= fun record => bundleFor record.options input compilation := by
  rw [bundle]
  refine bind_congr fun record => ?_
  refine bind_congr fun cache => ?_
  refine bind_congr fun built => ?_
  rw [Built.reply]
  cases built.cache <;> cases built.failure <;> rfl

/-- A build ends as one without a cache does, and leaves an honest cache. -/
theorem bundleFor_builds {tables : List (Table String ScannedModule)} {context : Path}
    (absolute : context.isAbsolute = true) (comparable : Comparable Fingerprint.of context tables)
    (input : StorageId) (files : FileTree) (options : Options) (compilation : Compilation) :
    let call : BuildCall := ⟨files.toFileView, options, fileLimit, compilation⟩
    (∀ modules ∈ tablesOf call.scan, modules ∈ tables) →
    (bundleFor options input compilation : Prog S.filed _).Builds input files tables
      call.Answered := by
  intro call known
  refine .lookCache fun cache honest => (Prog.builds_inquiry _).bind ?_
  rintro built rfl
  change Prog.Builds _ _ _ _ (do
    match (call.result Fingerprint.of cache).cache with
    | some cache => Prog.perform (.setCache cache)
    | none => pure ()
    return (call.result Fingerprint.of cache).reply)
  obtain ⟨failures, compilations, kept⟩ := finish_honest absolute comparable options known honest
  rw [← call.result_eq, ← call.result_eq] at failures compilations
  rw [← call.result_eq] at kept
  have answered : call.Answered (call.result Fingerprint.of cache).reply := by
    constructor
    · rw [Built.reply_fst, Built.reply_fst, failures]
    · rw [Built.reply_snd, Built.reply_snd, compilations]
  cases after : (call.result Fingerprint.of cache).cache with
  | none => exact .done answered
  | some held => exact .setCache (kept held after) (.done answered)

end Compiler

end Bundler
