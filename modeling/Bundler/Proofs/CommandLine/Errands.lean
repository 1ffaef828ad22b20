import Bundler.Proofs.Compiler.BuildPrograms
import Bundler.Proofs.Compiler.Visitors
import Bundler.Proofs.Notice.Lookouts
import Bundler.Rehearsal.Site

/-!
# What errands do

`Prog.Confined` bounds what a program does: its operations, its calls, and its requests. The
errands behind the calls of a compiler are `Errand.Modest`. They deal with sessions as visitors
do, they do not panic, and of the lookouts on the desk they only open and close some. What
lookouts hold is for nobody to change but for the lookouts themselves.
-/

namespace Bundler

variable {S : Setting} {α β : Type}

namespace Prog

variable {ops : Op S → Prop} {calls : Call S → Prop} {wishes : S.Request → Prop}

/-- A program that does not panic, and makes no operations, calls and requests but of these
kinds. -/
inductive Confined (ops : Op S → Prop) (calls : Call S → Prop) (wishes : S.Request → Prop) :
    Prog S α → Prop where
  | done (value : α) : Confined ops calls wishes (.done value)
  | op {operation : Op S} {next : operation.Reply → Prog S α} (allowed : ops operation)
      (rest : ∀ reply, Confined ops calls wishes (next reply)) :
      Confined ops calls wishes (.op operation next)
  | call {outside : Call S} {next : outside.Reply → Prog S α} (allowed : calls outside)
      (rest : ∀ reply, Confined ops calls wishes (next reply)) :
      Confined ops calls wishes (.call outside next)
  | request {wish : S.Request} {next : S.Answer wish → Prog S α} (allowed : wishes wish)
      (rest : ∀ answer, Confined ops calls wishes (next answer)) :
      Confined ops calls wishes (.request wish next)

namespace Confined

variable {program : Prog S α}

theorem bind {next : α → Prog S β} (first : program.Confined ops calls wishes)
    (rest : ∀ value, (next value).Confined ops calls wishes) :
    (program >>= next).Confined ops calls wishes := by
  change (program.bind next).Confined ops calls wishes
  induction first with
  | done value => exact rest value
  | op allowed _ ih => exact .op allowed ih
  | call allowed _ ih => exact .call allowed ih
  | request allowed _ ih => exact .request allowed ih

theorem mono {moreOps : Op S → Prop} {moreCalls : Call S → Prop}
    (confined : program.Confined ops calls wishes)
    (included : ∀ operation, ops operation → moreOps operation)
    (called : ∀ outside, calls outside → moreCalls outside) :
    program.Confined moreOps moreCalls wishes := by
  induction confined with
  | done value => exact .done value
  | op allowed _ ih => exact .op (included _ allowed) ih
  | call allowed _ ih => exact .call (called _ allowed) ih
  | request allowed _ ih => exact .request allowed ih

/-- A program that keeps to what is open to visitors is a visitor that does not panic. -/
theorem visitor {panics : Prop} (confined : program.Confined Op.Open Call.Open wishes) :
    program.Visitor panics := by
  induction confined with
  | done value => exact .done value
  | op allowed _ ih => exact .op allowed ih
  | call allowed _ ih => exact .call allowed ih
  | request _ _ ih => exact .request ih

/-- The questions of an inquiry, one call each. -/
theorem inquiry {input : StorageId} (asking : ∀ path, calls (.isFile input path))
    (reading : ∀ path, calls (.read input path)) (inquiry : Inquiry α) :
    (inquiry.run (fun path => Prog.invoke (.isFile input path))
      (fun path => Prog.invoke (.read input path)) : Prog S α).Confined ops calls wishes := by
  induction inquiry with
  | done value => exact .done value
  | isFile path next ih => exact .call (asking path) ih
  | read path next ih => exact .call (reading path) ih

end Confined

/-- What makes no requests at all is confined to any. -/
theorem Within.confined {program : Prog S α} (within : program.Within ops calls) :
    program.Confined ops calls wishes := by
  induction within with
  | done value => exact .done value
  | op allowed _ ih => exact .op allowed ih
  | call allowed _ ih => exact .call allowed ih

end Prog

theorem Compiler.bundle_confined {wishes : S.Request → Prop} (compiler : CompilerId)
    (input : StorageId) (compilation : Compilation) :
    (Compiler.bundle compiler input compilation : Prog S _).Confined Op.Open Call.Open wishes := by
  rw [bundle_eq]
  have performs : ∀ operation : Op S, operation.Open →
      (Prog.perform operation).Confined Op.Open Call.Open wishes :=
    fun operation allowed => .op allowed .done
  refine (performs (.look compiler) trivial).bind fun record => ?_
  refine (performs .lookCache trivial).bind fun cache => ?_
  refine (Prog.Confined.inquiry (fun _ => trivial) (fun _ => trivial) _).bind fun built => ?_
  cases built.cache with
  | none => exact .done _
  | some cache => exact (performs (.setCache cache) trivial).bind fun _ => .done _

namespace CommandLine

/-- A request that minds the lookouts: what it does to the desk opens one or closes one, or
leaves them all alone. -/
def Request.Minds : Request → Prop
  | .change step => ∀ desk after, step desk = some after → Lookout.Moves desk.lookouts after.lookouts
  | _ => True

namespace Errand

variable {errand : Errand α}

/-- An errand that keeps to what visitors may do, and minds the lookouts. -/
abbrev Modest (errand : Errand α) : Prop :=
  errand.Confined Op.Open Call.Open Request.Minds

theorem modest_change {step : Desk → Desk}
    (moves : ∀ desk, Lookout.Moves desk.lookouts (step desk).lookouts) : (change step).Modest :=
  .request (fun desk _ same => Option.some.inj same ▸ moves desk) .done

theorem modest_see : see.Modest := .request trivial .done

theorem modest_log (level : LogLevel) (text : String) : (log level text).Modest :=
  .request trivial .done

/-- What is remembered of files does not concern the lookouts. -/
theorem modest_kindOf (path : Path) : (kindOf path).Modest := by
  have looks : (kindOf.look path).Modest := by
    refine .request trivial fun file => ?_
    cases file with
    | true => exact .done _
    | false =>
        refine .request trivial fun directory => ?_
        cases directory <;> exact .done _
  refine modest_see.bind fun desk => ?_
  split
  · exact .done _
  · refine looks.bind fun kind => Prog.Confined.bind ?_ fun _ => .done _
    exact modest_change fun desk => .kept

theorem modest_readSeen (path : Path) : (readSeen path).Modest := by
  refine modest_see.bind fun desk => ?_
  split
  · exact .done _
  · have reads : Modest (Prog.ask (S := setting) (.read path)) := .request trivial .done
    refine reads.bind fun answer => Prog.Confined.bind ?_ fun _ => .done _
    exact modest_change fun desk => .kept

theorem modest_logDiagnostics (level : LogLevel) (diagnostics : List Diagnostic) :
    (logDiagnostics level diagnostics).Modest := by
  induction diagnostics with
  | nil => exact .done ()
  | cons diagnostic rest ih => exact (modest_log _ _).bind fun _ => ih

theorem modest_logCompilations (records : List CompilationRecord) :
    (logCompilations records).Modest := by
  induction records with
  | nil => exact .done ()
  | cons record rest ih =>
      refine (modest_logDiagnostics _ _).bind fun _ => ?_
      exact (modest_logDiagnostics _ _).bind fun _ => ih

theorem modest_build (compiler : CompilerId) (input : StorageId) (compilation : Compilation) :
    (build compiler input compilation).Modest := by
  refine .op trivial fun record => (Compiler.bundle_confined _ _ _).bind ?_
  rintro ⟨result, compilation⟩
  dsimp only
  cases result with
  | ok =>
    split
    · exact (modest_log _ _).bind fun _ => (modest_logCompilations _).bind fun _ => .done _
    · exact (modest_logCompilations _).bind fun _ => .done _
  | error =>
    split
    · exact (modest_log _ _).bind fun _ => .done _
    · exact .done _

theorem modest_logResult (result : RunResult) : (logResult result).Modest := by
  cases result <;> exact modest_log _ _

theorem modest_handle (result : RunResult) : (handle result).Modest := by
  refine (modest_logResult result).bind fun _ => ?_
  cases result with
  | ok compilation => exact .request trivial fun elapsed => .request trivial .done
  | error error => exact .request trivial .done

theorem modest_directoriesAbove (paths : List Path) : (directoriesAbove paths).Modest := by
  have nearest : ∀ directories, (directoriesAbove.nearest directories).Modest := by
    intro directories
    induction directories with
    | nil => exact .done _
    | cons directory rest ih =>
        refine .request trivial fun found => ?_
        cases found with
        | true => exact .done _
        | false => exact ih
  induction paths with
  | nil => exact .done _
  | cons path rest ih => exact (nearest _).bind fun found => ih.bind fun above => .done _

/-- A subscription opens one lookout, or none. -/
theorem modest_subscribe (session : SessionId) (request : WatchRequest) :
    (subscribe session request).Modest := by
  rw [subscribe]
  split
  · exact (modest_log _ _).bind fun _ => .done _
  · refine (modest_directoriesAbove _).bind fun directories => ?_
    refine modest_see.bind fun desk => ?_
    refine (modest_change fun desk => .opened _).bind fun _ => ?_
    exact (modest_log _ _).bind fun _ => (modest_log _ _).bind fun _ => .done _

theorem modest_unsubscribe (subscription : Subscription) : (unsubscribe subscription).Modest :=
  (modest_change fun _ => .closed subscription).bind fun _ => modest_log _ _

/-- Whatever a compiler calls, its surroundings are modest. -/
theorem modest_respond (outside : Call setting) : (respond outside).Modest := by
  cases outside with
  | observe compiler observer | adjust compiler observer | decide compiler observer =>
      cases observer
  | build compiler input compilation => exact modest_build _ _ _
  | answer callback result =>
      exact (modest_logResult result).bind fun _ => modest_change fun _ => .kept
  | notify callback => exact modest_change fun _ => .kept
  | handle handler result => exact modest_handle result
  | isFile input path => exact (modest_kindOf path).bind fun kind => .done _
  | read input path => exact modest_readSeen path
  | purge input =>
      refine Prog.Confined.bind ?_ fun _ => modest_log _ _
      exact modest_change fun _ => .kept
  | mkdir output path | write output path content => exact .request trivial .done
  | subscribe watcher session request => exact modest_subscribe _ _
  | unsubscribe subscription => exact modest_unsubscribe _

theorem modest_deliver (session : SessionId) (changes : ChangeSet) :
    (deliver session changes).Modest := .op trivial fun _ => .done ()

end Errand

end CommandLine

/-- On a site, whatever a compiler calls is a visitor that does not panic. -/
theorem Rehearsal.Site.hosts (panics : Prop) : Rehearsal.Site.environment.Hosts panics :=
  fun outside => (CommandLine.Errand.modest_respond outside).visitor

end Bundler
