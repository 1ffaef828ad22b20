import Bundler.CommandLine.Arguments
import Bundler.CommandLine.Desk
import Bundler.CommandLine.DryRun
import Bundler.CommandLine.Ending

/-!
# Errands

What the program does for its arguments. `Errand.respond` is what surrounds its
compiler: files are read through the memory of the desk, and builds, runs and
subscriptions are logged. `Errand.invoke` is the whole program up to the moment
when it has nothing to do but wait for file events.
-/

namespace Bundler.CommandLine.Errand

/-! ## Reading -/

/-- The kind of a path when it was first looked at. -/
def kindOf (path : Path) : Errand PathKind := do
  match (← see).seen.kinds.get? path with
  | some kind => return kind
  | none =>
    let kind ← look
    change fun desk => { desk with seen := desk.seen.rememberKind path kind }
    return kind
where
  look : Errand PathKind := do
    if ← isFile path then return .file
    else if ← isDirectory path then return .directory
    else return .missing

/-- The content of a file when it was first read. -/
def readSeen (path : Path) : Errand (Except FileFault ByteArray) := do
  match (← see).seen.contents.get? path with
  | some content => return .ok content
  | none =>
    let answer ← (Prog.ask (S := setting) (.read path) : Errand (Except FileFault ByteArray))
    change fun desk => { desk with seen := desk.seen.rememberRead path answer }
    return answer

def purge : Errand Unit := change fun desk => { desk with seen := desk.seen.purge }

/-! ## Reporting -/

/-- Log diagnostics, errors before warnings. -/
def logDiagnostics (level : LogLevel) : List Diagnostic → Errand Unit
  | [] => pure ()
  | diagnostic :: rest => do
    log level diagnostic.text
    logDiagnostics level rest

def logCompilations : List CompilationRecord → Errand Unit
  | [] => pure ()
  | record :: rest => do
    logDiagnostics .error record.errors
    logDiagnostics .warn record.warnings
    logCompilations rest

/-- Build, and log what was found. -/
def build (compiler : CompilerId) (input : StorageId) (compilation : Compilation) :
    Errand (Except RunError Unit × Compilation) := do
  let record ← Prog.look (S := setting) compiler
  let (result, compilation) ← Compiler.bundle (S := setting) compiler input compilation
  if record.options.cache && !compilation.modules.isEmpty then
    log .trace "modules looked up in the artifact cache"
  match result with
  | .ok () => logCompilations compilation.tree
  | .error _ => pure ()
  return (result, compilation)

def logResult : RunResult → Errand Unit
  | .ok _ => log .info "run finished"
  | .error error => log .warn ("run failed: " ++ error.message)

/-- Print the summary of a compilation. -/
def printSummary (compilation : Compilation) : Errand Unit := do
  let elapsed ← (Prog.ask (S := setting) .elapsed : Errand String)
  print (.result (compilation.summary elapsed))

/-- What follows a run of a session. -/
def handle (result : RunResult) : Errand Unit := do
  logResult result
  match result with
  | .ok compilation => printSummary compilation
  | .error error => print (.complaint ("packwatch: build failed: " ++ error.message))

/-! ## File events -/

/-- The directories above paths. -/
def directoriesAbove : List Path → Errand (List Path)
  | [] => return []
  | path :: rest => do
    let found ← nearest path.ancestors.tail
    return found.toList ++ (← directoriesAbove rest)
where
  nearest : List Path → Errand (Option Path)
    | [] => return none
    | directory :: rest => do
      if ← isDirectory directory then return some directory
      else nearest rest

/-- Open a lookout for a request. -/
def subscribe (session : SessionId) (request : WatchRequest) : Errand (Option Subscription) := do
  match NoticeFilter.ofRequest request with
  | .error reason =>
    log .warn ("failed to watch dependencies: " ++ reason)
    return none
  | .ok filter =>
    let directories ← directoriesAbove (request.files.keys ++ request.missing.keys)
    let subscription := (← see).lookouts.length
    change fun desk =>
      { desk with
        lookouts := desk.lookouts ++
          [{ session, filter, directories := PathSet.ofList directories }] }
    log .trace "watching directories"
    log .info "file watcher started"
    return some subscription

def unsubscribe (subscription : Subscription) : Errand Unit := do
  change fun desk => { desk with lookouts := desk.lookouts.modify subscription Lookout.close }
  log .debug "file watcher closed"

/-! ## The compiler's surroundings -/

/-- The errand behind each call of outside code. -/
def respond : (call : Call setting) → Errand call.Reply
  | .observe _ observer _ => nomatch observer
  | .adjust _ observer _ _ => nomatch observer
  | .decide _ observer _ => nomatch observer
  | .build compiler input compilation => build compiler input compilation
  | .answer () result => do
    logResult result
    change fun desk => { desk with outcome := some result }
  | .notify () => change fun desk => { desk with closed := true }
  | .handle () result => handle result
  | .isFile _ path => do return (← kindOf path) == .file
  | .read _ path => readSeen path
  | .purge _ => do
    purge
    log .debug "purging input file system"
  | .mkdir _ path => (Prog.ask (S := setting) (.mkdir path) : Errand (Except FileFault Unit))
  | .write _ path content =>
    (Prog.ask (S := setting) (.write path content) : Errand (Except FileFault Unit))
  | .subscribe _ session request => subscribe session request
  | .unsubscribe subscription => unsubscribe subscription

/-! ## The whole program -/

/-- Load the options that a configuration file gives. -/
def load (current config : Path) : Errand (Except ConfigError Options) := do
  match ← (Prog.ask (S := setting) (.readText config) : Errand (Except FileFault String)) with
  | .error fault => return .error (.io fault)
  | .ok source => return loadOptions current config source

/-- Make a compiler. -/
def create (options : Options) : Errand CompilerId := do
  let compiler ← Compiler.create (S := setting) { options } fun _ => pure ()
  if options.noEmitOnErrors then log .trace "tap registered"
  return compiler

/-- Run once, to the end. -/
def runOnce (compiler : CompilerId) : Errand RunResult := do
  change fun desk => { desk with outcome := none }
  log .info "run started"
  Compiler.run (S := setting) compiler ()
  await fun desk => if desk.outcome.isSome then some desk else none
  return (← see).outcome.getD (.error .panicked)

/-- Run once and print the summary; errors of the compilation are a failure. -/
def single (compiler : CompilerId) : Errand Ending := do
  match ← runOnce compiler with
  | .error error => return .failed (.run error)
  | .ok compilation =>
    printSummary compilation
    return if compilation.hasErrors then .failed .diagnostics else .finished

/-- Begin a session. -/
def begin (compiler : CompilerId) (options : Options) : Errand Ending := do
  match ← Compiler.watch (S := setting) compiler options.watch () with
  | none => return .failed (.run .concurrent)
  | some session =>
    log .info "watching for changes; press Ctrl-C to stop"
    return .watching session

/-- End a session. -/
def finish (session : SessionId) : Errand Unit := do
  Compiler.close (S := setting) session ()
  await fun desk => if desk.closed then some desk else none

/-- Tell a session of changes. -/
def deliver (session : SessionId) (changes : ChangeSet) : Errand Unit := do
  let _ ← (Prog.perform (.deliver session changes) : Errand Bool)

/-- Do what the arguments say, in a current directory. -/
def invoke (current : Path) (arguments : Arguments) : Errand Ending := do
  match ← load current arguments.config with
  | .error error => return .failed (.config error)
  | .ok loaded =>
    log .debug "configuration loaded"
    let options := { loaded with bail := loaded.bail || arguments.bail }
    if arguments.dryRun then
      print (.result (dryRun options))
      return .finished
    else
      let compiler ← create options
      if arguments.watch then begin compiler options else single compiler

end Bundler.CommandLine.Errand
