import Bundler.CommandLine.Help
import Bundler.Compiler.Program

/-!
# How an invocation ends

The errors that end the program, and what it reports of them. The cause of an
error of files is reported once more on lines of its own.
-/

namespace Bundler

/-- What a configuration error says. -/
def ConfigError.message : ConfigError → String
  | .invalid cause => "Configuration error: " ++ cause.message
  | .io fault => "IO error: " ++ fault.message
  | .syntaxError => "TOML parsing error: TOML parse error"
  | .shape reason => "TOML parsing error: TOML parse error: " ++ reason

def ConfigError.cause? : ConfigError → Option String
  | .io fault => some fault.message
  | _ => none

def RunError.cause? : RunError → Option String
  | .io _ fault => some fault.message
  | .hook _ _ reason => some reason
  | _ => none

namespace CommandLine

/-- Why the program did not do what it was told. -/
inductive Failure where
  | config (error : ConfigError)
  | run (error : RunError)
  /-- The compilation has errors. -/
  | diagnostics
  deriving DecidableEq

namespace Failure

def message : Failure → String
  | config error => error.message
  | run error => error.message
  | diagnostics => "compilation finished with errors"

def cause? : Failure → Option String
  | config error => error.cause?
  | run error => error.cause?
  | diagnostics => none

/-- The report of a failure. -/
def report (failure : Failure) : String :=
  "packwatch error: " ++ failure.message ++
    match failure.cause? with
    | some cause => "\n\nCaused by:\n    " ++ cause
    | none => ""

end Failure

/-- What is left to do when the program has done what it was told. -/
inductive Ending where
  | finished
  | failed (failure : Failure)
  /-- A session goes on until the program is interrupted. -/
  | watching (session : SessionId)
  deriving DecidableEq

def Ending.exitCode : Ending → UInt8
  | .failed _ => 1
  | .finished | .watching _ => 0

end CommandLine

end Bundler
