import Bundler.CommandLine.Arguments

/-!
# Help

What the program says about itself, and how arguments that give it no orders end.
The long help tells more of each option than the short one.
-/

namespace Bundler.CommandLine

def programName : String := "packwatch"

def programVersion : String := "0.1.0"

def versionText : String := programName ++ " " ++ programVersion

def helpHead : List String :=
  ["Bundle CommonJS modules, once or continuously on file changes.", "",
    "Usage: " ++ programName ++ " [OPTIONS]", "", "Options:"]

def shortHelp : String :=
  "\n".intercalate (helpHead ++
    ["      --config <PATH>      Path to the config file (TOML) [default: Packwatch.toml]",
      "      --watch              Keep running and rebuild when watched files change",
      "      --log-level <LEVEL>  Logging level (error, warn, info, debug, trace) " ++
        "[possible values: error,",
      "                           warn, info, debug, trace]",
      "      --dry-run            " ++
        "Parse + validate, print the resolved options, but don't build",
      "      --bail               Treat the first error diagnostic as fatal",
      "  -h, --help               Print help (see more with '--help')",
      "  -V, --version            Print version"])

/-- The paragraphs of an option's long help, with empty lines as wide as the indent. -/
def helpEntry (option : String) (paragraphs : List String) : List String :=
  let indent := "          "
  [option] ++ (paragraphs.map fun paragraph => indent ++ paragraph).intersperse indent

def longHelp : String :=
  "\n".intercalate (helpHead ++ List.intercalate [""]
    [helpEntry "      --config <PATH>"
        ["Path to the config file (TOML).",
          "Default: `Packwatch.toml` in the current working directory.",
          "[default: Packwatch.toml]"],
      helpEntry "      --watch" ["Keep running and rebuild when watched files change"],
      helpEntry "      --log-level <LEVEL>"
        ["Logging level (error, warn, info, debug, trace).",
          "If omitted, `PACKWATCH_LOG` or a default level will be used.",
          "[possible values: error, warn, info, debug, trace]"],
      helpEntry "      --dry-run"
        ["Parse + validate, print the resolved options, but don't build"],
      helpEntry "      --bail" ["Treat the first error diagnostic as fatal"],
      helpEntry "  -h, --help" ["Print help (see a summary with '-h')"],
      helpEntry "  -V, --version" ["Print version"]])

def Setter.usage : Setter → String
  | .config => "--config <PATH>"
  | .logLevel => "--log-level <LEVEL>"

def Switch.usage : Switch → String
  | .watch => "--watch"
  | .dryRun => "--dry-run"
  | .bail => "--bail"

namespace UsageError

/-- What was asked for, if it was no mistake. -/
def answer? : UsageError → Option String
  | helpWanted true => some longHelp
  | helpWanted false => some shortHelp
  | versionWanted => some versionText
  | _ => none

def message : UsageError → String
  | unknown argument => "error: unexpected argument '" ++ argument ++ "' found"
  | missingValue option =>
    "error: a value is required for '" ++ option.usage ++ "' but none was supplied"
  | badValue option value =>
    "error: invalid value '" ++ value ++ "' for '" ++ option.usage ++ "'"
  | needlessValue option => "error: unexpected value for '" ++ option ++ "' found"
  | repeatedSwitch option =>
    "error: the argument '" ++ option.usage ++ "' cannot be used multiple times"
  | repeatedSetter option =>
    "error: the argument '" ++ option.usage ++ "' cannot be used multiple times"
  | helpWanted _ | versionWanted => ""

/-- The exit code of a program that was told this. -/
def exitCode (error : UsageError) : UInt8 := if error.answer?.isSome then 0 else 2

end UsageError

end Bundler.CommandLine
