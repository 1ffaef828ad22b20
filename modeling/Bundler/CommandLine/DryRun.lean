import Bundler.Options.Listing

/-! # Options as a dry run prints them -/

namespace Bundler

/-- Where the output of an entry goes. -/
def Options.target (options : Options) (entry : String) : Path :=
  options.output.path.join (.of (options.output.filenameFor entry))

namespace CommandLine

def optionLines (options : Options) : List String :=
  (options.name.toList.map fun name => "  name = " ++ name) ++
    ["  mode = " ++ options.mode.listing,
      "  context = " ++ options.context.text,
      "  bail = " ++ toString options.bail,
      "  cache = " ++ toString options.cache,
      "  optimization.no_emit_on_errors = " ++ toString options.noEmitOnErrors]

def entryLines (options : Options) : List String :=
  ("entries (" ++ toString options.entry.size ++ "):") ::
    options.entry.entries.map fun (name, request) =>
      "  - " ++ name ++ ": " ++ request ++ " -> " ++ (options.target name).text

def watchLines (options : Options) : List String :=
  ("watch: aggregate_timeout_ms = " ++ toString options.watch.aggregateTimeout) ::
    if options.watch.ignored.isEmpty then []
    else ["  ignored: " ++ Text.quotedList options.watch.ignored]

/-- What a dry run prints. -/
def dryRun (options : Options) : String :=
  "\n".intercalate
    (["packwatch dry-run"] ++ optionLines options ++ [""] ++ entryLines options ++ [""] ++
      watchLines options)

end CommandLine

end Bundler
