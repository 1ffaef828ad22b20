import Bundler.Options.Basic
import Bundler.Text.Quoted

/-! # Options as a listing shows them -/

namespace Bundler

def Mode.listing : Mode → String
  | .production => "Production"
  | .development => "Development"
  | .none => "None"

def OutputOptions.listing (output : OutputOptions) : String :=
  "OutputOptions \x7b path: " ++ Text.quoted output.path.text ++ ", filename: " ++
    Text.quoted output.filename ++ " \x7d"

def WatchOptions.listing (watch : WatchOptions) : String :=
  "WatchOptions \x7b aggregate_timeout_ms: " ++ toString watch.aggregateTimeout ++
    ", ignored: " ++ Text.quotedList watch.ignored ++ " \x7d"

/-- Entries in braces. -/
def entryListing (entry : Table String String) : String :=
  "\x7b" ++ ", ".intercalate (entry.entries.map fun (name, request) =>
    Text.quoted name ++ ": " ++ Text.quoted request) ++ "\x7d"

def Options.listing (options : Options) : String :=
  "CompilerOptions \x7b mode: " ++ options.mode.listing ++ ", context: " ++
    Text.quoted options.context.text ++ ", name: " ++ Text.quotedOption options.name ++
    ", bail: " ++ toString options.bail ++ ", cache: " ++ toString options.cache ++
    ", entry: " ++ entryListing options.entry ++ ", output: " ++ options.output.listing ++
    ", optimization: Optimization \x7b no_emit_on_errors: " ++
    toString options.noEmitOnErrors ++ " \x7d, watch_options: " ++ options.watch.listing ++
    " \x7d"

/-- A compiler that is not made yet, with the names of its plugins. -/
def Options.draftListing (options : Options) (plugins : List String) : String :=
  "CompilerBuilder \x7b options: " ++ options.listing ++ ", plugins: [" ++
    ", ".intercalate (plugins.map fun name => "Plugin(" ++ name ++ ")") ++ "], .. \x7d"

end Bundler
