import Bundler.Source.Literal
import Bundler.Table

/-!
# Output templates

A module becomes a function in a table, labelled by its identifier. A chunk is a
loader applied to the table of its modules.
-/

namespace Bundler.Source

/-- The name that a bundle gives to its require function. -/
def requireName : String := "__packwatch_require__"

/-- A call of the bundle's require function. -/
def requireCall (id : String) : String := requireName ++ "(" ++ Literal.encode id ++ ")"

/-- A module's source as an entry of the table. -/
def renderModule (id source : String) : String :=
  "/***/ " ++ Literal.encode id ++ ": (function(module, exports, " ++ requireName ++ ") \x7b\n" ++
    source ++ (if source.toList.getLast? = some '\n' then "" else "\n") ++ "/***/ \x7d),\n"

/-- The loader in front of the table; it starts at the entry module. -/
def loader (entry : String) : String :=
  "(function(modules) \x7b\n" ++
  "  var installed = \x7b\x7d;\n" ++
  "  function " ++ requireName ++ "(id) \x7b\n" ++
  "    if (installed[id]) return installed[id].exports;\n" ++
  "    var module = installed[id] = \x7b id: id, exports: \x7b\x7d \x7d;\n" ++
  "    modules[id].call(module.exports, module, module.exports, " ++ requireName ++ ");\n" ++
  "    return module.exports;\n" ++
  "  \x7d\n" ++
  "  return " ++ requireCall entry ++ ";\n" ++
  "\x7d)(\x7b\n"

/-- A chunk: the loader and the rendered modules in the order of their
identifiers. -/
def renderChunk (entry : String) (modules : Table String String) : String :=
  loader entry ++ String.join modules.values ++ "\x7d);\n"

end Bundler.Source
