import Bundler.Storage.Memory

/-! # A small project in memory, with leaves, requests, a package and a missing file -/

namespace Bundler.Rehearsal

/-- The files of the sample project. -/
def sampleFiles : List (String × String) :=
  [("/project/a.js",
      "module.exports = function a() \x7b\n  return \"This is a\";\n\x7d;\n"),
    ("/project/b.js",
      "module.exports = function b() \x7b\n  return \"This is b\";\n\x7d;\n"),
    ("/project/c.js",
      "var a = require(\"./a\");\nvar b = require(\"./b\");\n" ++
      "module.exports = function c() \x7b\n  return a() + b() + \"This is c\";\n\x7d;\n"),
    ("/project/abc.js", "require(\"./a\");\nrequire(\"./b\");\nrequire(\"./c\");\n"),
    ("/project/main1.js",
      "var a = require(\"./a\");\nvar m1 = require(\"m1/a\");\nmodule.exports = a() + m1();\n"),
    ("/project/missing.js", "require(\"./a\");\nrequire(\"./does-not-exist\");\n"),
    ("/project/node_modules/m1/a.js",
      "module.exports = function m1() \x7b\n  return \"This is m1/a\";\n\x7d;\n")]

/-- The sample project as a store. -/
def sampleProject : MemoryFiles :=
  sampleFiles.foldl (fun store (path, content) => store.addFile (.of path) content.toUTF8)
    MemoryFiles.empty

end Bundler.Rehearsal
