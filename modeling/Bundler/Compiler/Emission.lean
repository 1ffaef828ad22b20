import Bundler.Compiler.Hooks
import Bundler.Storage.Memory

/-!
# Emission

The assets of a compilation are written below the output path in the order of
their names, each after its directory was made. The first failure ends the
emission; what was written until then stays marked. Emission is written for any
monad in which directories are made, files written and observers told.
-/

namespace Bundler

/-- How an emission acts on the world. -/
structure Emitter (m : Type → Type) where
  mkdir : Path → m (Except FileFault Unit)
  write : Path → ByteArray → m (Except FileFault Unit)
  /-- Tell the observers of a written asset. -/
  tell : EmittedAsset → m (Except RunError Unit)

namespace Emitter

variable {m : Type → Type} [Monad m]

/-- A failure at a path. -/
def failingAt (path : Path) : Except FileFault Unit → Except RunError Unit
  | .ok () => .ok ()
  | .error fault => .error (.io path fault)

/-- Make a directory and those above it. -/
def prepare (emitter : Emitter m) (path : Path) : m (Except RunError Unit) := do
  return Emitter.failingAt path (← mkdirp emitter.mkdir path.components.length path)

/-- Write one asset. -/
def emitOne (emitter : Emitter m) (output : Path) (name : String) (content : ByteArray) :
    m (Except RunError Unit) := do
  let target := output.join (.of name)
  let prepared ←
    match target.parent? with
    | some directory =>
      if directory.same output then pure (.ok ()) else emitter.prepare directory
    | none => pure (.ok ())
  match prepared with
  | .error error => return .error error
  | .ok () => return Emitter.failingAt target (← emitter.write target content)

/-- Write the assets of the given names. -/
def emitNamed (emitter : Emitter m) (output : Path) :
    List String → Compilation → m (Except RunError Unit × Compilation)
  | [], compilation => return (.ok (), compilation)
  | name :: rest, compilation => do
    match compilation.assets.get? name with
    | none => emitNamed emitter output rest compilation
    | some asset =>
      match ← emitter.emitOne output name asset.content with
      | .error error => return (.error error, compilation)
      | .ok () =>
        let compilation := compilation.markEmitted name
        match ← emitter.tell ⟨name, output.join (.of name), asset.content.size⟩ with
        | .error error => return (.error error, compilation)
        | .ok () => emitNamed emitter output rest compilation

/-- Write all assets of a compilation. -/
def emitAll (emitter : Emitter m) (output : Path) (compilation : Compilation) :
    m (Except RunError Unit × Compilation) := do
  match ← emitter.prepare output with
  | .error error => return (.error error, compilation)
  | .ok () => emitter.emitNamed output compilation.assetNames compilation

end Emitter

end Bundler
