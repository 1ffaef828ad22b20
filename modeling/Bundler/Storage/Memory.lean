import Bundler.Storage.View

/-!
# Files in memory

A store maps paths to files and to directories that list the names of their
children. `addFile` makes the directories it needs; `mkdir` and `write` demand
that the parent directory is there. Entries and listings are kept side by side,
and every change edits both.
-/

namespace Bundler

/-- What a path holds. -/
inductive StoredEntry where
  | file (content : ByteArray)
  | directory (names : Table String Unit)
  deriving DecidableEq

/-- A store of files and directories in memory. -/
structure MemoryFiles where
  entries : Table Path StoredEntry
  deriving DecidableEq

namespace MemoryFiles

/-- A store with its two roots, `/` and `.`. -/
def empty : MemoryFiles :=
  ⟨(Table.empty.insert (.of "/") (.directory Table.empty)).insert (.of ".")
    (.directory Table.empty)⟩

instance : Inhabited MemoryFiles := ⟨empty⟩

/-- The directory that lists a path. Names without a directory lie in `.`. -/
def holder? (path : Path) : Option Path :=
  path.parent?.map fun parent => if parent.isEmpty then .of "." else parent

def contains (store : MemoryFiles) (path : Path) : Bool := store.entries.contains path

def isFile (store : MemoryFiles) (path : Path) : Bool :=
  match store.entries.get? path with
  | some (.file _) => true
  | _ => false

def isDirectory (store : MemoryFiles) (path : Path) : Bool :=
  match store.entries.get? path with
  | some (.directory _) => true
  | _ => false

def read (store : MemoryFiles) (path : Path) : Except FileFault ByteArray :=
  match store.entries.get? path with
  | some (.file content) => .ok content
  | some (.directory _) => .error (.isDirectory path)
  | none => .error (.missing path)

/-- The content of a file as text; ill-formed bytes are a fault. -/
def readText (store : MemoryFiles) (path : Path) : Except FileFault String :=
  (store.read path).bind fun content =>
    let decoded := Text.decode content
    match decoded.fault with
    | none => .ok decoded.text
    | some fault => .error (.illFormed fault)

def view (store : MemoryFiles) : FileView := ⟨store.isFile, store.isDirectory, store.read⟩

/-- Every file in path order. -/
def files (store : MemoryFiles) : List Path :=
  store.entries.entries.filterMap fun entry =>
    match entry.2 with
    | .file _ => some entry.1
    | .directory _ => none

def names (store : MemoryFiles) (path : Path) : Except FileFault (List String) :=
  match store.entries.get? path with
  | some (.directory names) => .ok names.keys
  | some (.file _) => .error (.notDirectory path)
  | none => .error (.missing path)

/-- List the name of `child` in `parent`, if `parent` is a directory. -/
def link (store : MemoryFiles) (parent child : Path) : MemoryFiles :=
  match child.fileName? with
  | none => store
  | some name =>
    ⟨store.entries.modify parent fun
      | .directory names => .directory (names.insert name ())
      | .file content => .file content⟩

/-- Take the name of `child` off the listing of `parent`. -/
def unlink (store : MemoryFiles) (parent child : Path) : MemoryFiles :=
  match child.fileName? with
  | none => store
  | some name =>
    ⟨store.entries.modify parent fun
      | .directory names => .directory (names.erase name)
      | .file content => .file content⟩

def put (store : MemoryFiles) (path : Path) (entry : StoredEntry) : MemoryFiles :=
  ⟨store.entries.insert path entry⟩

/-- Make a directory and those above it that are not there yet, going up at
most `count` steps. -/
def ensureDirectory : Nat → MemoryFiles → Path → MemoryFiles
  | 0, store, _ => store
  | count + 1, store, path =>
    if store.contains path then store
    else
      let store := store.put path (.directory Table.empty)
      match holder? path with
      | none => store
      | some parent =>
        if parent.same path then store
        else (ensureDirectory count store parent).link parent path

/-- Write a file, making the directories above it. -/
def addFile (store : MemoryFiles) (path : Path) (content : ByteArray) : MemoryFiles :=
  let store :=
    match holder? path with
    | none => store
    | some parent => (ensureDirectory (path.components.length + 1) store parent).link parent path
  store.put path (.file content)

/-- Take an entry out, whatever lies below it, and say whether it was there. -/
def remove (store : MemoryFiles) (path : Path) : Bool × MemoryFiles :=
  let removed : MemoryFiles := ⟨store.entries.erase path⟩
  (store.contains path,
    match holder? path with
    | none => removed
    | some parent => removed.unlink parent path)

/-- Make one directory. -/
def mkdir (store : MemoryFiles) (path : Path) : Except FileFault MemoryFiles :=
  if store.contains path then .error (.exists path)
  else
    match holder? path with
    | none => .error (.missing path)
    | some parent =>
      match store.entries.get? parent with
      | none => .error (.missing parent)
      | some (.file _) => .error (.notDirectory parent)
      | some (.directory _) => .ok ((store.put path (.directory Table.empty)).link parent path)

/-- Write a file into a directory that is there. -/
def write (store : MemoryFiles) (path : Path) (content : ByteArray) :
    Except FileFault MemoryFiles :=
  match holder? path with
  | none => .error (.missing path)
  | some parent =>
    if !store.isDirectory parent then .error (.missing parent)
    else if store.isDirectory path then .error (.isDirectory path)
    else .ok ((store.put path (.file content)).link parent path)

end MemoryFiles

/-- A directory that is there counts as made. -/
def madeOrThere : Except FileFault Unit → Except FileFault Unit
  | .ok () => .ok ()
  | .error fault => if fault.kind = .alreadyExists then .ok () else .error fault

/-- The directory to make first, if the attempt to make `path` says that one above it is
missing. -/
def missingAbove? (path : Path) : Except FileFault Unit → Option Path
  | .ok () => none
  | .error fault =>
    if fault.kind = .notFound then
      path.parent?.filter fun parent => !(parent.isEmpty || parent.same path)
    else none

/-- Make a directory and those above it that are missing. Any step up needs a shorter
path, so `count` bounds them. -/
def mkdirp {m : Type → Type} [Monad m] (mkdir : Path → m (Except FileFault Unit)) :
    Nat → Path → m (Except FileFault Unit)
  | 0, path => do return madeOrThere (← mkdir path)
  | count + 1, path => do
    let attempt ← mkdir path
    match missingAbove? path attempt with
    | none => return madeOrThere attempt
    | some parent =>
      match ← mkdirp mkdir count parent with
      | .error fault => return .error fault
      | .ok () => return madeOrThere (← mkdir path)

namespace MemoryFiles

/-- `mkdir` as an action on a changing store. -/
def mkdirAction (path : Path) : StateM MemoryFiles (Except FileFault Unit) := fun store =>
  match store.mkdir path with
  | .ok store => (.ok (), store)
  | .error fault => (.error fault, store)

/-- Make a directory with all those above it. -/
def mkdirAll (store : MemoryFiles) (path : Path) : Except FileFault Unit × MemoryFiles :=
  (mkdirp mkdirAction path.components.length path).run store

end MemoryFiles

end Bundler
