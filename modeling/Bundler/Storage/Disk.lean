import Bundler.Storage.Memory

/-!
# Disks

Files and directories as an operating system keeps them, with a current
directory. A path is walked one segment at a time, from the root if it is
absolute and else from the current directory: what a segment is looked up in has
to be a directory, and `..` goes to the directory that really holds it. So two
spellings that fold to one path may name different places, or none.
-/

namespace Bundler

/-- What a place on a disk holds. -/
inductive DiskEntry where
  | file (content : ByteArray)
  | directory
  deriving DecidableEq

/-- Entries by their place, an absolute path without `.` and `..`. -/
structure Disk where
  entries : Table Path DiskEntry
  current : Path

namespace Disk

/-- The longest name of an entry in bytes. -/
def nameLimit : Nat := 255

/-- Paths of this many bytes are too long. -/
def pathLimit : Nat := 4096

/-- An empty disk with a current directory. -/
def blank (current : Path) : Disk :=
  ⟨current.ancestors.foldl (fun entries place => entries.insert place .directory) Table.empty,
    current⟩

def isDirectoryAt (disk : Disk) (place : Path) : Bool :=
  match disk.entries.get? place with
  | some .directory => true
  | _ => false

/-- Look up a segment in a place. -/
def step (disk : Disk) (place : Path) (segment : String) : Except SystemError Path :=
  match disk.entries.get? place with
  | none => .error .noEntry
  | some (.file _) => .error .notDirectory
  | some .directory =>
    if Cut.isIdle segment then .ok place
    else if segment = ".." then .ok (place.parent?.getD place)
    else if nameLimit < segment.utf8ByteSize then .error .nameTooLong
    else .ok (place.join (.of segment))

/-- The place that a path leads to. Everything on the way is there, the place
itself may be empty. -/
def locate (disk : Disk) (path : Path) : Except SystemError Path :=
  if path.isEmpty then .error .noEntry
  else if pathLimit ≤ path.text.utf8ByteSize then .error .nameTooLong
  else
    ((Cut.segmentsOf path.text.toList).map String.ofList).foldlM (disk.step ·)
      (if path.isAbsolute then .of "/" else disk.current)

/-- A path without slashes at its end. -/
def trimSlashes (path : Path) : Path :=
  match (path.text.toList.reverse.dropWhile (· == '/')).reverse with
  | [] => if path.isAbsolute then .of "/" else path
  | kept => .of (String.ofList kept)

def entry? (disk : Disk) (path : Path) : Option DiskEntry :=
  match disk.locate path with
  | .ok place => disk.entries.get? place
  | .error _ => none

/-- Something is where a path leads. -/
def contains (disk : Disk) (path : Path) : Bool := (disk.entry? path).isSome

/-- No path with a zero character reaches a disk. -/
def accept (path : Path) : Except FileFault Unit :=
  if path.text.toList.contains '\x00' then .error .nulInPath else .ok ()

def find (disk : Disk) (path : Path) : Except FileFault Path :=
  match disk.locate path with
  | .ok place => .ok place
  | .error error => .error (.system error)

def read (disk : Disk) (path : Path) : Except FileFault ByteArray := do
  accept path
  match disk.entries.get? (← disk.find path) with
  | some (.file content) => return content
  | some .directory => throw (.system .isDirectory)
  | none => throw (.system .noEntry)

/-- The content of a file as text. -/
def readText (disk : Disk) (path : Path) : Except FileFault String := do
  match String.fromUTF8? (← disk.read path) with
  | some text => return text
  | none => throw .notText

/-- What can be seen of a disk. -/
def view (disk : Disk) : FileView where
  isFile path :=
    match disk.entry? path with
    | some (.file _) => true
    | _ => false
  isDirectory path :=
    match disk.entry? path with
    | some .directory => true
    | _ => false
  read := disk.read

def put (disk : Disk) (place : Path) (entry : DiskEntry) : Disk :=
  { disk with entries := disk.entries.insert place entry }

/-- Make one directory; slashes at the end of its path do not matter. -/
def mkdir (disk : Disk) (path : Path) : Except FileFault Disk := do
  accept path
  let place ← disk.find (trimSlashes path)
  if disk.entries.contains place then throw (.system .exists)
  else return disk.put place .directory

/-- Write a file into a directory that is there. What ends with a slash can only
be a directory. -/
def write (disk : Disk) (path : Path) (content : ByteArray) : Except FileFault Disk := do
  accept path
  let trimmed := trimSlashes path
  let place ← disk.find trimmed
  if trimmed != path || disk.isDirectoryAt place then throw (.system .isDirectory)
  else return disk.put place (.file content)

/-- Take away what a path leads to, with everything below it. -/
def remove (disk : Disk) (path : Path) : Disk :=
  match disk.locate path with
  | .error _ => disk
  | .ok place =>
    { disk with entries := disk.entries.filter fun other _ => !other.startsWith place }

/-- Every file with its place, in path order. -/
def files (disk : Disk) : List (Path × ByteArray) :=
  disk.entries.entries.filterMap fun (place, entry) =>
    match entry with
    | .file content => some (place, content)
    | .directory => none

/-- `mkdir` as an action on a changing disk. -/
def mkdirAction (path : Path) : StateM Disk (Except FileFault Unit) := fun disk =>
  match disk.mkdir path with
  | .ok disk => (.ok (), disk)
  | .error fault => (.error fault, disk)

/-- Make a directory with all those above it. -/
def mkdirAll (disk : Disk) (path : Path) : Disk :=
  ((mkdirp mkdirAction path.components.length path).run disk).2

/-- Write a file, making the directories above it. -/
def addFile (disk : Disk) (path : Path) (content : ByteArray) : Disk :=
  let disk :=
    match path.parent? with
    | some parent => disk.mkdirAll parent
    | none => disk
  match disk.write path content with
  | .ok disk => disk
  | .error _ => disk

end Disk

end Bundler
