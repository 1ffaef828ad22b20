import Bundler.Proofs.Storage.ReadCache
import Bundler.Storage.Memory
import Mathlib.Data.List.DropRight
import Mathlib.Data.List.Induction

/-!
# Remembered reads as a snapshot

A remembering storage is asked while the files behind it change at will, so every `Visit` has
files of its own. `firstRead` and `firstLook` say of the visits since the last purge what was seen
first at a path. `Remembers` ties the two tables of the storage to them; one query keeps it, hence
every history has it, and all answers of the storage are read off from there.
-/

namespace Bundler

/-- Two spellings that are answered alike, apart from the text of faults. -/
structure FileView.Alike (files : FileView) (left right : Path) : Prop where
  isFile : files.isFile left = files.isFile right
  isDirectory : files.isDirectory left = files.isDirectory right
  read : (files.read left).toOption = (files.read right).toOption

theorem MemoryFiles.view_apart (store : MemoryFiles) : store.view.Apart := by
  rintro path ⟨file, directory⟩
  simp only [view, isFile, isDirectory] at file directory
  cases found : store.entries.get? path with
  | none => simp [found] at file
  | some entry => cases entry <;> simp [found] at file directory

/-! ## Visits -/

/-- What a storage is asked. -/
inductive Query where
  | read (path : Path)
  | isFile (path : Path)
  | isDirectory (path : Path)
  | purge

namespace Query

/-- The path that is read. -/
def read? : Query → Option Path
  | read path => some path
  | _ => none

/-- The path whose kind is asked for. -/
def look? : Query → Option Path
  | isFile path | isDirectory path => some path
  | _ => none

/-- A query reads or asks for a kind, not both. -/
theorem look?_of_reads {query : Query} {path : Path} (reads : query.read? = some path) :
    query.look? = none := by
  cases query with
  | read => rfl
  | _ => cases reads

theorem read?_of_looks {query : Query} {path : Path} (looks : query.look? = some path) :
    query.read? = none := by
  cases query with
  | isFile | isDirectory => rfl
  | _ => cases looks

def path? (query : Query) : Option Path := query.read?.or query.look?

def isPurge : Query → Bool
  | purge => true
  | _ => false

end Query

/-- A query, and the files that are there when it is made. -/
structure Visit where
  files : FileView
  query : Query

namespace Visit

variable (path : Path)

/-- The content that the files have at a path, if this visit reads it. -/
def content? (visit : Visit) : Option ByteArray :=
  (visit.query.read?.filter path.same).bind fun asked => (visit.files.read asked).toOption

/-- The files, and how the path was spelled, if this visit asks what kind it is. -/
def seen? (visit : Visit) : Option (FileView × Path) :=
  (visit.query.look?.filter path.same).map fun asked => (visit.files, asked)

variable {visit : Visit} {asked : Path}

theorem content?_eq (reads : visit.query.read? = some asked) : visit.content? path =
    if path.same asked then (visit.files.read asked).toOption else none := by
  rw [content?, reads, Option.filter_some]
  split <;> rfl

theorem seen?_eq (looks : visit.query.look? = some asked) : visit.seen? path =
    if path.same asked then some (visit.files, asked) else none := by
  rw [seen?, looks, Option.filter_some]
  split <;> rfl

end Visit

/-- What was asked since the last purge, or from the beginning on. -/
def sincePurge (history : List Visit) : List Visit :=
  history.rtakeWhile fun visit => !visit.query.isPurge

/-- What the first read of a path that succeeded gave. -/
def firstRead (path : Path) (visits : List Visit) : Option ByteArray :=
  visits.findSome? (Visit.content? path)

/-- The files at the first query for the kind of a path, and how it was spelled. -/
def firstLook (path : Path) (visits : List Visit) : Option (FileView × Path) :=
  visits.findSome? (Visit.seen? path)

theorem firstRead_concat (path : Path) (visits : List Visit) (visit : Visit) :
    firstRead path (visits ++ [visit]) = (firstRead path visits).or (visit.content? path) := by
  rw [firstRead, List.findSome?_append, List.findSome?_singleton]
  rfl

theorem firstLook_concat (path : Path) (visits : List Visit) (visit : Visit) :
    firstLook path (visits ++ [visit]) = (firstLook path visits).or (visit.seen? path) := by
  rw [firstLook, List.findSome?_append, List.findSome?_singleton]
  rfl

theorem sincePurge_concat (history : List Visit) (visit : Visit) :
    sincePurge (history ++ [visit]) =
      if visit.query.isPurge then [] else sincePurge history ++ [visit] := by
  rw [sincePurge, List.rtakeWhile_concat]
  cases visit.query.isPurge <;> rfl

/-! ## What a storage remembers -/

namespace InputStorage

/-- The storage after a visit. -/
def visit (input : InputStorage) (visit : Visit) : InputStorage :=
  match visit.query with
  | .read path => (readFrom visit.files path input).2
  | .isFile path => (isFileIn visit.files path input).2
  | .isDirectory path => (isDirectoryIn visit.files path input).2
  | .purge => input.purge

/-- A new storage that remembers, after a history. -/
def after (history : List Visit) : InputStorage := history.foldl visit { cache := some {} }

/-- What a storage remembers is what the visits saw first. -/
def Remembers (input : InputStorage) (visits : List Visit) : Prop :=
  ∃ cache, input.cache = some cache ∧
    (∀ path, cache.contents.get? path = firstRead path visits) ∧
    ∀ path, cache.kinds.get? path = (firstLook path visits).map fun look => look.1.kind look.2

namespace Remembers

variable {input : InputStorage} {visits : List Visit}

theorem nil (blank : input.cache = some {}) : input.Remembers [] :=
  ⟨{}, blank, fun _ => rfl, fun _ => rfl⟩

/-- Only the first read of a path that succeeds counts. -/
theorem read (remembers : input.Remembers visits) (visit : Visit) {asked : Path}
    (reads : visit.query.read? = some asked) :
    (input.noteRead visit.files asked).Remembers (visits ++ [visit]) := by
  obtain ⟨cache, kept, contents, kinds⟩ := remembers
  refine ⟨cache.noteRead visit.files asked, by rw [cache_noteRead, kept, Option.map_some],
    fun path => ?_, fun path => ?_⟩
  · rw [cache.contents_noteRead, contents, firstRead_concat, Visit.content?_eq path reads]
  · rw [cache.kinds_noteRead, kinds, firstLook_concat, Visit.seen?,
      Query.look?_of_reads reads, Option.filter_none, Option.map_none, Option.or_none]

/-- Only the first query for the kind of a path counts. -/
theorem look (remembers : input.Remembers visits) (visit : Visit) {asked : Path}
    (looks : visit.query.look? = some asked) :
    (input.noteKind visit.files asked).Remembers (visits ++ [visit]) := by
  obtain ⟨cache, kept, contents, kinds⟩ := remembers
  refine ⟨cache.noteKind visit.files asked, by rw [noteKind, kept, Option.map_some],
    fun path => ?_, fun path => ?_⟩
  · rw [cache.contents_noteKind, contents, firstRead_concat, Visit.content?,
      Query.read?_of_looks looks, Option.filter_none, Option.bind_none, Option.or_none]
  · rw [cache.kinds_noteKind, kinds, firstLook_concat, Visit.seen?_eq path looks, Option.map_or]
    split <;> rfl

/-- A purge forgets, and every other query adds to what was seen. -/
theorem visit (remembers : input.Remembers visits) (visit : Visit) :
    (input.visit visit).Remembers (if visit.query.isPurge then [] else visits ++ [visit]) := by
  obtain ⟨files, query⟩ := visit
  cases query with
  | read path => exact remembers.read ⟨files, .read path⟩ rfl
  | isFile path => exact remembers.look ⟨files, .isFile path⟩ rfl
  | isDirectory path => exact remembers.look ⟨files, .isDirectory path⟩ rfl
  | purge =>
    obtain ⟨cache, kept, -⟩ := remembers
    refine nil ?_
    change input.cache.map ReadCache.purge = some {}
    rw [kept]
    rfl

end Remembers

theorem remembers_after (history : List Visit) :
    (after history).Remembers (sincePurge history) := by
  induction history using List.reverseRecOn with
  | nil => exact .nil rfl
  | append_singleton earlier visit ih =>
    rw [after, List.foldl_concat, sincePurge_concat]
    exact ih.visit visit

/-! ## Answers -/

section Answers

variable (history : List Visit) (now : FileView) (path : Path)

/-- The files that answer a query for the kind of a path, and the spelling that is looked up. -/
def answering : FileView × Path := (firstLook path (sincePurge history)).getD (now, path)

theorem readFrom_after : (readFrom now path (after history)).1 =
    (firstRead path (sincePurge history)).elim (now.read path) .ok := by
  obtain ⟨cache, kept, contents, -⟩ := remembers_after history
  simp only [readFrom, view, kept, ReadCache.view, contents]
  cases firstRead path (sincePurge history) <;> rfl

theorem kind_after : ∃ cache, (after history).cache = some cache ∧
    cache.kind now path =
      (answering history now path).1.kind (answering history now path).2 := by
  obtain ⟨cache, kept, -, kinds⟩ := remembers_after history
  refine ⟨cache, kept, ?_⟩
  rw [ReadCache.kind, kinds, answering]
  cases firstLook path (sincePurge history) <;> rfl

theorem isFileIn_after : (isFileIn now path (after history)).1 =
    (answering history now path).1.isFile (answering history now path).2 := by
  obtain ⟨cache, kept, kind⟩ := kind_after history now path
  simp only [isFileIn, view, kept, ReadCache.view, kind, FileView.kind_beq_file]

/-- The answering files are those of a visit, or those of the moment. -/
theorem answering_cases : (∃ visit ∈ sincePurge history, ∃ asked,
      visit.query.look? = some asked ∧ path.same asked = true ∧
        answering history now path = (visit.files, asked)) ∨
    answering history now path = (now, path) := by
  rw [answering]
  cases found : firstLook path (sincePurge history) with
  | none => exact .inr rfl
  | some look =>
    obtain ⟨visit, member, saw⟩ := List.exists_of_findSome?_eq_some found
    obtain ⟨asked, filtered, rfl⟩ := Option.map_eq_some_iff.1 saw
    obtain ⟨looks, same⟩ := Option.filter_eq_some_iff.1 filtered
    exact .inl ⟨visit, member, asked, looks, same, rfl⟩

theorem answering_apart (apart : ∀ files ∈ now :: history.map Visit.files, files.Apart) :
    (answering history now path).1.Apart := by
  rcases answering_cases history now path with ⟨visit, member, asked, -, -, same⟩ | same
  · rw [same]
    refine apart _ (List.mem_cons_of_mem _ (List.mem_map_of_mem ?_))
    exact (List.rtakeWhile_suffix ..).subset member
  · rw [same]
    exact apart now List.mem_cons_self

theorem isDirectoryIn_after (apart : ∀ files ∈ now :: history.map Visit.files, files.Apart) :
    (isDirectoryIn now path (after history)).1 =
      (answering history now path).1.isDirectory (answering history now path).2 := by
  obtain ⟨cache, kept, kind⟩ := kind_after history now path
  simp only [isDirectoryIn, view, kept, ReadCache.view, kind,
    (answering_apart history now path apart).kind_beq_directory]

end Answers

end InputStorage

/-- Nothing changed since the last purge, and the path is answered like its spellings that were
asked about. Paths are remembered by their components, so of several spellings the first one
counts. -/
def Unchanged (history : List Visit) (now : FileView) (path : Path) : Prop :=
  ∀ visit ∈ sincePurge history, visit.files = now ∧
    ∀ asked, visit.query.path? = some asked → path.same asked = true → now.Alike asked path

section Unchanged

variable {history : List Visit} {now : FileView} {path : Path}

theorem Unchanged.read (unchanged : Unchanged history now path) :
    (firstRead path (sincePurge history)).elim (now.read path) .ok = now.read path := by
  cases found : firstRead path (sincePurge history) with
  | none => rfl
  | some content =>
    obtain ⟨visit, member, gave⟩ := List.exists_of_findSome?_eq_some found
    obtain ⟨asked, filtered, content⟩ := Option.bind_eq_some_iff.1 gave
    obtain ⟨reads, same⟩ := Option.filter_eq_some_iff.1 filtered
    obtain ⟨rfl, alike⟩ := unchanged visit member
    have asks : visit.query.path? = some asked := by rw [Query.path?, reads, Option.some_or]
    rw [(alike asked asks same).read] at content
    cases answer : visit.files.read path with
    | error fault => simp [answer, Except.toOption] at content
    | ok other =>
      rw [answer] at content
      exact congrArg Except.ok (Option.some.inj content).symm

theorem Unchanged.answering (unchanged : Unchanged history now path) :
    let found := InputStorage.answering history now path
    found.1.isFile found.2 = now.isFile path ∧
      found.1.isDirectory found.2 = now.isDirectory path := by
  intro found
  rcases InputStorage.answering_cases history now path with
    ⟨visit, member, asked, looks, same, look⟩ | look
  · obtain ⟨rfl, alike⟩ := unchanged visit member
    have asks : visit.query.path? = some asked := by
      rw [Query.path?, Query.read?_of_looks looks, Option.none_or, looks]
    have alike := alike asked asks same
    simp only [found, look]
    exact ⟨alike.isFile, alike.isDirectory⟩
  · simp only [found, look, and_self]

end Unchanged

/-- A file that is read and looked at. -/
def readFile : Path := .of "/a.js"

def visitsOfFile : List Visit :=
  let files := (MemoryFiles.empty.addFile readFile "1".toUTF8).view
  [⟨files, .read readFile⟩, ⟨files, .isFile readFile⟩]

def purgedVisits : List Visit := visitsOfFile ++ [⟨MemoryFiles.empty.view, .purge⟩]

end Bundler
