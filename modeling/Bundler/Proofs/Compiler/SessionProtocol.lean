import Bundler.Proofs.ChangeSets
import Bundler.Proofs.Compiler.Discipline
import Bundler.Proofs.Compiler.Visitors

/-!
# The protocol of sessions

A driver keeps a `Book`: what it has taken in since a run last took its changes, which
callbacks it owes, and where in a run it is. The book is read off the events of the driver
alone. `Standing` is the book of a task, if it drives a session, with the compilers that it has
a run of under way. `protocol` is the discipline of all tasks: a session is opened by one task
and handed to one driver, only that driver takes from the queues of the session, a run takes
exactly what the book has, and callbacks are called when and as often as the book says.
-/

namespace Bundler

variable {S : Setting}

/-! ## What a driver takes in -/

/-- What a driver was told since a run last took its changes. -/
structure Intake where
  /-- The change sets, in the order in which they came. -/
  sets : List ChangeSet := []
  /-- A run was asked for by an invalidate. -/
  invalidated : Bool := false

namespace Intake

/-- All change sets in one, the later ones folded into the earlier ones. -/
def merged (intake : Intake) : ChangeSet := intake.sets.foldl ChangeSet.merge ChangeSet.empty

/-- There is a reason for a run. -/
def calls (intake : Intake) : Bool :=
  intake.invalidated || intake.sets.any fun changes => !changes.isEmpty

def receive (intake : Intake) (changes : ChangeSet) : Intake :=
  { intake with sets := intake.sets ++ [changes] }

@[simp]
theorem merged_receive (intake : Intake) (changes : ChangeSet) :
    (intake.receive changes).merged = intake.merged.merge changes := by
  simp [merged, receive]

@[simp]
theorem calls_receive (intake : Intake) (changes : ChangeSet) :
    (intake.receive changes).calls = (intake.calls || !changes.isEmpty) := by
  simp [calls, receive, Bool.or_assoc]

end Intake

/-! ## Books -/

/-- Where a driver is. -/
inductive Place where
  /-- Between two runs. -/
  | between
  /-- A run has taken its changes. -/
  | beginning
  /-- The phases of the run were set going. -/
  | working
  /-- The handler was called, and no observer of `after_done`. -/
  | handled
  /-- Observers of `after_done` are called. -/
  | ending
  /-- The session is closed. -/
  | shut
  deriving DecidableEq

/-- A run is under way. -/
def Place.inRun : Place → Bool
  | between => false
  | shut => false
  | _ => true

/-- What the events of a driver say about its session. -/
structure Book (S : Setting) where
  session : SessionId
  compiler : CompilerId
  place : Place := .between
  /-- What has come since a run last took its changes. -/
  pending : Intake := {}
  /-- What each of the runs took, the latest run last. -/
  runs : List Intake := []
  /-- The change set that was handed to the session for a run that is about to take it. -/
  announced : Option ChangeSet := none
  /-- All signals that were taken. -/
  taken : List (Signal S) := []
  /-- A close signal was taken, or the handle was seen to be dropped. -/
  closing : Bool := false
  /-- Callbacks of invalidates that wait for the next run. -/
  waiting : List S.Callback := []
  /-- Callbacks that the run under way has to call yet. -/
  current : List S.Callback := []
  /-- Callbacks of closes. -/
  closers : List S.Callback := []
  /-- Callbacks that were called by runs. -/
  answered : List S.Callback := []
  /-- Callbacks that were called when the session was closed. -/
  dismissed : List S.Callback := []

def Signal.callback : Signal S → S.Callback
  | .invalidate callback => callback
  | .close callback => callback

namespace Book

/-- A signal was taken. -/
def signal (book : Book S) (signal : Signal S) : Book S :=
  match signal with
  | .invalidate callback =>
    { book with
      taken := book.taken ++ [signal]
      waiting := book.waiting ++ [callback]
      pending := { book.pending with invalidated := true } }
  | .close callback =>
    { book with
      taken := book.taken ++ [signal]
      closers := book.closers ++ [callback]
      closing := true }

/-- A change set was taken. -/
def receive (book : Book S) (changes : ChangeSet) : Book S :=
  { book with pending := book.pending.receive changes }

def wake (book : Book S) : Wake S → Book S
  | .signal signal => book.signal signal
  | .changes changes => book.receive changes
  | .gone => { book with closing := true }

/-- Signals were taken, and the handle was looked at. -/
def drain (book : Book S) (signals : List (Signal S)) (gone : Bool) : Book S :=
  let book := signals.foldl signal book
  { book with closing := book.closing || gone }

/-- A run takes its changes and its callbacks. -/
def begin (book : Book S) : Book S :=
  { book with
    place := .beginning
    runs := book.runs ++ [book.pending]
    pending := {}
    announced := none
    current := book.waiting
    waiting := [] }

/-- The run is over, if it is one of this compiler. -/
def release (book : Book S) (compiler : CompilerId) : Book S :=
  if book.compiler = compiler ∧ book.place.inRun = true then { book with place := .between }
  else book

/-- What an operation of the driver adds to its book. -/
def after (book : Book S) : (operation : Op S) → operation.Reply → Book S
  | .await _, wake => book.wake wake
  | .takeSignals _, (signals, gone) => book.drain signals gone
  | .takeChanges _, some changes => book.receive changes
  | .setLastChange _ changes, _ => { book with announced := some changes }
  | .setChanges _ _, _ => book.begin
  | .spawn (.watchPhases _), _ => { book with place := .working }
  | .release compiler, _ => book.release compiler
  | .shut _, left => { left.foldl signal book with place := .shut }
  | _, _ => book

/-- The callbacks that have to be called now, the first one first. -/
def owed (book : Book S) : List S.Callback :=
  match book.place with
  | .handled => book.current
  | .shut => book.closers ++ book.waiting
  | _ => []

/-- The first callback that is owed is called. -/
def settle (book : Book S) (callback : S.Callback) : Book S :=
  match book.place, book.closers with
  | .handled, _ =>
    { book with current := book.current.tail, answered := book.answered ++ [callback] }
  | _, [] => { book with waiting := book.waiting.tail, dismissed := book.dismissed ++ [callback] }
  | _, _ :: rest => { book with closers := rest, dismissed := book.dismissed ++ [callback] }

/-- What a call of the driver adds to its book. -/
def during (book : Book S) : Call S → Book S
  | .handle _ _ => { book with place := .handled }
  | .notify callback => book.settle callback
  | .observe compiler _ (.afterDone _) =>
    if book.compiler = compiler ∧ book.place.inRun = true then { book with place := .ending }
    else book
  | _ => book

/-- A run may take these changes. -/
structure Begins (book : Book S) (changes : ChangeSet) : Prop where
  place : book.place = .between
  current : book.current = []
  closing : book.closing = false
  merged : changes = book.pending.merged
  announced : book.announced = if changes.isEmpty then none else some changes
  reason : book.runs ≠ [] → book.pending.calls = true

/-- The driver may take what is queued: it is between two runs, or a run has called all that
waited for it. -/
structure Listens (book : Book S) : Prop where
  place : book.place = .between ∨ book.place = .handled
  announced : book.announced = none
  current : book.current = []

/-- The driver has nothing to do but to wait. -/
structure Rests (book : Book S) : Prop where
  place : book.place = .between
  announced : book.announced = none
  closing : book.closing = false
  ran : book.runs ≠ []
  calls : book.pending.calls = false

/-- The observers of `after_done` may be called, and the run may be ended. -/
def Finishes (book : Book S) (compiler : CompilerId) : Prop :=
  book.compiler = compiler → book.place.inRun = true →
    (book.place = .handled ∨ book.place = .ending) ∧ book.current = []

end Book

/-! ## Standings -/

/-- How far a task is with what it starts. -/
inductive Opening where
  /-- It has the compiler for a run. -/
  | called (compiler : CompilerId)
  /-- It has the compiler for a session. -/
  | admitted (compiler : CompilerId)
  /-- It has opened the session, which has no driver yet. -/
  | opened (compiler : CompilerId) (session : SessionId)
  deriving DecidableEq

/-- What a task is in the middle of. -/
structure Standing (S : Setting) where
  /-- The compilers that it has a run of under way, the latest first. -/
  holds : List CompilerId := []
  opening : Option Opening := none
  /-- A callback that was turned away by a session and has to be called at once. -/
  refused : Option S.Callback := none
  /-- The book of a driver. -/
  book : Option (Book S) := none

namespace Standing

/-- The task drives a session, and its book says something. -/
def Drives (standing : Standing S) (session : SessionId) (reading : Book S → Prop) : Prop :=
  ∃ book, standing.book = some book ∧ book.session = session ∧ reading book

/-- Code outside may be called: nothing is half begun, and the run of the book has its
compiler. -/
structure Steady (standing : Standing S) : Prop where
  opening : standing.opening = none
  held : ∀ book, standing.book = some book → book.place.inRun = true →
    book.compiler ∈ standing.holds

/-- What a task may do when it owes no callback that was turned away. -/
def Permits (standing : Standing S) : Op S → Prop
  | .shift _ .beginRun => standing.opening = none
  | .shift _ .beginWatch => standing.opening = none
  | .acquire compiler => standing.opening = some (.called compiler) ∨
    standing.opening = none ∧ ∃ book, standing.book = some book ∧ book.compiler = compiler
  | .openSession compiler => standing.opening = some (.admitted compiler)
  | .createCompiler record => record.owner = none
  | .release compiler =>
    compiler ∈ standing.holds ∧ ∀ book, standing.book = some book → book.Finishes compiler
  | .setChanges compiler changes =>
    compiler ∈ standing.holds ∧
      ∀ book, standing.book = some book → book.compiler = compiler ∧ book.Begins changes
  | .spawn (.run compiler _) => standing.opening = some (.called compiler)
  | .spawn (.phases _) => standing.book = none
  | .spawn (.watchPhases compiler) =>
    ∃ book, standing.book = some book ∧ book.compiler = compiler ∧ book.place = .beginning
  | .spawn (.drive stage driver) =>
    standing.opening = some (.opened driver.compiler driver.session) ∧ stage = .waiting ∧
      driver = { session := driver.session, compiler := driver.compiler,
                 options := driver.options, handler := driver.handler }
  | .await session => standing.Drives session Book.Rests
  | .takeSignals session => standing.Drives session Book.Listens
  | .takeChanges session => standing.Drives session Book.Listens
  | .setLastChange session changes => standing.Drives session fun book =>
    book.announced = none ∧ book.place = .between ∧ book.closing = false ∧
      changes = book.pending.merged ∧ changes.isEmpty = false
  | .shut session => standing.Drives session fun book =>
    (book.place = .between ∨ book.place = .handled) ∧ book.current = [] ∧ book.closing = true
  | .leave session => standing.Drives session fun book =>
    book.place = .shut ∧ book.closers = [] ∧ book.waiting = []
  | _ => True

def Allows (standing : Standing S) (operation : Op S) : Prop :=
  standing.refused = none ∧ standing.Permits operation

/-- No task begins a run of a compiler that it has a run of under way. -/
def Expects (standing : Standing S) : (operation : Op S) → operation.Reply → Prop
  | .acquire compiler, _ => compiler ∉ standing.holds
  | _, _ => True

def holdsAfter (standing : Standing S) : Op S → List CompilerId
  | .acquire compiler => compiler :: standing.holds
  | .release compiler => standing.holds.erase compiler
  | _ => standing.holds

def openingAfter (standing : Standing S) : (operation : Op S) → operation.Reply → Option Opening
  | .shift compiler .beginRun, true => some (.called compiler)
  | .shift compiler .beginWatch, true => some (.admitted compiler)
  | .openSession compiler, session => some (.opened compiler session)
  | .acquire _, _ => none
  | .spawn (.run _ _), _ => none
  | .spawn (.drive _ _), _ => none
  | _, _ => standing.opening

def refusedAfter (standing : Standing S) : (operation : Op S) → operation.Reply →
    Option S.Callback
  | .send _ signal, false => some signal.callback
  | _, _ => standing.refused

def after (standing : Standing S) (operation : Op S) (reply : operation.Reply) : Standing S where
  holds := standing.holdsAfter operation
  opening := standing.openingAfter operation reply
  refused := standing.refusedAfter operation reply
  book := standing.book.map fun book => book.after operation reply

/-- A call that a task may make when it owes no callback that was turned away. -/
def PermitsCall (standing : Standing S) : Call S → Prop
  | .handle _ _ => ∃ book, standing.book = some book ∧ book.place = .working
  | .notify callback => ∃ book, standing.book = some book ∧ book.owed.head? = some callback
  | .observe compiler _ (.afterDone _) =>
    ∀ book, standing.book = some book → book.Finishes compiler
  | .observe compiler _ .watchClose =>
    ∃ book, standing.book = some book ∧ book.compiler = compiler ∧ book.place = .shut ∧
      book.dismissed = []
  | _ => True

/-- The call of a callback that was turned away. -/
def MakesUp (standing : Standing S) : Call S → Prop
  | .notify callback => standing.refused = some callback
  | _ => False

def AllowsCall (standing : Standing S) (outside : Call S) : Prop :=
  standing.Steady ∧
    (standing.MakesUp outside ∨ standing.refused = none ∧ standing.PermitsCall outside)

def duringCall (standing : Standing S) (outside : Call S) : Standing S :=
  match standing.refused with
  | some _ => { standing with refused := none }
  | none => { standing with book := standing.book.map fun book => book.during outside }

/-- What a job begins with. -/
def entry : Job S → Standing S
  | .run compiler _ => { opening := some (.called compiler) }
  | .drive _ driver =>
    { book := some { session := driver.session, compiler := driver.compiler } }
  | _ => {}

end Standing

/-- A driver and its book say the same. -/
structure Book.Matches (book : Book S) (driver : Driver S) : Prop where
  session : book.session = driver.session
  compiler : book.compiler = driver.compiler
  closing : book.closing = driver.closing
  waiting : book.waiting = driver.pendingCallbacks
  closers : book.closers = driver.closeCallbacks
  current : book.current = []
  announced : book.announced = none
  dismissed : book.dismissed = []
  changes : driver.closing = false → driver.pendingChanges = book.pending.merged
  requested : driver.closing = false →
    driver.runRequested = (book.pending.calls || book.runs.isEmpty)

namespace Standing

/-- A standing in which a task may go on as a job. -/
def Fits : Job S → Standing S → Prop
  | .run compiler _, standing => standing = { opening := some (.called compiler) }
  | .drive (.drainingAfter _) driver, standing =>
    ∃ book, book.Matches driver ∧ book.place = .handled ∧ book.runs ≠ [] ∧
      standing = { holds := [driver.compiler], book := some book }
  | .drive _ driver, standing =>
    ∃ book, book.Matches driver ∧ book.place = .between ∧ standing = { book := some book }
  | _, standing => standing = {}

/-- A task may end when it owes nothing, a driver only after it has closed its session. -/
structure Ends (standing : Standing S) : Prop where
  refused : standing.refused = none
  closed : ∀ book, standing.book = some book →
    book.place = .shut ∧ book.closers = [] ∧ book.waiting = []

end Standing

/-- The discipline of sessions. -/
def protocol (S : Setting) : Discipline S where
  Status := Standing S
  idle := {}
  entry := Standing.entry
  fits := Standing.Fits
  ends := Standing.Ends
  allows := Standing.Allows
  expects := Standing.Expects
  after := Standing.after
  allowsCall := Standing.AllowsCall
  during := Standing.duringCall
  mayPanic _ := True

end Bundler
