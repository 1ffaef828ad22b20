import Bundler.Notice.Filter

/-!
# Lookouts

A lookout turns the file events of one subscription into change sets. It keeps
the events that it has not looked at. The first path that its filter accepts
begins a burst, which is collected until it is due and then becomes one change
set. A closed lookout hears nothing and drops what it holds.
-/

namespace Bundler

/-- What happened in a watched directory. -/
inductive FileEvent where
  | changed (paths : List Path)
  /-- Files were only looked at. -/
  | accessed (paths : List Path)
  deriving DecidableEq

/-- The paths that an event changes. -/
def FileEvent.touched : FileEvent → List Path
  | .changed paths => paths
  | .accessed _ => []

/-- One subscription to file events. -/
structure Lookout where
  /-- Who is told of changes. -/
  session : SessionId
  filter : NoticeFilter
  directories : PathSet
  /-- Events that were not looked at yet, oldest first. -/
  queue : List FileEvent := []
  /-- The paths of the burst under way; none between two bursts. -/
  burst : PathSet := Table.empty
  isOpen : Bool := true

namespace Lookout

def hear (lookout : Lookout) (event : FileEvent) : Lookout :=
  if lookout.isOpen then { lookout with queue := lookout.queue ++ [event] } else lookout

/-- Add the paths of an event that matter to the burst. -/
def collect (lookout : Lookout) (event : FileEvent) : Lookout :=
  { lookout with
    burst := lookout.burst.addAll (event.touched.filter lookout.filter.accepts) }

/-- Look at the oldest event; nothing if there is none. -/
def look? (lookout : Lookout) : Option Lookout :=
  match lookout.queue with
  | [] => none
  | event :: rest => some ({ lookout with queue := rest }.collect event)

/-- Look at everything that was heard. -/
def lookAtAll (lookout : Lookout) : Lookout :=
  lookout.queue.foldl collect { lookout with queue := [] }

/-- Whether touched paths were changed or removed shows when the burst is due. -/
def changesOf (isThere : Path → Bool) (touched : PathSet) : ChangeSet :=
  ChangeSet.ofPaths (touched.keys.filter isThere)
    (touched.keys.filter fun path => !isThere path)

/-- The burst is over: its change set, and the lookout after it. -/
def due? (lookout : Lookout) (isThere : Path → Bool) : Option (ChangeSet × Lookout) :=
  if lookout.burst.isEmpty then none
  else some (changesOf isThere lookout.burst, { lookout with burst := Table.empty })

def close (lookout : Lookout) : Lookout :=
  { lookout with queue := [], burst := Table.empty, isOpen := false }

/-- The lookout as a listing shows it. -/
def listing (lookout : Lookout) : String :=
  "NotifyWatcherHandle \x7b open: " ++ toString lookout.isOpen ++ " \x7d"

end Lookout

end Bundler
