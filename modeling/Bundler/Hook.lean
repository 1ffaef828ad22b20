import Bundler.RunError

/-!
# Hooks

A hook has a name and a list of observers. A call goes through the observers
that were there when it began, in the order of their registration, each one
finished before the next starts, and ends with the first that fails. Observers
only watch (`observeAll`), change a value that is handed on (`adjustAll`), or may
decide, which ends the call as well (`decideAll`). The calls are written for any
monad, so that an observer may itself add observers or call the hook again.
-/

namespace Bundler

/-- An observer and the name it was registered under. -/
structure Tap (ω : Type u) where
  name : String
  observer : ω
  deriving DecidableEq, Repr

/-- A hook with its observers in the order of registration. -/
structure Hook (ω : Type u) where
  name : String
  taps : List (Tap ω) := []
  deriving DecidableEq, Repr

namespace Hook

variable {ω : Type u}

def tap (hook : Hook ω) (name : String) (observer : ω) : Hook ω :=
  { hook with taps := hook.taps ++ [⟨name, observer⟩] }

def isUsed (hook : Hook ω) : Bool := !hook.taps.isEmpty

def tapNames (hook : Hook ω) : List String := hook.taps.map Tap.name

/-- The hook as a listing shows it. -/
def listing (hook : Hook ω) : String :=
  "Hook \x7b name: " ++ Text.quoted hook.name ++ ", taps: " ++ Text.quotedList hook.tapNames ++
    " \x7d"

variable {m : Type → Type v} [Monad m]

/-- Call observers up to the first that fails. -/
def observeAll (hook : String) (call : ω → m (Except String Unit)) :
    List (Tap ω) → m (Except RunError Unit)
  | [] => pure (.ok ())
  | tap :: rest => do
    match ← call tap.observer with
    | .ok () => observeAll hook call rest
    | .error reason => pure (.error (.hook hook tap.name reason))

/-- Hand a value from observer to observer, up to the first that fails. -/
def adjustAll {α : Type} (hook : String) (call : ω → α → m (Except String Unit × α)) :
    List (Tap ω) → α → m (Except RunError Unit × α)
  | [], value => pure (.ok (), value)
  | tap :: rest, value => do
    match ← call tap.observer value with
    | (.ok (), value) => adjustAll hook call rest value
    | (.error reason, value) => pure (.error (.hook hook tap.name reason), value)

/-- Ask observers up to the first that decides or fails. -/
def decideAll {δ : Type} (hook : String) (call : ω → m (Except String (Option δ))) :
    List (Tap ω) → m (Except RunError (Option δ))
  | [] => pure (.ok none)
  | tap :: rest => do
    match ← call tap.observer with
    | .ok none => decideAll hook call rest
    | .ok (some decision) => pure (.ok (some decision))
    | .error reason => pure (.error (.hook hook tap.name reason))

end Hook

end Bundler
