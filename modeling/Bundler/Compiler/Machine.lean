import Bundler.Compiler.Watch
import Bundler.Compiler.World

/-!
# Running programs

An `Environment` gives meaning to the calls and requests of code outside. The
programs of all tasks are run step by step over the shared world and the state of
the environment; a step is one operation, one call or one request. `Machine.step`
lets any task make its next step, so every interleaving of the tasks is a sequence
of steps. `Machine.settle` runs the tasks one after the other, each until it waits
or ends, until all of them wait.
-/

namespace Bundler

/-- The code outside, and the state that it keeps. -/
structure Environment (S : Setting) where
  State : Type
  /-- What a call does. -/
  answer : (call : Call S) → Prog S call.Reply
  /-- What a request does; nothing if it has to wait. -/
  serve : (request : S.Request) → State → Option (S.Answer request × State)

variable {S : Setting}

/-- What becomes of a program in one step. -/
inductive Progress (E : Environment S) (α : Type) where
  | finished (value : α)
  | panicked
  | waiting
  | moved (program : Prog S α) (world : World S) (state : E.State)

/-- The next step of a program that runs as a task. -/
def Prog.step {α : Type} (E : Environment S) (task : TaskId) (preferChanges : Bool)
    (world : World S) (state : E.State) : Prog S α → Progress E α
  | .done value => .finished value
  | .panic => .panicked
  | .op operation next =>
    match world.perform task preferChanges operation with
    | some (reply, world) => .moved (next reply) world state
    | none => .waiting
  | .call outside next => .moved ((E.answer outside).bind next) world state
  | .request wish next =>
    match E.serve wish state with
    | some (answer, state) => .moved (next answer) world state
    | none => .waiting

/-- A job under way. -/
structure Task (S : Setting) where
  id : TaskId
  program : Prog S (Compiler.Next S)

/-- The shared state with all tasks under way. -/
structure Machine (E : Environment S) where
  world : World S := {}
  state : E.State
  tasks : List (Task S) := []

namespace Machine

variable {E : Environment S}

/-- Let the jobs that were spawned begin. -/
def begin (machine : Machine E) : Machine E :=
  { machine with
    world := { machine.world with spawned := [] }
    tasks := machine.tasks ++
      machine.world.spawned.map fun (id, job) => ⟨id, Compiler.program job⟩ }

/-- Replace the program of a task. -/
def replace (machine : Machine E) (id : TaskId) (program : Prog S (Compiler.Next S)) :
    Machine E :=
  { machine with
    tasks := machine.tasks.map fun task => if task.id = id then { task with program } else task }

def remove (machine : Machine E) (id : TaskId) : Machine E :=
  { machine with tasks := machine.tasks.filter fun task => task.id != id }

/-- One step of a task; nothing if it has to wait or is over. -/
def step (machine : Machine E) (id : TaskId) (preferChanges : Bool) : Option (Machine E) :=
  match machine.tasks.find? fun task => task.id == id with
  | none => none
  | some task =>
    match task.program.step E id preferChanges machine.world machine.state with
    | .finished none => some (machine.remove id)
    | .finished (some job) => some (machine.replace id (Compiler.program job))
    | .panicked => some { machine.remove id with world := machine.world.crash id }
    | .waiting => none
    | .moved program world state => some ({ machine with world, state }.replace id program).begin

/-- Let one task run until it waits or ends, for at most `fuel` steps. -/
def poll : Nat → Machine E → TaskId → Machine E
  | 0, machine, _ => machine
  | fuel + 1, machine, id =>
    match machine.step id false with
    | none => machine
    | some machine => poll fuel machine id

/-- The first task that does not have to wait. -/
def ready? (machine : Machine E) : Option TaskId :=
  (machine.tasks.find? fun task => (machine.step task.id false).isSome).map Task.id

/-- Let all tasks run until each of them waits or is over. -/
def settle : Nat → Machine E → Machine E
  | 0, machine => machine
  | fuel + 1, machine =>
    match machine.ready? with
    | none => machine
    | some id => settle fuel (poll fuel machine id)

/-- What became of a program that is run from outside. -/
inductive Outcome (S : Setting) (α : Type) where
  | value (value : α)
  | panicked
  /-- It waits; what is left of it. -/
  | waits (program : Prog S α)

/-- Run a program as far as it goes without waiting. -/
def advance {α : Type} (task : TaskId) : Nat → Machine E → Prog S α → Outcome S α × Machine E
  | 0, machine, program => (.waits program, machine)
  | fuel + 1, machine, program =>
    match program.step E task false machine.world machine.state with
    | .moved program world state =>
      advance task fuel { machine with world, state }.begin program
    | .waiting => (.waits program, machine)
    | .finished value => (.value value, machine)
    | .panicked => (.panicked, { machine with world := machine.world.crash task })

/-- Run a program as a task of its own. Where it waits, the tasks run until they
all wait; if it still waits then, it waits for something that will not happen. -/
def run {α : Type} (fuel : Nat) (machine : Machine E) (program : Prog S α) :
    Outcome S α × Machine E :=
  let task := machine.world.nextTask
  let machine :=
    { machine with world := { machine.world with nextTask := task + 1 } }
  match advance task fuel machine program with
  | (.waits program, machine) => advance task fuel (settle fuel machine) program
  | ended => ended

end Machine

end Bundler
