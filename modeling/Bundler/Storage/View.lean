import Bundler.Storage.Fault

/-!
# File views and inquiries

A `FileView` is what can be seen of a file system at one moment. An `Inquiry`
is a computation that may ask which paths are files and what they hold; it is
answered by a view, or run against any store that changes as it is asked.
`Inquiry.answer_congr` says that an answer depends only on the facts asked for.
-/

namespace Bundler

/-- The files and directories to be seen at one moment. -/
structure FileView where
  isFile : Path → Bool
  isDirectory : Path → Bool
  read : Path → Except FileFault ByteArray

/-- A computation that asks about files. -/
inductive Inquiry (α : Type) where
  | done (value : α)
  | isFile (path : Path) (next : Bool → Inquiry α)
  | read (path : Path) (next : Except FileFault ByteArray → Inquiry α)

namespace Inquiry

variable {α β : Type}

def bind : Inquiry α → (α → Inquiry β) → Inquiry β
  | done value, next => next value
  | isFile path rest, next => isFile path fun found => bind (rest found) next
  | read path rest, next => read path fun content => bind (rest content) next

instance : Monad Inquiry where
  pure := done
  bind := bind

/-- The result of an inquiry in a view that does not change. -/
def answer (view : FileView) : Inquiry α → α
  | done value => value
  | isFile path next => answer view (next (view.isFile path))
  | read path next => answer view (next (view.read path))

/-- Run an inquiry against a store of any kind. -/
def run {m : Type → Type} [Monad m] (askIsFile : Path → m Bool)
    (askRead : Path → m (Except FileFault ByteArray)) : Inquiry α → m α
  | done value => pure value
  | isFile path next => askIsFile path >>= fun found => run askIsFile askRead (next found)
  | read path next => askRead path >>= fun content => run askIsFile askRead (next content)

/-- A fact that an inquiry asked for. -/
inductive Question where
  | isFile (path : Path)
  | read (path : Path)
  deriving DecidableEq, Repr

/-- The facts that an inquiry asks for in a view, in order. -/
def questions (view : FileView) : Inquiry α → List Question
  | done _ => []
  | isFile path next => .isFile path :: questions view (next (view.isFile path))
  | read path next => .read path :: questions view (next (view.read path))

/-- Two views give the same answer to a question. -/
def Question.Agree (left right : FileView) : Question → Prop
  | .isFile path => left.isFile path = right.isFile path
  | .read path => left.read path = right.read path

@[simp] theorem answer_done (view : FileView) (value : α) : answer view (done value) = value := rfl

@[simp] theorem answer_pure (view : FileView) (value : α) :
    answer view (pure value : Inquiry α) = value := rfl

@[simp] theorem answer_bind (view : FileView) (inquiry : Inquiry α) (next : α → Inquiry β) :
    answer view (inquiry >>= next) = answer view (next (answer view inquiry)) := by
  change answer view (bind inquiry next) = _
  induction inquiry with
  | done value => rfl
  | isFile path rest ih => exact ih _
  | read path rest ih => exact ih _

/-- An answer depends only on the facts that the inquiry asks for. -/
theorem answer_congr {left right : FileView} (inquiry : Inquiry α)
    (agree : ∀ question ∈ questions left inquiry, question.Agree left right) :
    answer right inquiry = answer left inquiry := by
  induction inquiry with
  | done value => rfl
  | isFile path next ih =>
    have same : left.isFile path = right.isFile path :=
      agree (.isFile path) (by simp [questions])
    simp only [answer, ← same]
    exact ih _ fun question member => agree question (by simp [questions, member])
  | read path next ih =>
    have same : left.read path = right.read path := agree (.read path) (by simp [questions])
    simp only [answer, ← same]
    exact ih _ fun question member => agree question (by simp [questions, member])

/-- Ask whether a path is a file. -/
def askIsFile (path : Path) : Inquiry Bool := isFile path done

/-- Ask for the content of a file. -/
def askRead (path : Path) : Inquiry (Except FileFault ByteArray) := read path done

end Inquiry

end Bundler
