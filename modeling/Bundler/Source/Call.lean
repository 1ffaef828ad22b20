import Bundler.Text.CharClass

/-!
# Require calls in source text

A source is cut into plain characters and literal calls. A literal call is the
word `require`, not preceded by a word character, with one quoted request in
parentheses; a request holds no quote of its kind, no backslash and no line
feed. Calls do not overlap. `text_pieces` says that the cut loses nothing.
-/

namespace Bundler.Source

/-- A piece of a source: one plain character, or a literal call with its text. -/
inductive Piece where
  | plain (c : Char)
  | call (text : List Char) (request : List Char)
  deriving DecidableEq, Repr

def Piece.text : Piece → List Char
  | .plain c => [c]
  | .call text _ => text

/-- The called name. -/
def keyword : List Char := "require".toList

/-- The rest of a text after a given start. -/
def after? : List Char → List Char → Option (List Char)
  | [], text => some text
  | _ :: _, [] => none
  | c :: rest, first :: text => if c = first then after? rest text else none

def skipBlanks (text : List Char) : List Char := text.dropWhile Text.isBlank

/-- What stands behind the opening parenthesis of a call, blanks skipped. -/
def argument? (text : List Char) : Option (List Char) :=
  match after? keyword text with
  | none => none
  | some rest =>
    match skipBlanks rest with
    | '(' :: rest => some (skipBlanks rest)
    | _ => none

def inRequest (quote c : Char) : Bool := c != quote && c != '\\' && c != '\n'

/-- A quoted request with the closing parenthesis, and what follows. -/
def request? (text : List Char) : Option (List Char × List Char) :=
  match text with
  | [] => none
  | quote :: rest =>
    if quote = '"' ∨ quote = '\'' then
      match rest.dropWhile (inRequest quote) with
      | [] => none
      | c :: rest' =>
        if c = quote then
          match skipBlanks rest' with
          | ')' :: rest'' => some (rest.takeWhile (inRequest quote), rest'')
          | _ => none
        else none
    else none

/-- The request of a literal call at the start of `text`, and what follows. -/
def literalCall? (text : List Char) : Option (List Char × List Char) :=
  (argument? text).bind request?

/-- A call at the start of `text` whose argument is no plain quoted text: its
first character is neither a quote nor a closing parenthesis. -/
def isDynamicCall (text : List Char) : Bool :=
  match argument? text with
  | some (c :: _) => c != '"' && c != '\'' && c != ')'
  | _ => false

/-- A word may start after `before`. -/
def atBoundary (before : Option Char) : Bool := !(before.any Text.isWord)

/-- Cut a source from left to right; `before` is the character in front of it. -/
def piecesAfter (before : Option Char) : List Char → List Piece
  | [] => []
  | c :: text =>
    let whole := c :: text
    match if atBoundary before then literalCall? whole else none with
    | some (request, rest) =>
      let size := whole.length - rest.length
      .call (whole.take size) request :: piecesAfter (some ')') (text.drop (size - 1))
    | none => .plain c :: piecesAfter (some c) text
termination_by text => text.length
decreasing_by
  · simp only [List.length_drop, List.length_cons]; omega
  · simp

def pieces (source : String) : List Piece := piecesAfter none source.toList

/-- Some call in the source computes its request; `before` is the character in
front of it. -/
def hasDynamicCallAfter (before : Option Char) : List Char → Bool
  | [] => false
  | c :: text =>
    (atBoundary before && isDynamicCall (c :: text)) || hasDynamicCallAfter (some c) text

def hasDynamicCall (source : String) : Bool := hasDynamicCallAfter none source.toList

/-- The requests of the literal calls in order. -/
def requests (source : String) : List String :=
  (pieces source).filterMap fun
    | .plain _ => none
    | .call _ request => some (String.ofList request)

/-- The source with each literal call replaced as `replacement` says for its
request. -/
def replaceCalls (source : String) (replacement : String → Option String) : String :=
  String.ofList ((pieces source).flatMap fun
    | .plain c => [c]
    | .call text request =>
      match replacement (String.ofList request) with
      | some text => text.toList
      | none => text)

/-! ## Laws -/

theorem length_after? {start text rest : List Char} (found : after? start text = some rest) :
    rest.length + start.length = text.length := by
  induction start generalizing text with
  | nil => simp [after?] at found; simp [found]
  | cons c start ih =>
    cases text with
    | nil => simp [after?] at found
    | cons first text =>
      simp only [after?] at found
      split at found
      · have := ih found; simp; omega
      · simp at found

theorem length_skipBlanks_le (text : List Char) : (skipBlanks text).length ≤ text.length :=
  (List.dropWhile_suffix _).length_le

theorem length_argument? {text rest : List Char} (found : argument? text = some rest) :
    rest.length < text.length := by
  unfold argument? at found
  split at found
  · simp at found
  · rename_i tail read
    have short := length_after? read
    split at found
    · rename_i inner open_
      have blanks := length_skipBlanks_le tail
      have more := length_skipBlanks_le inner
      rw [open_] at blanks
      simp only [Option.some.injEq] at found
      subst found
      simp only [List.length_cons] at blanks
      omega
    · simp at found

theorem length_request? {text request rest : List Char}
    (found : request? text = some (request, rest)) : rest.length < text.length := by
  unfold request? at found
  split at found
  · simp at found
  · rename_i quote body
    split at found
    · split at found
      · simp at found
      · rename_i c tail dropped
        have shorter := (List.dropWhile_suffix (l := body) (inRequest quote)).length_le
        rw [dropped] at shorter
        split at found
        · split at found
          · rename_i last closed
            have blanks := length_skipBlanks_le tail
            rw [closed] at blanks
            simp only [Option.some.injEq, Prod.mk.injEq] at found
            obtain ⟨_, same⟩ := found
            subst same
            simp only [List.length_cons] at *
            omega
          · simp at found
        · simp at found
    · simp at found

/-- What follows a literal call is shorter than the text that starts with it. -/
theorem length_literalCall? {text request rest : List Char}
    (found : literalCall? text = some (request, rest)) : rest.length < text.length := by
  unfold literalCall? at found
  obtain ⟨argument, read, rest'⟩ := Option.bind_eq_some_iff.1 found
  exact Nat.lt_trans (length_request? rest') (length_argument? read)

/-- Cutting a source loses no character and changes none. -/
theorem text_piecesAfter (before : Option Char) (source : List Char) :
    (piecesAfter before source).flatMap Piece.text = source := by
  fun_induction piecesAfter before source with
  | case1 => rfl
  | case2 before c text whole request rest found size ih =>
    simp only [List.flatMap_cons, Piece.text, ih]
    have shorter : rest.length < whole.length := by
      split at found
      · exact length_literalCall? found
      · simp at found
    obtain ⟨extra, positive⟩ : ∃ extra, size = extra + 1 :=
      ⟨size - 1, by simp only [size]; omega⟩
    rw [positive]
    simp [whole]
  | case3 before c text whole found ih =>
    simp only [List.flatMap_cons, Piece.text, ih]
    rfl

theorem text_pieces (source : String) : (pieces source).flatMap Piece.text = source.toList :=
  text_piecesAfter none source.toList

end Bundler.Source
