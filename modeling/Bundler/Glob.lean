/-!
# Glob patterns

A pattern is read into tokens, which stand for bytes of a whole path. `?` stands for
one byte and `*` for any bytes, slashes included; `**` between slashes stands for any
directories. Brackets hold a class, braces alternatives, and a backslash takes the
next character as it is.
-/

namespace Bundler

/-- A piece of a pattern. -/
inductive GlobToken where
  | literal (c : Char)
  /-- One byte. -/
  | any
  /-- Any bytes. -/
  | many
  /-- Nothing, a slash, or anything up to a slash: `**` at the start. -/
  | leadingDirs
  /-- A slash and anything after it: `**` at the end. -/
  | inside
  /-- A slash, or anything between two slashes: `**` in the middle. -/
  | betweenDirs
  | oneOf (negated : Bool) (ranges : List (Char × Char))
  | choice (branches : List (List GlobToken))
  deriving Repr, Inhabited

/-- Why a text is no pattern. -/
inductive GlobError where
  | unclosedClass
  | reversedRange (low high : Char)
  | unopenedChoice
  | unclosedChoice
  | danglingEscape
  deriving DecidableEq, Repr

def GlobError.reason : GlobError → String
  | .unclosedClass => "unclosed character class; missing ']'"
  | .reversedRange low high => s!"invalid range; '{low}' > '{high}'"
  | .unopenedChoice =>
    "unopened alternate group; missing '\x7b' (maybe escape '\x7d' with '[\x7d]'?)"
  | .unclosedChoice =>
    "unclosed alternate group; missing '\x7d' (maybe escape '\x7b' with '[\x7b]'?)"
  | .danglingEscape => "dangling '\\'"

/-- The message about a faulty pattern. -/
def GlobError.message (pattern : String) (error : GlobError) : String :=
  "error parsing glob '" ++ pattern ++ "': " ++ error.reason

/-- A pattern as its tokens. -/
structure Glob where
  tokens : List GlobToken
  deriving Repr

namespace Glob

/-! ## Reading -/

/-- A pattern while it is read. -/
structure Draft where
  /-- The branch that grows, its latest token first. -/
  branch : List GlobToken := []
  /-- The branches in front of it in the same alternatives, the latest first. -/
  finished : List (List GlobToken) := []
  /-- The branch and the finished branches around each open brace, the innermost first. -/
  around : List (List GlobToken × List (List GlobToken)) := []
  /-- The last character read. -/
  last : Option Char := none

namespace Draft

def push (draft : Draft) (token : GlobToken) : Draft :=
  { draft with branch := token :: draft.branch }

/-- Replace the latest token by what `change` makes of it. -/
def replaceLatest (draft : Draft) (change : GlobToken → GlobToken) : Draft :=
  match draft.branch with
  | token :: branch => { draft with branch := change token :: branch }
  | [] => draft

def passed (draft : Draft) (c : Char) : Draft := { draft with last := some c }

/-- A brace is open. -/
def isInChoice (draft : Draft) : Bool := !draft.around.isEmpty

def openChoice (draft : Draft) : Draft :=
  { draft with
    branch := []
    finished := []
    around := (draft.branch, draft.finished) :: draft.around }

def closeChoice (draft : Draft) : Except GlobError Draft :=
  match draft.around with
  | [] => .error .unopenedChoice
  | (branch, finished) :: around =>
    let branches := (draft.branch :: draft.finished).reverse.map List.reverse
    .ok { draft with branch := .choice branches :: branch, finished, around }

def nextBranch (draft : Draft) : Draft :=
  if draft.isInChoice then
    { draft with branch := [], finished := draft.branch :: draft.finished }
  else draft.push (.literal ',')

end Draft

/-- The members of a class up to its closing bracket, and what follows it.
`open?` says that a `-` waits for the end of a range; `members` has the latest
first. -/
def readMembers (first open? : Bool) (members : List (Char × Char)) :
    List Char → Except GlobError (List (Char × Char) × List Char)
  | [] => .error .unclosedClass
  | c :: rest =>
    if c = ']' && !first then
      .ok ((if open? then ('-', '-') :: members else members).reverse, rest)
    else if c = '-' && !first && !open? then readMembers false true members rest
    else if open? then
      match members with
      | (low, _) :: others =>
        if c < low then .error (.reversedRange low c)
        else readMembers false false ((low, c) :: others) rest
      | [] => readMembers false false [(c, c)] rest
    else readMembers false false ((c, c) :: members) rest

/-- Read the two stars that come before `rest`; `before` is the character in
front of them. -/
def readDoubleStar (draft : Draft) (before : Option Char) (rest : List Char) :
    Draft × List Char :=
  let plain := ((draft.push .many).push .many, rest)
  if draft.branch.isEmpty then
    match rest with
    | [] => (draft.push .leadingDirs, [])
    | '/' :: rest => ((draft.push .leadingDirs).passed '/', rest)
    | _ => plain
  else if before != some '/' &&
      (!draft.isInChoice || (before != some ',' && before != some '{')) then plain
  else
    let place (token : GlobToken) : GlobToken → GlobToken
      | .leadingDirs => .leadingDirs
      | .inside => .inside
      | _ => token
    match rest with
    | [] => (draft.replaceLatest (place .inside), [])
    | '/' :: rest => ((draft.replaceLatest (place .betweenDirs)).passed '/', rest)
    | c :: _ =>
      if (c = ',' || c = '}') && draft.isInChoice then
        (draft.replaceLatest (place .inside), rest)
      else plain

/-- Read the characters of a pattern. Every step takes at least one of them, so
their number bounds the steps. -/
def readAll : Nat → Draft → List Char → Except GlobError Draft
  | _, draft, [] => .ok draft
  | 0, draft, _ => .ok draft
  | count + 1, draft, c :: rest =>
    let before := draft.last
    let next := draft.passed c
    match c with
    | '?' => readAll count (next.push .any) rest
    | '*' =>
      match rest with
      | '*' :: rest =>
        let (draft, rest) := readDoubleStar next before rest
        readAll count draft rest
      | _ => readAll count (next.push .many) rest
    | '[' =>
      let (negated, body) :=
        match rest with
        | '!' :: body => (true, body)
        | '^' :: body => (true, body)
        | _ => (false, rest)
      match readMembers true false [] body with
      | .error error => .error error
      | .ok (ranges, rest) => readAll count ((next.push (.oneOf negated ranges)).passed ']') rest
    | '{' => readAll count next.openChoice rest
    | '}' =>
      match next.closeChoice with
      | .error error => .error error
      | .ok draft => readAll count draft rest
    | ',' => readAll count next.nextBranch rest
    | '\\' =>
      match rest with
      | [] => .error .danglingEscape
      | escaped :: rest => readAll count ((next.push (.literal escaped)).passed escaped) rest
    | c => readAll count (next.push (.literal c)) rest

def parse (pattern : String) : Except GlobError Glob :=
  match readAll pattern.length {} pattern.toList with
  | .error error => .error error
  | .ok draft => if draft.isInChoice then .error .unclosedChoice else .ok ⟨draft.branch.reverse⟩

end Glob

end Bundler
