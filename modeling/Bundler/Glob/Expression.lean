import Bundler.Glob.FileName
import Bundler.Text.Hex

/-!
# Expressions of patterns

Before a set of patterns is used, those that are neither names, fixed starts or fixed
ends nor bare extensions are turned into expressions of groups, alternatives,
sequences, repetitions and classes. `Glob.expression` is the text of that expression
and `Glob.depth` counts how many of its parts stand inside one another. An expression
that nests too deep cannot be used, although its pattern can be read.
-/

namespace Bundler.Glob

/-! ## Text -/

/-- A character that has a meaning of its own in expressions. -/
def isSpecial (c : Char) : Bool :=
  [ '\\', '.', '+', '*', '?', '(', ')', '|', '[', ']', '{', '}', '^', '$', '#', '&', '-',
    '~' ].contains c

/-- A character that stands for itself: special ones follow a backslash, and those of
several bytes are written byte by byte. -/
def plainText (c : Char) : String :=
  if c.toNat < 0x80 then (if isSpecial c then "\\" else "") ++ c.toString
  else String.join ((utf8 c).map fun byte => "\\x" ++ String.ofList (Text.hexFixed 2 byte.toNat))

def rangeText (range : Char × Char) : String :=
  if range.1 = range.2 then plainText range.1 else plainText range.1 ++ "-" ++ plainText range.2

mutual

def tokenText : GlobToken → String
  | .literal c => plainText c
  | .any => "."
  | .many => ".*"
  | .leadingDirs => "(?:/?|.*/)"
  | .inside => "/.*"
  | .betweenDirs => "(?:/|/.*/)"
  | .oneOf negated ranges =>
    (if negated then "[^" else "[") ++ String.join (ranges.map rangeText) ++ "]"
  | .choice branches =>
    match branchTexts branches with
    | [] => ""
    | texts => "(?:" ++ "|".intercalate texts ++ ")"

def tokensText : List GlobToken → String
  | [] => ""
  | token :: rest => tokenText token ++ tokensText rest

/-- The texts of the branches that are not void. -/
def branchTexts : List (List GlobToken) → List String
  | [] => []
  | branch :: rest =>
    if areVoid branch then branchTexts rest else tokensText branch :: branchTexts rest

end

/-- The text of the expression of a pattern. -/
def expression (glob : Glob) : String :=
  match glob.tokens with
  | [.leadingDirs] => "(?-u)^.*$"
  | tokens => "(?-u)^" ++ tokensText tokens ++ "$"

/-! ## Depth -/

/-- The greatest depth of a usable expression. -/
def depthLimit : Nat := 250

/-- Members of a class that is written byte by byte. -/
def classSize (ranges : List (Char × Char)) : Nat := (ranges.flatMap byteRanges).length

/-- A sequence of several parts is one level deeper than its deepest part. -/
def sequenceDepth (parts deepest : Nat) : Nat := if 2 ≤ parts then deepest + 1 else deepest

mutual

/-- The parts that a token adds to a sequence, and the deepest of them. -/
def tokenShape : GlobToken → Nat × Nat
  | .literal c => ((utf8 c).length, 0)
  | .any => (1, 0)
  | .many => (1, 1)
  | .leadingDirs => (1, 4)
  | .inside => (2, 1)
  | .betweenDirs => (1, 4)
  | .oneOf _ ranges => (1, if 2 ≤ classSize ranges then 2 else 1)
  | .choice branches =>
    match branchesShape branches with
    | (0, _) => (0, 0)
    | (count, deepest) => (1, 1 + sequenceDepth count deepest)

/-- The parts of a sequence, and the deepest of them. -/
def tokensShape : List GlobToken → Nat × Nat
  | [] => (0, 0)
  | token :: rest =>
    let (parts, depth) := tokenShape token
    let (others, deepest) := tokensShape rest
    (parts + others, max depth deepest)

/-- The branches that are not void, and the deepest of them. -/
def branchesShape : List (List GlobToken) → Nat × Nat
  | [] => (0, 0)
  | branch :: rest =>
    let (count, deepest) := branchesShape rest
    match tokensShape branch with
    | (0, _) => (count, deepest)
    | (parts, depth) => (count + 1, max (sequenceDepth parts depth) deepest)

end

/-- The depth of the expression of a pattern, which is a sequence of all its tokens
between a start and an end. -/
def depth (glob : Glob) : Nat := 1 + (tokensShape glob.tokens).2

/-- The pattern nests too deep to be used. -/
def isTooDeep (glob : Glob) : Bool := depthLimit < glob.depth

/-! ## Sets of patterns -/

/-- A fixed text, and then anything. -/
def isFixedStart (tokens : List GlobToken) : Bool :=
  match tokens.reverse with
  | .many :: start => !start.isEmpty && areLiterals start
  | .inside :: start => areLiterals start
  | _ => false

/-- The pattern needs an expression. -/
def needsExpression (glob : Glob) : Bool :=
  !(isName glob.tokens || isBareExtension glob.tokens || isFixedStart glob.tokens ||
    isFixedEnd glob.tokens)

end Glob

/-- Why patterns cannot be used together. -/
inductive GlobSetError where
  /-- An expression that is made usable on its own nests too deep. -/
  | tooDeepAlone (expression : String)
  /-- An expression nests too deep; `position` counts those that are made usable with it. -/
  | tooDeepAt (position : Nat)
  deriving DecidableEq, Repr

def GlobSetError.message : GlobSetError → String
  | .tooDeepAlone expression =>
    "error parsing glob '" ++ expression ++ "': error parsing pattern 0"
  | .tooDeepAt position => "error parsing pattern " ++ toString position

namespace Glob

/-- Whether patterns can be used together. Expressions that end with an extension are
made usable first, each on its own; the others all at once. -/
def checkSet (globs : List Glob) : Except GlobSetError Unit :=
  let (alone, together) :=
    (globs.filter needsExpression).partition fun glob => endsWithExtension glob.tokens
  match alone.find? isTooDeep, together.findIdx? isTooDeep with
  | some glob, _ => .error (.tooDeepAlone glob.expression)
  | none, some position => .error (.tooDeepAt position)
  | none, none => .ok ()

end Glob

end Bundler
