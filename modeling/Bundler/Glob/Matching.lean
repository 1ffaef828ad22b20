import Bundler.Glob

/-!
# Matching patterns

A pattern is matched against the bytes of a text by following all positions that its
tokens can reach: each token takes the positions where it may begin to those where it
may end. `Glob.accepts` says whether the end of the text is reached. As a position is
never kept twice, a match takes no more steps than tokens times bytes.
-/

namespace Bundler.Glob

def utf8 (c : Char) : List UInt8 := c.toString.toUTF8.toList

/-- The bytes that a range of a class admits. A range between characters of
several bytes is taken byte by byte: it runs from the last byte of its low end
to the first byte of its high end. -/
def byteRanges (range : Char × Char) : List (UInt8 × UInt8) :=
  let low := utf8 range.1
  if range.1 = range.2 then low.map fun byte => (byte, byte)
  else
    let high := utf8 range.2
    low.dropLast.map (fun byte => (byte, byte)) ++ [(low.getLastD 0, high.headD 0)] ++
      (high.drop 1).map fun byte => (byte, byte)

def isSlash (byte : UInt8) : Bool := byte == 0x2f

mutual

/-- A token that stands for no text at all: alternatives without content. -/
def isVoid : GlobToken → Bool
  | .choice branches => areVoidBranches branches
  | _ => false

def areVoid : List GlobToken → Bool
  | [] => true
  | token :: rest => isVoid token && areVoid rest

def areVoidBranches : List (List GlobToken) → Bool
  | [] => true
  | branch :: rest => areVoid branch && areVoidBranches rest

end

/-! ## Positions -/

/-- Positions between the bytes of a text, in rising order and each of them once. -/
abbrev Positions := List Nat

namespace Positions

/-- What is reached by taking one byte that `admits` allows. -/
def step (text : Array UInt8) (admits : UInt8 → Bool) (positions : Positions) : Positions :=
  positions.filterMap fun position =>
    if text[position]?.any admits then some (position + 1) else none

/-- What is reached by taking any bytes. -/
def onwards (text : Array UInt8) (positions : Positions) : Positions :=
  match positions with
  | [] => []
  | first :: _ => List.range' first (text.size + 1 - first)

/-- What is reached by taking any bytes that end with a slash. -/
def pastSlash (text : Array UInt8) (positions : Positions) : Positions :=
  step text isSlash (onwards text positions)

def union (some others : Positions) : Positions :=
  (List.merge some others fun one other => one ≤ other).eraseReps

end Positions

open Positions

mutual

/-- Where a token may end that begins at one of the positions. -/
def passToken (text : Array UInt8) (token : GlobToken) (positions : Positions) : Positions :=
  match token with
  | .literal c => (utf8 c).foldl (fun reached byte => step text (· == byte) reached) positions
  | .any => step text (fun _ => true) positions
  | .many => onwards text positions
  | .leadingDirs => union positions (pastSlash text positions)
  | .inside => onwards text (step text isSlash positions)
  | .betweenDirs =>
    let inner := step text isSlash positions
    union inner (pastSlash text inner)
  | .oneOf negated ranges =>
    let bytes := ranges.flatMap byteRanges
    step text (fun byte => bytes.any (fun (low, high) => low ≤ byte && byte ≤ high) != negated)
      positions
  | .choice branches =>
    if areVoidBranches branches then positions else passBranches text branches positions

/-- Where tokens may end that follow one another. -/
def passTokens (text : Array UInt8) (tokens : List GlobToken) (positions : Positions) :
    Positions :=
  match tokens with
  | [] => positions
  | token :: rest => passTokens text rest (passToken text token positions)

/-- Where one of the branches that are not void may end. -/
def passBranches (text : Array UInt8) (branches : List (List GlobToken))
    (positions : Positions) : Positions :=
  match branches with
  | [] => []
  | branch :: rest =>
    let others := passBranches text rest positions
    if areVoid branch then others else union (passTokens text branch positions) others

end

/-- A whole text matches the pattern. -/
def accepts (glob : Glob) (text : String) : Bool :=
  let bytes := text.toUTF8.data
  match glob.tokens with
  | [.leadingDirs] => true
  | tokens => (passTokens bytes tokens [0]).contains bytes.size

end Bundler.Glob
