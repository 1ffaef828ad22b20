import Bundler.Toml.Scalar

/-!
# TOML statements

A document is a list of statements: headers of tables, headers of arrays of
tables, and assignments to dotted keys. `statements?` reads them, or fails where
the text is not well formed. Whether the statements fit together is another
matter.
-/

namespace Bundler.Toml

/-- A value as it is written; inline tables keep their assignments. -/
inductive Term where
  | value (value : Value)
  | array (items : List Term)
  | inline (entries : List (List String × Term))
  deriving Inhabited

inductive Statement where
  | table (path : List String)
  | arrayTable (path : List String)
  | assign (path : List String) (term : Term)

def isBlankChar (c : Char) : Bool := c == ' ' || c == '\t'

def skipSpaces (text : List Char) : List Char := text.dropWhile isBlankChar

/-- A control character that may not stand in a comment or string. -/
def isForbidden (c : Char) : Bool := (c.toNat < 0x20 && c != '\t') || c.toNat == 0x7f

/-- What follows a line break. -/
def lineBreak? : List Char → Option (List Char)
  | '\n' :: rest => some rest
  | '\r' :: '\n' :: rest => some rest
  | _ => none

/-- Skip a comment up to the end of its line. -/
def skipComment? (text : List Char) : Option (List Char) :=
  match text with
  | '#' :: rest =>
    let after := rest.dropWhile fun c => !isForbidden c
    match after with
    | [] => some []
    | _ => if (lineBreak? after).isSome then some after else none
  | _ => some text

/-- Skip the rest of a line, which may only hold a comment. -/
def endLine? (text : List Char) : Option (List Char) :=
  match skipComment? (skipSpaces text) with
  | none => none
  | some [] => some []
  | some rest => lineBreak? rest

/-- Skip blanks, line breaks and comments. -/
def skipLines? : Nat → List Char → Option (List Char)
  | 0, text => some text
  | count + 1, text =>
    let text := skipSpaces text
    match lineBreak? text with
    | some rest => skipLines? count rest
    | none =>
      match text with
      | '#' :: _ => (skipComment? text).bind (skipLines? count)
      | _ => some text

/-! ## Strings -/

/-- The character that `width` hexadecimal digits number, and what follows. -/
def numbered? (width : Nat) (text : List Char) : Option (Char × List Char) :=
  let digits := text.take width
  let number := natOfDigits 16 digits
  if digits.length = width ∧ digits.all isHexDigit ∧ number.isValidChar then
    some (Char.ofNat number, text.drop width)
  else none

/-- The character that an escape stands for, after its backslash. -/
def escape? : List Char → Option (Char × List Char)
  | 'b' :: rest => some ('\x08', rest)
  | 't' :: rest => some ('\t', rest)
  | 'n' :: rest => some ('\n', rest)
  | 'f' :: rest => some ('\x0c', rest)
  | 'r' :: rest => some ('\r', rest)
  | 'e' :: rest => some ('\x1b', rest)
  | '"' :: rest => some ('"', rest)
  | '\\' :: rest => some ('\\', rest)
  | 'x' :: rest => numbered? 2 rest
  | 'u' :: rest => numbered? 4 rest
  | 'U' :: rest => numbered? 8 rest
  | _ => none

/-- The body of a one-line string with escapes, after its opening quote. -/
def basicBody? : Nat → List Char → Option (List Char × List Char)
  | 0, _ => none
  | _, [] => none
  | _ + 1, '"' :: rest => some ([], rest)
  | count + 1, '\\' :: rest => do
    let (c, rest) ← escape? rest
    let (body, rest) ← basicBody? count rest
    some (c :: body, rest)
  | count + 1, c :: rest =>
    if isForbidden c then none
    else do
      let (body, rest) ← basicBody? count rest
      some (c :: body, rest)

/-- The body of a one-line string without escapes, after its opening quote. -/
def literalBody? (text : List Char) : Option (List Char × List Char) :=
  match text.dropWhile fun c => c != '\'' && !isForbidden c with
  | '\'' :: rest => some (text.takeWhile fun c => c != '\'' && !isForbidden c, rest)
  | _ => none

/-- Drop blanks and line breaks. -/
def dropBlankLines : List Char → List Char
  | '\r' :: '\n' :: rest => dropBlankLines rest
  | c :: rest => if isBlankChar c || c == '\n' then dropBlankLines rest else c :: rest
  | [] => []

/-- Blanks up to a line break, and then all blanks and line breaks. -/
def foldedBreak? (text : List Char) : Option (List Char) :=
  (lineBreak? (skipSpaces text)).map dropBlankLines

/-- The body of a string of several lines, which keeps its line breaks as they are
written. Up to two quotes may stand in front of the closing three. -/
def linesBody? (quote : Char) (escapes : Bool) : Nat → List Char → Option (List Char × List Char)
  | 0, _ => none
  | count + 1, text =>
    match text with
    | [] => none
    | c :: rest =>
      if c = quote then
        let run := (text.takeWhile (· == quote)).length
        if run < 3 then do
          let (body, rest) ← linesBody? quote escapes count rest
          some (c :: body, rest)
        else
          let kept := min (run - 3) 2
          some (List.replicate kept quote, text.drop (kept + 3))
      else if c = '\\' ∧ escapes = true then
        match foldedBreak? rest with
        | some rest => linesBody? quote escapes count rest
        | none => do
          let (c, rest) ← escape? rest
          let (body, rest) ← linesBody? quote escapes count rest
          some (c :: body, rest)
      else
        if isForbidden c && (lineBreak? text).isNone then none
        else do
          let (body, rest) ← linesBody? quote escapes count rest
          some (c :: body, rest)

/-- Drop a line break that follows the opening quotes at once. -/
def dropFirstBreak (text : List Char) : List Char := (lineBreak? text).getD text

def quoted? (text : List Char) : Option (String × List Char) :=
  let body : Option (List Char × List Char) :=
    match text with
    | '"' :: '"' :: '"' :: rest => linesBody? '"' true (rest.length + 1) (dropFirstBreak rest)
    | '"' :: rest => basicBody? (rest.length + 1) rest
    | '\'' :: '\'' :: '\'' :: rest =>
      linesBody? '\'' false (rest.length + 1) (dropFirstBreak rest)
    | '\'' :: rest => literalBody? rest
    | _ => none
  body.map fun (chars, rest) => (String.ofList chars, rest)

/-! ## Keys -/

def isBareChar (c : Char) : Bool := c.isAlphanum || c == '-' || c == '_'

/-- One part of a key: a bare word or a quoted text on one line. -/
def keyPart? (text : List Char) : Option (String × List Char) :=
  match text with
  | '"' :: rest =>
    (basicBody? (rest.length + 1) rest).map fun (chars, rest) => (String.ofList chars, rest)
  | '\'' :: rest => (literalBody? rest).map fun (chars, rest) => (String.ofList chars, rest)
  | _ =>
    let word := text.takeWhile isBareChar
    if word.isEmpty then none else some (String.ofList word, text.dropWhile isBareChar)

/-- The parts of a dotted key; blanks may stand around them. -/
def keyParts? : Nat → List Char → Option (List String × List Char)
  | 0, _ => none
  | count + 1, text => do
    let (part, rest) ← keyPart? (skipSpaces text)
    match skipSpaces rest with
    | '.' :: rest => do
      let (parts, rest) ← keyParts? count rest
      some (part :: parts, rest)
    | rest => some ([part], rest)

/-- How deep arrays and inline tables may be nested, and how many parts a key may
have. -/
def nestingLimit : Nat := 80

/-- A dotted key that is not too long. -/
def key? (text : List Char) : Option (List String × List Char) :=
  (keyParts? text.length text).filter fun (parts, _) => parts.length ≤ nestingLimit

/-! ## Values -/

/-- A character that ends a word. -/
def isWordEnd (c : Char) : Bool :=
  isBlankChar c || c == '\n' || c == '\r' || c == '=' || c == ',' || c == '#' || c == '[' ||
    c == ']' || c == '{' || c == '}'

/-- Whether a word may begin with a character. -/
def beginsWord (c : Char) : Bool := !isWordEnd c && c != '"' && c != '\''

/-- Words up to where something else follows, with the blanks between them. -/
def words (text : List Char) : List Char × List Char :=
  let first := text.takeWhile fun c => !isWordEnd c
  let rest := text.drop first.length
  let blanks := rest.takeWhile isBlankChar
  let next := rest.drop blanks.length
  if found : first ≠ [] ∧ blanks ≠ [] ∧ next.head?.any beginsWord then
    have shorter : next.length < text.length := by
      have positive : 0 < first.length := List.length_pos_iff.2 found.1
      have bounded : first.length ≤ text.length := (List.takeWhile_sublist _).length_le
      simp only [next, rest, List.length_drop]
      omega
    let (more, rest) := words next
    (first ++ blanks ++ more, rest)
  else (first, rest)
termination_by text.length
decreasing_by exact shorter

/-- A key of an inline table up to its value. Lines may break on both sides of the
equals sign. -/
def inlineKey? (text : List Char) : Option (List String × List Char) :=
  match key? text with
  | none => none
  | some (path, rest) =>
    match skipLines? rest.length rest with
    | some ('=' :: rest) => (skipLines? rest.length rest).map fun rest => (path, rest)
    | _ => none

mutual

/-- A value that may open `room` more arrays and inline tables inside one another. Every
call takes a character or hands on to one that does, so twice the length of the text
bounds the calls. -/
def term? : Nat → Nat → List Char → Option (Term × List Char)
  | 0, _, _ => none
  | count + 1, room, text =>
    match text, room with
    | '"' :: _, _ => (quoted? text).map fun (text, rest) => (.value (.string text), rest)
    | '\'' :: _, _ => (quoted? text).map fun (text, rest) => (.value (.string text), rest)
    | '[' :: _, 0 => none
    | '{' :: _, 0 => none
    | '[' :: rest, room + 1 =>
      (items? count room rest).map fun (items, rest) => (.array items, rest)
    | '{' :: rest, room + 1 =>
      (entries? count room rest).map fun (entries, rest) => (.inline entries, rest)
    | _, _ =>
      let (found, rest) := words text
      (scalar? found).map fun value => (.value value, rest)

/-- The items of an array up to its closing bracket. -/
def items? : Nat → Nat → List Char → Option (List Term × List Char)
  | 0, _, _ => none
  | count + 1, room, text =>
    match skipLines? text.length text with
    | none => none
    | some (']' :: rest) => some ([], rest)
    | some text =>
      match term? count room text with
      | none => none
      | some (item, rest) =>
        match skipLines? rest.length rest with
        | some (',' :: rest) =>
          (items? count room rest).map fun (items, rest) => (item :: items, rest)
        | some (']' :: rest) => some ([item], rest)
        | _ => none

/-- The assignments of an inline table up to its closing brace. -/
def entries? : Nat → Nat → List Char → Option ((List (List String × Term)) × List Char)
  | 0, _, _ => none
  | count + 1, room, text =>
    match skipLines? text.length text with
    | none => none
    | some ('}' :: rest) => some ([], rest)
    | some text =>
      match inlineKey? text with
      | none => none
      | some (path, rest) =>
        match term? count room rest with
        | none => none
        | some (term, rest) =>
          match skipLines? rest.length rest with
          | some (',' :: rest) =>
            (entries? count room rest).map fun (entries, rest) => ((path, term) :: entries, rest)
          | some ('}' :: rest) => some ([(path, term)], rest)
          | _ => none

end

/-! ## Documents -/

/-- One statement up to the end of its line. -/
def statement? (text : List Char) : Option (Statement × List Char) :=
  match text with
  | '[' :: '[' :: rest =>
    match key? rest with
    | some (path, ']' :: ']' :: rest) => (endLine? rest).map fun rest => (.arrayTable path, rest)
    | _ => none
  | '[' :: rest =>
    match key? rest with
    | some (path, ']' :: rest) => (endLine? rest).map fun rest => (.table path, rest)
    | _ => none
  | _ =>
    match key? text with
    | some (path, '=' :: rest) =>
      match term? (2 * rest.length + 2) nestingLimit (skipSpaces rest) with
      | some (term, rest) => (endLine? rest).map fun rest => (.assign path term, rest)
      | none => none
    | _ => none

/-- All statements; each takes a character, so the length bounds their number. -/
def statementsFrom? : Nat → List Char → Option (List Statement)
  | 0, _ => some []
  | count + 1, text =>
    match skipLines? text.length text with
    | none => none
    | some [] => some []
    | some text =>
      match statement? text with
      | none => none
      | some (statement, rest) => (statementsFrom? count rest).map (statement :: ·)

/-- The statements of a document. A byte-order mark in front is skipped. -/
def statements? (source : String) : Option (List Statement) :=
  let text :=
    match source.toList with
    | '\uFEFF' :: rest => rest
    | text => text
  statementsFrom? (text.length + 1) text

end Bundler.Toml
