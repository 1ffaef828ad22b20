import Bundler.Text.Hex

/-!
# String literals of scripts

A string is written between double quotes; quotes, backslashes, controls and line separators are
escaped. `read?` reads a double-quoted literal as a script does, whoever wrote it: the value of a
literal is a sequence of UTF-16 code units, and any text may follow.
-/

namespace Bundler.Source.Literal

/-- One character inside a literal. -/
def encodeChar (c : Char) : List Char :=
  if c = '"' then ['\\', '"']
  else if c = '\\' then ['\\', '\\']
  else if c = '\n' then ['\\', 'n']
  else if c = '\r' then ['\\', 'r']
  else if c = '\t' then ['\\', 't']
  else if c = '\u2028' ∨ c = '\u2029' ∨ c.toNat < 0x20 then
    ['\\', 'u'] ++ Text.hexFixed 4 c.toNat
  else [c]

/-- The literal that stands for a string. -/
def encode (text : String) : String :=
  String.ofList ('"' :: text.toList.flatMap encodeChar ++ ['"'])

/-! ## Reading -/

/-- The code units of a code point: two from U+10000 on. -/
def unitsOfPoint (point : Nat) : List Nat :=
  if point < 0x10000 then [point]
  else [0xd800 + (point - 0x10000) / 0x400, 0xdc00 + (point - 0x10000) % 0x400]

def unitsOf (c : Char) : List Nat := unitsOfPoint c.toNat

/-- A string as a script holds it. -/
def units (text : String) : List Nat := text.toList.flatMap unitsOf

def isLineTerminator (c : Char) : Bool :=
  c == '\n' || c == '\r' || c == '\u2028' || c == '\u2029'

/-- The unit that a letter stands for behind a backslash. -/
def named? : Char → Option Nat
  | 'b' => some 0x08
  | 't' => some 0x09
  | 'n' => some 0x0a
  | 'v' => some 0x0b
  | 'f' => some 0x0c
  | 'r' => some 0x0d
  | _ => none

/-- Exactly `width` hexadecimal digits, after those that made `value`. -/
def digits? (value : Nat) : Nat → List Char → Option (Nat × List Char)
  | 0, text => some (value, text)
  | _ + 1, [] => none
  | width + 1, c :: rest =>
    match Text.hexValue? c with
    | none => none
    | some digit => digits? (value * 16 + digit) width rest

/-- Hexadecimal digits up to a closing brace, after those that made `value`. -/
def braced? (value : Nat) : List Char → Option (Nat × List Char)
  | [] => none
  | c :: rest =>
    if c = '}' then some (value, rest)
    else
      match Text.hexValue? c with
      | none => none
      | some digit => braced? (value * 16 + digit) rest

/-- A code point behind `\u`: four digits, or any number of them in braces. -/
def point? : List Char → Option (List Nat × List Char)
  | '{' :: '}' :: _ => none
  | '{' :: text =>
    match braced? 0 text with
    | none => none
    | some (point, rest) => if point ≤ 0x10ffff then some (unitsOfPoint point, rest) else none
  | text => (digits? 0 4 text).map fun (unit, rest) => ([unit], rest)

/-- An escape behind its backslash. A line terminator goes on with the literal on the next line;
`0` is the only digit that may follow, and no other digit behind it; a character without a meaning
of its own stands for itself. -/
def escape? : List Char → Option (List Nat × List Char)
  | [] => none
  | c :: rest =>
    if c = 'u' then point? rest
    else if c = 'x' then (digits? 0 2 rest).map fun (unit, rest) => ([unit], rest)
    else if c = '0' then if rest.head?.any Char.isDigit then none else some ([0], rest)
    else if c.isDigit then none
    else if c = '\r' ∧ rest.head? = some '\n' then some ([], rest.tail)
    else if isLineTerminator c then some ([], rest)
    else
      match named? c with
      | some unit => some ([unit], rest)
      | none => some (unitsOf c, rest)

/-- A character or an escape inside a literal. A quote and a raw line terminator are none. -/
def element? : List Char → Option (List Nat × List Char)
  | [] => none
  | c :: rest =>
    if c = '\\' then escape? rest
    else if c = '"' ∨ isLineTerminator c = true then none
    else some (unitsOf c, rest)

theorem length_digits? {value width unit : Nat} {text rest : List Char}
    (read : digits? value width text = some (unit, rest)) : rest.length ≤ text.length := by
  induction width generalizing value text with
  | zero =>
    obtain ⟨-, rfl⟩ := Prod.mk.inj (Option.some.inj read)
    exact Nat.le_refl _
  | succ width ih =>
    cases text with
    | nil => cases read
    | cons c text =>
      rw [digits?] at read
      split at read
      · cases read
      · exact Nat.le_succ_of_le (ih read)

theorem length_braced? {value point : Nat} {text rest : List Char}
    (read : braced? value text = some (point, rest)) : rest.length ≤ text.length := by
  induction text generalizing value with
  | nil => cases read
  | cons c text ih =>
    rw [braced?] at read
    split at read
    · obtain ⟨-, rfl⟩ := Prod.mk.inj (Option.some.inj read)
      exact Nat.le_succ _
    · split at read
      · cases read
      · exact Nat.le_succ_of_le (ih read)

theorem length_point? {text rest : List Char} {units : List Nat}
    (read : point? text = some (units, rest)) : rest.length ≤ text.length := by
  unfold point? at read
  split at read
  · cases read
  · split at read
    · cases read
    · next point behind braced =>
      split at read
      · obtain ⟨-, rfl⟩ := Prod.mk.inj (Option.some.inj read)
        exact Nat.le_succ_of_le (length_braced? braced)
      · cases read
  · obtain ⟨⟨unit, behind⟩, digits, same⟩ := Option.map_eq_some_iff.1 read
    obtain ⟨-, rfl⟩ := Prod.mk.inj same
    exact length_digits? digits

theorem length_escape? {text rest : List Char} {units : List Nat}
    (read : escape? text = some (units, rest)) : rest.length ≤ text.length := by
  cases text with
  | nil => cases read
  | cons c text =>
    refine Nat.le_succ_of_le ?_
    rw [escape?] at read
    split at read
    · exact length_point? read
    split at read
    · obtain ⟨⟨unit, behind⟩, digits, same⟩ := Option.map_eq_some_iff.1 read
      obtain ⟨-, rfl⟩ := Prod.mk.inj same
      exact length_digits? digits
    have whole : ∀ {held : List Nat}, some (held, text) = some (units, rest) →
        rest.length ≤ text.length := by
      intro held same
      obtain ⟨-, rfl⟩ := Prod.mk.inj (Option.some.inj same)
      exact Nat.le_refl _
    split at read
    · split at read
      · cases read
      · exact whole read
    split at read
    · cases read
    split at read
    · obtain ⟨-, rfl⟩ := Prod.mk.inj (Option.some.inj read)
      simp
    split at read
    · exact whole read
    split at read
    · exact whole read
    · exact whole read

/-- Whatever is read leaves less to read. -/
theorem length_element? {text rest : List Char} {units : List Nat}
    (read : element? text = some (units, rest)) : rest.length < text.length := by
  cases text with
  | nil => cases read
  | cons c text =>
    refine Nat.lt_succ_of_le ?_
    rw [element?] at read
    split at read
    · exact length_escape? read
    · split at read
      · cases read
      · obtain ⟨-, rfl⟩ := Prod.mk.inj (Option.some.inj read)
        exact Nat.le_refl _

/-- The value of a literal behind its opening quote, and what follows the closing one. -/
def readBody (text : List Char) : Option (List Nat × List Char) :=
  match (element? text).attach with
  | some ⟨(units, rest), _read⟩ =>
    (readBody rest).map fun (more, after) => (units ++ more, after)
  | none =>
    match text with
    | '"' :: rest => some ([], rest)
    | _ => none
termination_by text.length
decreasing_by exact length_element? _read

/-- Read a double-quoted literal at the start of a text. -/
def read? : List Char → Option (List Nat × List Char)
  | '"' :: rest => readBody rest
  | _ => none

/-- Escapes, a continued line and a pair of surrogates. -/
example : read? "\"\\x41\\u\x7b1f600\x7d\\\nq\";".toList =
    some ([0x41, 0xd83d, 0xde00, 0x71], [';']) := by decide +kernel

end Bundler.Source.Literal
