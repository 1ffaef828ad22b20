import Bundler.Text.Shortest

/-!
# Written numbers

A number is kept as the decimal that was written. It counts as the nearest
binary number of 53 bits, which decides whether it is zero and how a listing
shows it.
-/

namespace Bundler.Text

/-- A number as it was written. -/
inductive Decimal where
  | notANumber
  | infinite (negative : Bool)
  /-- `digits` times ten to the power `exponent`. -/
  | finite (negative : Bool) (digits : Nat) (exponent : Int)
  deriving DecidableEq, Repr, Inhabited

namespace Decimal

def ofInt (value : Int) : Decimal := .finite (value < 0) value.natAbs 0

/-- What a decimal rounds to. Powers of ten far outside the range of binary
numbers are decided without being computed. -/
inductive Rounded where
  | zero
  | huge
  | binary (value : Binary)
  deriving DecidableEq, Repr

def rounded (digits : Nat) (exponent : Int) : Rounded :=
  if digits = 0 ∨ exponent + digitCount digits < -400 then .zero
  else if 400 < exponent then .huge
  else
    let (n, d) := scaled 10 digits 1 exponent
    match nearest? n d with
    | none => .huge
    | some value => if value.mantissa = 0 then .zero else .binary value

/-- A number other than zero. -/
def isNonzero : Decimal → Bool
  | notANumber => false
  | infinite _ => true
  | finite _ digits exponent => rounded digits exponent != .zero

/-- Shortest digits in positional notation from 0.0001 up to 10^16, and with a
power of ten outside that range. -/
def shortestText (value : Binary) : String :=
  let (digits, power) := shortest value
  let (digits, power) := trimZeros 20 digits power
  let leading : Int := power + digitCount digits - 1
  if -4 ≤ leading ∧ leading < 16 then positional digits power
  else
    match (toString digits).toList with
    | [] => ""
    | first :: rest =>
      String.ofList (first :: (if rest.isEmpty then [] else '.' :: rest)) ++ "e" ++
        toString leading

def sign (negative : Bool) : String := if negative then "-" else ""

/-- The number as a listing shows it. -/
def listing : Decimal → String
  | notANumber => "NaN"
  | infinite negative => sign negative ++ "inf"
  | finite negative digits exponent =>
    match rounded digits exponent with
    | .zero => sign negative ++ "0.0"
    | .huge => sign negative ++ "inf"
    | .binary value => sign negative ++ shortestText value

/-! ## Reading -/

def digitsOf (text : List Char) : Nat :=
  text.foldl (fun value c => value * 10 + (c.toNat - '0'.toNat)) 0

/-- The power of ten behind the mark of an exponent. -/
def readExponent? : List Char → Option Int
  | [] => some 0
  | mark :: rest =>
    if mark = 'e' ∨ mark = 'E' then
      let (negative, digits) :=
        match rest with
        | '-' :: digits => (true, digits)
        | '+' :: digits => (false, digits)
        | digits => (false, digits)
      if digits.isEmpty || !digits.all Char.isDigit then none
      else some (if negative then -(digitsOf digits : Int) else digitsOf digits)
    else none

/-- A number without its sign: digits with at most one point, and perhaps an
exponent. -/
def readUnsigned? (negative : Bool) (text : List Char) : Option Decimal :=
  let word := text.map Char.toLower
  if word = "nan".toList then some .notANumber
  else if word = "inf".toList ∨ word = "infinity".toList then some (.infinite negative)
  else
    let whole := text.takeWhile Char.isDigit
    let rest := text.dropWhile Char.isDigit
    let (fraction, rest) :=
      match rest with
      | '.' :: rest => (rest.takeWhile Char.isDigit, rest.dropWhile Char.isDigit)
      | rest => ([], rest)
    if whole.isEmpty && fraction.isEmpty then none
    else
      (readExponent? rest).map fun power =>
        .finite negative (digitsOf (whole ++ fraction)) (power - fraction.length)

/-- Read a number. -/
def read? (text : String) : Option Decimal :=
  match text.toList with
  | '-' :: rest => readUnsigned? true rest
  | '+' :: rest => readUnsigned? false rest
  | rest => readUnsigned? false rest

end Decimal

end Bundler.Text
