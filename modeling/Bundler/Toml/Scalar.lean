import Bundler.Toml.Value
import Bundler.Text.Hex

/-!
# TOML scalars

Numbers, truth values, dates and times: everything that is written without
quotes. `scalar?` reads a whole word. What kind of value a word is shows from its first
characters, and a word of one kind is never read as another.
-/

namespace Bundler.Toml

def natOfDigits (base : Nat) (digits : List Char) : Nat :=
  digits.foldl (fun value digit => value * base + (Text.hexValue? digit).getD 0) 0

def isHexDigit (c : Char) : Bool := (Text.hexValue? c).isSome

/-! ## Numbers -/

/-- A sign and what follows it. -/
def splitSign : List Char → Bool × List Char
  | '-' :: rest => (true, rest)
  | '+' :: rest => (false, rest)
  | word => (false, word)

def withoutUnderscores (word : List Char) : List Char := word.filter (· != '_')

/-- The parts of a word between its underscores. -/
def partsOf : List Char → List (List Char)
  | [] => [[]]
  | c :: rest =>
    if c = '_' then [] :: partsOf rest
    else
      match partsOf rest with
      | [] => [[c]]
      | part :: parts => (c :: part) :: parts

/-- Underscores stand between digits. -/
def isWellSeparated (isDigit : Char → Bool) (word : List Char) : Bool :=
  match partsOf word with
  | first :: second :: rest =>
    (second :: rest).all (fun part => part.head?.any isDigit) &&
      (first :: (second :: rest).dropLast).all fun part => part.getLast?.any isDigit
  | _ => true

/-- The integer that digits stand for, if all of them are digits of the base. -/
def integerOf (base : Nat) (negative : Bool) (digits : List Char) : Value :=
  let isDigit (c : Char) : Bool := (Text.hexValue? c).any (· < base)
  if digits.isEmpty || !digits.all isDigit then .misnumbered
  else
    let value : Int := natOfDigits base digits
    .integer (if negative then -value else value)

/-- An integer behind the mark of its base. -/
def basedInteger? (base : Nat) (digits : List Char) : Option Value :=
  let isDigit (c : Char) : Bool := (Text.hexValue? c).any (· < base)
  if digits.all (fun c => isDigit c || c == '_') && isWellSeparated isHexDigit digits then
    some (integerOf base false (withoutUnderscores digits))
  else none

/-- A decimal integer; `body` is the word after its sign. -/
def integer? (negative : Bool) (body : List Char) : Option Value :=
  if (body.head? == some '0' && 1 < body.length) || !isWellSeparated isHexDigit body then none
  else some (integerOf 10 negative (withoutUnderscores body))

/-- The digits at the front of a text, with underscores among them, and what follows.
A zero in front is superfluous unless `zeros` says that it may stand there. -/
def digitRun? (zeros : Bool) (text : List Char) : Option (List Char × List Char) :=
  let run := text.takeWhile fun c => c.isDigit || c == '_'
  let digits := withoutUnderscores run
  if digits.isEmpty || (!zeros && run.head? == some '0' && 1 < digits.length) then none
  else some (digits, text.drop run.length)

/-- A number with a fraction or an exponent; `body` is the word after its sign. -/
def float? (negative : Bool) (body : List Char) : Option Text.Decimal := do
  let (whole, rest) ← digitRun? false body
  let (fraction, rest) ←
    match rest with
    | '.' :: rest => digitRun? true rest
    | rest => some ([], rest)
  let (power, rest) ←
    match rest with
    | [] => some ((0 : Int), [])
    | mark :: rest => do
      let (below, rest) := splitSign rest
      let (digits, rest) ← digitRun? true rest
      let power : Int := natOfDigits 10 digits
      if mark = 'e' ∨ mark = 'E' then some (if below then -power else power, rest) else none
  if rest.isEmpty && isWellSeparated Char.isDigit body then
    some (.finite negative (natOfDigits 10 (whole ++ fraction)) (power - (fraction.length : Int)))
  else none

/-! ## Dates and times -/

/-- A decimal number of exactly `width` digits, and what follows. -/
def fixed? (width : Nat) (word : List Char) : Option (Nat × List Char) :=
  let digits := word.take width
  if digits.length = width ∧ digits.all Char.isDigit then
    some (natOfDigits 10 digits, word.drop width)
  else none

def isLeapYear (year : Nat) : Bool :=
  year % 4 == 0 && (year % 100 != 0 || year % 400 == 0)

def daysInMonth (year month : Nat) : Nat :=
  match month with
  | 2 => if isLeapYear year then 29 else 28
  | 4 | 6 | 9 | 11 => 30
  | _ => 31

/-- A number with zeros in front. -/
def padded (width value : Nat) : String :=
  let digits := toString value
  String.ofList (List.replicate (width - digits.length) '0') ++ digits

/-- A date and what follows. -/
def date? (word : List Char) : Option (String × List Char) := do
  let (year, rest) ← fixed? 4 word
  let '-' :: rest := rest | none
  let (month, rest) ← fixed? 2 rest
  let '-' :: rest := rest | none
  let (day, rest) ← fixed? 2 rest
  if 1 ≤ month ∧ month ≤ 12 ∧ 1 ≤ day ∧ day ≤ daysInMonth year month then
    some (padded 4 year ++ "-" ++ padded 2 month ++ "-" ++ padded 2 day, rest)
  else none

/-- A fraction of a second, cut to nine digits and without zeros at its end. -/
def fractionText (digits : List Char) : String :=
  let kept := ((digits.take 9).reverse.dropWhile (· == '0')).reverse
  if kept.isEmpty then "" else "." ++ String.ofList kept

/-- The seconds of a time with their fraction, and what follows. -/
def seconds? (text : List Char) : Option (String × List Char) := do
  let (second, rest) ← fixed? 2 text
  if 60 < second then none
  match rest with
  | '.' :: rest =>
    let digits := rest.takeWhile Char.isDigit
    if digits.isEmpty then none
    else some (":" ++ padded 2 second ++ fractionText digits, rest.dropWhile Char.isDigit)
  | rest => some (":" ++ padded 2 second, rest)

/-- A time of day and what follows. Seconds that are left out count as none. -/
def time? (word : List Char) : Option (String × List Char) := do
  let (hour, rest) ← fixed? 2 word
  let ':' :: rest := rest | none
  let (minute, rest) ← fixed? 2 rest
  if 23 < hour ∨ 59 < minute then none
  let (seconds, rest) ←
    match rest with
    | ':' :: rest => seconds? rest
    | rest => some (":00", rest)
  some (padded 2 hour ++ ":" ++ padded 2 minute ++ seconds, rest)

/-- An offset from universal time, up to the end of the word. -/
def offset? (word : List Char) : Option String :=
  match word with
  | [] => some ""
  | ['Z'] | ['z'] => some "Z"
  | sign :: rest =>
    if sign = '+' ∨ sign = '-' then
      match fixed? 2 rest with
      | some (hour, ':' :: rest) =>
        match fixed? 2 rest with
        | some (minute, []) =>
          if hour ≤ 23 ∧ minute ≤ 59 then
            let shown := if hour = 0 ∧ minute = 0 then '+' else sign
            some (shown.toString ++ padded 2 hour ++ ":" ++ padded 2 minute)
          else none
        | _ => none
      | _ => none
    else none

def moment? (word : List Char) : Option String :=
  match date? word with
  | some (date, []) => some date
  | some (date, mark :: rest) =>
    if mark = 'T' ∨ mark = 't' ∨ mark = ' ' then do
      let (time, rest) ← time? rest
      let offset ← offset? rest
      some (date ++ "T" ++ time ++ offset)
    else none
  | none =>
    match time? word with
    | some (time, []) => some time
    | _ => none

/-- A number, a date or a time: what follows the first digits of a word tells which. -/
def number? (word : List Char) : Option Value :=
  let (negative, body) := splitSign word
  match body with
  | ['i', 'n', 'f'] => some (.float (.infinite negative))
  | ['n', 'a', 'n'] => some (.float .notANumber)
  | '0' :: 'x' :: digits => if body = word then basedInteger? 16 digits else none
  | '0' :: 'o' :: digits => if body = word then basedInteger? 8 digits else none
  | '0' :: 'b' :: digits => if body = word then basedInteger? 2 digits else none
  | first :: _ =>
    let rest := body.dropWhile Char.isDigit
    if !first.isDigit then none
    else
      match rest with
      | [] => integer? negative body
      | mark :: _ =>
        if mark = '-' ∨ mark = ':' then (moment? word).map .moment
        else if rest.contains ' ' then none
        else if rest.any fun c => c == '.' || c == 'e' || c == 'E' then
          (float? negative body).map .float
        else if mark = '_' then integer? negative body
        else none
  | [] => none

/-- The value that a word without quotes stands for. -/
def scalar? (word : List Char) : Option Value :=
  if word = "true".toList then some (.boolean true)
  else if word = "false".toList then some (.boolean false)
  else number? word

end Bundler.Toml
