/-!
# Shortest decimals

A decimal is rounded to the nearest binary number of 53 bits, and written with
the fewest digits that round back to that number. All arithmetic is exact.
-/

namespace Bundler.Text

/-- A binary number: `mantissa` times two to the power `exponent`. -/
structure Binary where
  mantissa : Nat
  exponent : Int
  deriving DecidableEq, Repr

/-- `numerator / denominator` times `base ^ exponent` as a fraction. -/
def scaled (base numerator denominator : Nat) (exponent : Int) : Nat × Nat :=
  if 0 ≤ exponent then (numerator * base.pow exponent.toNat, denominator)
  else (numerator, denominator * base.pow exponent.natAbs)

/-- The quotient rounded to the nearest integer, a half to the even one. -/
def roundDiv (numerator denominator : Nat) : Nat :=
  let quotient := numerator / denominator
  let twice := 2 * (numerator % denominator)
  if twice < denominator then quotient
  else if twice = denominator ∧ quotient % 2 = 0 then quotient
  else quotient + 1

/-- The least exponent of a binary number. -/
def leastExponent : Int := -1074

/-- The nearest binary number of at most 53 bits, unless it is too large. -/
def nearest? (numerator denominator : Nat) : Option Binary :=
  if numerator = 0 then some ⟨0, leastExponent⟩
  else
    let fits (exponent : Int) : Bool :=
      let (n, d) := scaled 2 numerator denominator (-exponent)
      n / d < 1 <<< 53
    let guess : Int := (Nat.log2 numerator : Int) - (Nat.log2 denominator : Int) - 53
    let found := if fits guess then guess else if fits (guess + 1) then guess + 1 else guess + 2
    let exponent := max found leastExponent
    let (n, d) := scaled 2 numerator denominator (-exponent)
    let mantissa := roundDiv n d
    let rounded : Binary :=
      if mantissa = 1 <<< 53 then ⟨1 <<< 52, exponent + 1⟩ else ⟨mantissa, exponent⟩
    if rounded.exponent ≤ 971 then some rounded else none

/-- The number of decimal digits of a positive number. -/
def digitCount (value : Nat) : Nat := (toString value).length

/-- The decimal with the fewest digits that rounds to `value`: its digits and its
power of ten. Of two such decimals the nearer is taken, and the larger one if they are
equally near. -/
def shortest (value : Binary) : Nat × Int :=
  if value.mantissa = 0 then (0, 0)
  else
    let m := value.mantissa
    let quarter := value.exponent - 2
    let low := if m = 1 <<< 52 ∧ value.exponent ≠ leastExponent then 4 * m - 1 else 4 * m - 2
    let high := 4 * m + 2
    let (exactN, exactD) := scaled 2 m 1 value.exponent
    let whole := exactN / exactD
    let magnitude : Int :=
      if 0 < whole then (digitCount whole : Int) - 1
      else -((digitCount (exactD / exactN) : Int)) - (if exactD % exactN = 0 then 0 else 1) + 1
    let inside (digits : Nat) (power : Int) : Bool :=
      let (n, d) := scaled 10 digits 1 power
      let (lowN, lowD) := scaled 2 low 1 quarter
      let (highN, highD) := scaled 2 high 1 quarter
      if m % 2 = 0 then lowN * d ≤ n * lowD && n * highD ≤ highN * d
      else lowN * d < n * lowD && n * highD < highN * d
    let attempt (count : Nat) : Option (Nat × Int) :=
      let power := magnitude - (count : Int) + 1
      let (n, d) := scaled 10 exactN exactD (-power)
      let below := n / d
      let nearer := if 2 * (n % d) < d then [below, below + 1] else [below + 1, below]
      (nearer.find? fun digits => inside digits power).map fun digits => (digits, power)
    ((List.range 18).findSome? fun count => attempt (count + 1)).getD (0, 0)

/-- Digits without zeros at their end, and the power of ten. -/
def trimZeros : Nat → Nat → Int → Nat × Int
  | 0, digits, power => (digits, power)
  | count + 1, digits, power =>
    if digits % 10 = 0 ∧ digits ≠ 0 then trimZeros count (digits / 10) (power + 1)
    else (digits, power)

/-- A decimal in positional notation with at least one digit on each side of the
point. -/
def positional (digits : Nat) (power : Int) : String :=
  let (digits, power) := trimZeros 20 digits power
  if 0 ≤ power then toString (digits * Nat.pow 10 power.toNat) ++ ".0"
  else
    let places := power.natAbs
    let text := (toString digits).toList
    let text := List.replicate (places + 1 - text.length) '0' ++ text
    String.ofList (text.take (text.length - places)) ++ "." ++
      String.ofList (text.drop (text.length - places))

/-- `digits` times ten to the power `exponent`, rounded and written positionally;
`none` if it is too large. Powers far outside the range of binary numbers are
decided without being computed. -/
def roundedDecimal? (digits : Nat) (exponent : Int) : Option String :=
  if digits = 0 ∨ exponent + digitCount digits < -400 then some "0.0"
  else if 400 < exponent then none
  else
  let (n, d) := scaled 10 digits 1 exponent
  (nearest? n d).map fun value =>
    let (digits, power) := shortest value
    positional digits power

end Bundler.Text
