/-! # Hexadecimal digits, in lower case -/

namespace Bundler.Text

def hexDigit (value : Nat) : Char :=
  if value < 10 then Char.ofNat (48 + value) else Char.ofNat (87 + value)

/-- The digits of a number, most significant first; zero has one digit. -/
def hexDigits (value : Nat) : List Char :=
  if value < 16 then [hexDigit value] else hexDigits (value / 16) ++ [hexDigit (value % 16)]

/-- Exactly `width` digits, the number taken modulo `16 ^ width`. -/
def hexFixed : Nat → Nat → List Char
  | 0, _ => []
  | width + 1, value => hexFixed width (value / 16) ++ [hexDigit (value % 16)]

/-- Two digits for each byte. -/
def hexBytes (bytes : ByteArray) : String :=
  String.ofList (bytes.toList.flatMap fun byte => hexFixed 2 byte.toNat)

@[simp] theorem length_hexFixed (width value : Nat) : (hexFixed width value).length = width := by
  induction width generalizing value with
  | zero => rfl
  | succ width ih => simp [hexFixed, ih]

/-- The value of a digit of either case. -/
def hexValue? (c : Char) : Option Nat :=
  if '0' ≤ c && c ≤ '9' then some (c.toNat - 48)
  else if 'a' ≤ c && c ≤ 'f' then some (c.toNat - 87)
  else if 'A' ≤ c && c ≤ 'F' then some (c.toNat - 55)
  else none

/-- The bytes that pairs of digits stand for. -/
def bytesOfHex? : List Char → Option (List UInt8)
  | [] => some []
  | [_] => none
  | high :: low :: rest =>
    match hexValue? high, hexValue? low, bytesOfHex? rest with
    | some high, some low, some bytes => some (UInt8.ofNat (high * 16 + low) :: bytes)
    | _, _, _ => none

end Bundler.Text
