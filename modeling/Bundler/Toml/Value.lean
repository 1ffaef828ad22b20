import Bundler.Text.Decimal

/-!
# TOML values

A floating-point number is kept as the decimal that was written; it is rounded
only when a message shows it. Digits that do not fit their base are kept as well: they
are a fault only where somebody wants their value.
-/

namespace Bundler.Toml

inductive Value where
  | string (text : String)
  | integer (value : Int)
  /-- Digits that are no integer in the base that they are written in. -/
  | misnumbered
  | float (value : Text.Decimal)
  | boolean (value : Bool)
  /-- A date or time in its canonical spelling. -/
  | moment (text : String)
  | array (items : List Value)
  /-- Keys in increasing order. -/
  | table (entries : List (String × Value))
  deriving Repr, Inhabited

end Bundler.Toml
