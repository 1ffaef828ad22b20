/-! # Replacing parts of a text -/

namespace Bundler.Text

/-- Replace the occurrences of a non-empty `pattern` from left to right; an
occurrence that overlaps an earlier one stays. `skip` characters of an occurrence
are still to be passed over. -/
def replaceFrom (pattern replacement : List Char) (skip : Nat) : List Char → List Char
  | [] => []
  | c :: rest =>
    match skip with
    | skip + 1 => replaceFrom pattern replacement skip rest
    | 0 =>
      if pattern.isPrefixOf (c :: rest) then
        replacement ++ replaceFrom pattern replacement (pattern.length - 1) rest
      else c :: replaceFrom pattern replacement 0 rest

def replaceAll (text pattern replacement : String) : String :=
  String.ofList (replaceFrom pattern.toList replacement.toList 0 text.toList)

/-- `pattern` occurs in a text. -/
def occurs (pattern : List Char) : List Char → Bool
  | [] => pattern.isEmpty
  | c :: rest => pattern.isPrefixOf (c :: rest) || occurs pattern rest

def contains (text pattern : String) : Bool := occurs pattern.toList text.toList

/-- Replacing a pattern that does not occur changes nothing. -/
theorem replaceFrom_of_not_occurs {pattern : List Char} (replacement : List Char)
    {text : List Char} (absent : occurs pattern text = false) :
    replaceFrom pattern replacement 0 text = text := by
  induction text with
  | nil => rfl
  | cons c rest ih =>
    simp only [occurs, Bool.or_eq_false_iff] at absent
    simp [replaceFrom, absent.1, ih absent.2]

end Bundler.Text
