import Bundler.Table
import Bundler.Text.Decimal
import Bundler.Text.Quoted

/-!
# Parent markers

A compiler may carry a mark of what it works for: any plain value, or a
reference to a compilation. It counts as a child unless the mark is empty: null,
false, zero, no number, or the empty text.
-/

namespace Bundler

/-- The identity of a compilation. -/
structure CompilationRef where
  id : Nat
  name : Option String
  deriving DecidableEq, Repr

inductive ParentMarker where
  | null
  | flag (value : Bool)
  | number (value : Text.Decimal)
  | text (value : String)
  | list (items : List ParentMarker)
  /-- Fields in increasing order of their names. -/
  | object (fields : List (String × ParentMarker))
  | compilation (reference : CompilationRef)
  deriving Repr, Inhabited

namespace ParentMarker

/-- The mark makes its compiler a child. -/
def isTruthy : ParentMarker → Bool
  | null => false
  | flag value => value
  | number value => value.isNonzero
  | text value => !value.isEmpty
  | list _ | object _ | compilation _ => true

mutual

/-- The mark as a listing shows it. -/
def listing : ParentMarker → String
  | null => "Null"
  | flag value => "Bool(" ++ toString value ++ ")"
  | number value => "Number(" ++ value.listing ++ ")"
  | text value => "Str(" ++ Text.quoted value ++ ")"
  | list items => "List([" ++ listingOfItems items ++ "])"
  | object fields => "Object(\x7b" ++ listingOfFields fields ++ "\x7d)"
  | compilation reference =>
    "Compilation(CompilationRef \x7b id: " ++ toString reference.id ++ ", name: " ++
      Text.quotedOption reference.name ++ " \x7d)"

def listingOfItems : List ParentMarker → String
  | [] => ""
  | [item] => listing item
  | item :: rest => listing item ++ ", " ++ listingOfItems rest

def listingOfFields : List (String × ParentMarker) → String
  | [] => ""
  | [(name, value)] => Text.quoted name ++ ": " ++ listing value
  | (name, value) :: rest =>
    Text.quoted name ++ ": " ++ listing value ++ ", " ++ listingOfFields rest

end

end ParentMarker

end Bundler
