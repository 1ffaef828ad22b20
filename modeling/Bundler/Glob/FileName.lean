import Bundler.Glob.Matching

/-!
# Patterns about file names

Some patterns say something about the last part of a path only, and are looked up
by that part: characters and classes of a name below any directories, or an extension.
The part `..` names no file, so none of these patterns selects a path that ends with
it. All other patterns are matched against the whole text.
-/

namespace Bundler.Glob

def areLiterals (tokens : List GlobToken) : Bool :=
  tokens.all fun
    | .literal _ => true
    | _ => false

/-- A literal that may stand inside an extension. -/
def isExtensionToken : GlobToken → Bool
  | .literal c => c != '.' && c != '/'
  | _ => false

/-- A character or class that may stand inside a name, as it never stands for a slash. -/
def isNameToken : GlobToken → Bool
  | .literal c => c != '/'
  | .oneOf negated ranges => ranges.any (fun (low, high) => low ≤ '/' && '/' ≤ high) == negated
  | _ => false

/-- Any directories, and then a name. -/
def isName : List GlobToken → Bool
  | .leadingDirs :: name => !name.isEmpty && name.all isNameToken
  | _ => false

/-- The tokens after any directories at the start. -/
def withoutLeadingDirs : List GlobToken → List GlobToken
  | .leadingDirs :: rest => rest
  | tokens => tokens

/-- Anything, and then one extension. -/
def isBareExtension (tokens : List GlobToken) : Bool :=
  match withoutLeadingDirs tokens with
  | .many :: .literal '.' :: extension => extension.all isExtensionToken
  | _ => false

/-- Anything, and then a fixed text that is more than a slash, or the text alone. -/
def isFixedEnd (tokens : List GlobToken) : Bool :=
  let isMore (rest : List GlobToken) : Bool :=
    match rest with
    | [.literal '/'] => false
    | rest => !rest.isEmpty && areLiterals rest
  match tokens with
  | .leadingDirs :: .many :: rest => isMore rest
  | .many :: rest => isMore rest
  | .leadingDirs :: rest => !rest.isEmpty && areLiterals rest
  | rest => !rest.isEmpty && areLiterals rest

/-- A dot and the rest of an extension at the end. -/
def endsWithExtension (tokens : List GlobToken) : Bool :=
  match tokens.reverse.dropWhile isExtensionToken with
  | .literal '.' :: _ => true
  | _ => false

/-- The pattern is looked up by the file name or by its extension. -/
def readsFileName (glob : Glob) : Bool :=
  isName glob.tokens || isBareExtension glob.tokens ||
    (endsWithExtension glob.tokens && !isFixedEnd glob.tokens)

/-- The text after the last slash is a name. -/
def hasFileName (text : String) : Bool :=
  (text.toList.reverse.takeWhile fun c => c != '/') != ['.', '.']

/-- The pattern selects a text. -/
def selects (glob : Glob) (text : String) : Bool :=
  (hasFileName text || !glob.readsFileName) && glob.accepts text

/-- Only what matches is selected. -/
theorem accepts_of_selects {glob : Glob} {text : String} (selected : glob.selects text = true) :
    glob.accepts text = true := by
  simp only [selects, Bool.and_eq_true] at selected
  exact selected.2

/-- A text with a file name is selected as soon as it matches. -/
theorem selects_of_hasFileName (glob : Glob) {text : String} (named : hasFileName text = true) :
    glob.selects text = glob.accepts text := by
  simp [selects, named]

end Bundler.Glob
