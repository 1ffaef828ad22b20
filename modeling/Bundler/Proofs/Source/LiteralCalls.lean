import Bundler.Source.Call
import Bundler.Source.Template

/-!
# Literal calls of a source

`IsLiteralCall` says how a literal call is written, and `Cut` how a source falls apart: a literal
call is cut out wherever one stands, from left to right, and all other characters are plain. A
source has exactly one cut, which `pieces` finds (`cut_pieces`, `Cut.unique`). So the requests of
a source and its rewritten text are both read off this cut: `calls_agree`.
-/

namespace Bundler.Source

/-! ## How calls are written -/

/-- Nothing but blanks. -/
def AreBlank (text : List Char) : Prop := ∀ c ∈ text, Text.isBlank c = true

/-- A call is opened at the start of a text: the word, an opening parenthesis, and behind it the
argument, blanks skipped. -/
def Opens (text argument : List Char) : Prop :=
  ∃ gap indent, AreBlank gap ∧ AreBlank indent ∧ (∀ c ∈ argument.head?, Text.isBlank c = false) ∧
    text = keyword ++ (gap ++ '(' :: (indent ++ argument))

/-- An argument is a quoted request up to the closing parenthesis; the rest follows. -/
def Quotes (argument request rest : List Char) : Prop :=
  ∃ quote trail, (quote = '"' ∨ quote = '\'') ∧
    (∀ c ∈ request, c ≠ quote ∧ c ≠ '\\' ∧ c ≠ '\n') ∧ AreBlank trail ∧
    argument = quote :: (request ++ quote :: (trail ++ ')' :: rest))

/-- A literal call: a call is opened, and its argument is a quoted request. -/
def IsLiteralCall (text request : List Char) : Prop :=
  ∃ argument, Opens text argument ∧ Quotes argument request []

theorem after?_eq_some_iff {start text rest : List Char} :
    after? start text = some rest ↔ text = start ++ rest := by
  induction start generalizing text with
  | nil => simp [after?]
  | cons c start ih =>
    cases text with
    | nil => simp [after?]
    | cons first text =>
      rw [after?]
      by_cases same : c = first
      · simp [same, ih]
      · simp [same, Ne.symm]

/-- What is left of a text when all characters of a kind at its start are dropped. -/
theorem dropWhile_eq_iff {kind : Char → Bool} {text rest : List Char} :
    text.dropWhile kind = rest ↔ ∃ front, (∀ c ∈ front, kind c = true) ∧
      (∀ c ∈ rest.head?, kind c = false) ∧ text = front ++ rest := by
  constructor
  · rintro rfl
    refine ⟨text.takeWhile kind, fun c member => List.all_eq_true.1 List.all_takeWhile c member,
      fun c first => ?_, List.takeWhile_append_dropWhile.symm⟩
    have head := List.head?_dropWhile_not kind text
    rw [Option.mem_def.1 first] at head
    simpa using head
  · rintro ⟨front, inside, settled, rfl⟩
    rw [List.dropWhile_append_of_pos inside]
    cases rest with
    | nil => rfl
    | cons c rest => simp [settled c rfl]

theorem takeWhile_append_of_settled {kind : Char → Bool} {front rest : List Char}
    (inside : ∀ c ∈ front, kind c = true) (settled : ∀ c ∈ rest.head?, kind c = false) :
    (front ++ rest).takeWhile kind = front := by
  rw [List.takeWhile_append_of_pos inside]
  cases rest with
  | nil => exact List.append_nil front
  | cons c rest => simp [settled c rfl]

theorem argument?_eq_some_iff {text argument : List Char} :
    argument? text = some argument ↔ Opens text argument := by
  constructor
  · intro found
    unfold argument? at found
    split at found
    · cases found
    · next tail read =>
      split at found
      · next inner paren =>
        obtain ⟨gap, gapBlank, -, rfl⟩ := dropWhile_eq_iff.1 paren
        obtain ⟨indent, indentBlank, settled, rfl⟩ := dropWhile_eq_iff.1 (Option.some.inj found)
        exact ⟨gap, indent, gapBlank, indentBlank, settled, after?_eq_some_iff.1 read⟩
      · cases found
  · rintro ⟨gap, indent, gapBlank, indentBlank, settled, rfl⟩
    have word : after? keyword (keyword ++ (gap ++ '(' :: (indent ++ argument))) =
        some (gap ++ '(' :: (indent ++ argument)) := after?_eq_some_iff.2 rfl
    have paren : skipBlanks (gap ++ '(' :: (indent ++ argument)) = '(' :: (indent ++ argument) :=
      dropWhile_eq_iff.2 ⟨gap, gapBlank, by simp; decide, rfl⟩
    have inner : skipBlanks (indent ++ argument) = argument :=
      dropWhile_eq_iff.2 ⟨indent, indentBlank, settled, rfl⟩
    simp only [argument?, word, paren, inner]

theorem inRequest_iff {quote c : Char} :
    inRequest quote c = true ↔ c ≠ quote ∧ c ≠ '\\' ∧ c ≠ '\n' := by
  simp [inRequest, and_assoc]

theorem request?_eq_some_iff {text request rest : List Char} :
    request? text = some (request, rest) ↔ Quotes text request rest := by
  constructor
  · intro found
    unfold request? at found
    split at found
    · cases found
    · next quote body =>
      split at found
      · next isQuote =>
        split at found
        · cases found
        · next c tail dropped =>
          obtain ⟨front, inside, -, rfl⟩ := dropWhile_eq_iff.1 dropped
          split at found
          · next same =>
            subst same
            split at found
            · next last closed =>
              obtain ⟨trail, trailBlank, -, rfl⟩ := dropWhile_eq_iff.1 closed
              rw [takeWhile_append_of_settled inside (by simp [inRequest])] at found
              obtain ⟨rfl, rfl⟩ := Prod.mk.inj (Option.some.inj found)
              exact ⟨c, trail, isQuote, fun d member => inRequest_iff.1 (inside d member),
                trailBlank, rfl⟩
            · cases found
          · cases found
      · cases found
  · rintro ⟨quote, trail, isQuote, plain, trailBlank, rfl⟩
    have inside : ∀ c ∈ request, inRequest quote c = true := fun c member =>
      inRequest_iff.2 (plain c member)
    have ends : ∀ c ∈ (quote :: (trail ++ ')' :: rest)).head?, inRequest quote c = false := by
      simp [inRequest]
    have dropped : (request ++ quote :: (trail ++ ')' :: rest)).dropWhile (inRequest quote) =
        quote :: (trail ++ ')' :: rest) := dropWhile_eq_iff.2 ⟨request, inside, ends, rfl⟩
    have taken : (request ++ quote :: (trail ++ ')' :: rest)).takeWhile (inRequest quote) =
        request := takeWhile_append_of_settled inside ends
    have closed : skipBlanks (trail ++ ')' :: rest) = ')' :: rest :=
      dropWhile_eq_iff.2 ⟨trail, trailBlank, by simp; decide, rfl⟩
    simp only [request?, isQuote, if_true, dropped, closed, taken]

/-- A literal call is found at the start of a source exactly if one is written there. -/
theorem literalCall?_eq_some_iff {source request rest : List Char} :
    literalCall? source = some (request, rest) ↔
      ∃ text, IsLiteralCall text request ∧ source = text ++ rest := by
  rw [literalCall?, Option.bind_eq_some_iff]
  simp only [argument?_eq_some_iff, request?_eq_some_iff]
  constructor
  · rintro ⟨argument, ⟨gap, indent, gapBlank, indentBlank, settled, rfl⟩,
      quote, trail, isQuote, plain, trailBlank, rfl⟩
    refine ⟨keyword ++ (gap ++ '(' :: (indent ++ quote :: (request ++ quote :: (trail ++ [')'])))),
      ⟨quote :: (request ++ quote :: (trail ++ [')'])), ?_, ?_⟩, by simp⟩
    · exact ⟨gap, indent, gapBlank, indentBlank, settled, rfl⟩
    · exact ⟨quote, trail, isQuote, plain, trailBlank, rfl⟩
  · rintro ⟨text, ⟨argument, ⟨gap, indent, gapBlank, indentBlank, settled, rfl⟩,
      quote, trail, isQuote, plain, trailBlank, rfl⟩, rfl⟩
    refine ⟨quote :: (request ++ quote :: (trail ++ ')' :: rest)), ?_, ?_⟩
    · exact ⟨gap, indent, gapBlank, indentBlank, settled, by simp⟩
    · exact ⟨quote, trail, isQuote, plain, trailBlank, rfl⟩

theorem IsLiteralCall.getLast? {text request : List Char} (call : IsLiteralCall text request) :
    text.getLast? = some ')' := by
  obtain ⟨argument, ⟨gap, indent, -, -, -, rfl⟩, quote, trail, -, -, -, rfl⟩ := call
  simp [List.getLast?_append, List.getLast?_cons]

theorem IsLiteralCall.head? {text request : List Char} (call : IsLiteralCall text request) :
    text.head? = some 'r' := by
  obtain ⟨argument, ⟨gap, indent, -, -, -, rfl⟩, -⟩ := call
  rfl

/-! ## Cuts -/

/-- A literal call stands at the start of `source`, where a word may start behind `before`. -/
def Stands (before source text request : List Char) : Prop :=
  atBoundary before.getLast? = true ∧ IsLiteralCall text request ∧ text <+: source

/-- A source, read behind `before`, falls apart into plain characters and literal calls: wherever
a literal call stands it is cut out, and reading goes on behind it. -/
inductive Cut : List Char → List Char → List Piece → Prop where
  | done (before : List Char) : Cut before [] []
  | call {before source text request rest : List Char} {cut : List Piece}
      (stands : Stands before source text request) (shape : source = text ++ rest)
      (tail : Cut (before ++ text) rest cut) : Cut before source (.call text request :: cut)
  | plain {before rest : List Char} {c : Char} {cut : List Piece}
      (none : ∀ text request, ¬ Stands before (c :: rest) text request)
      (tail : Cut (before ++ [c]) rest cut) : Cut before (c :: rest) (.plain c :: cut)

theorem stands_iff {before source text request : List Char} :
    Stands before source text request ↔ ∃ rest, source = text ++ rest ∧
      (if atBoundary before.getLast? then literalCall? source else none) = some (request, rest) := by
  constructor
  · rintro ⟨boundary, call, rest, rfl⟩
    exact ⟨rest, rfl, by rw [if_pos boundary]; exact literalCall?_eq_some_iff.2 ⟨text, call, rfl⟩⟩
  · rintro ⟨rest, rfl, found⟩
    split at found
    · next boundary =>
      obtain ⟨other, call, same⟩ := literalCall?_eq_some_iff.1 found
      obtain rfl := List.append_cancel_right same
      exact ⟨boundary, call, rest, rfl⟩
    · cases found

/-- At most one literal call stands at a place. -/
theorem Stands.unique {before source first second firstRequest secondRequest : List Char}
    (left : Stands before source first firstRequest)
    (right : Stands before source second secondRequest) :
    first = second ∧ firstRequest = secondRequest := by
  obtain ⟨rest, shape, found⟩ := stands_iff.1 left
  obtain ⟨otherRest, otherShape, otherFound⟩ := stands_iff.1 right
  obtain ⟨rfl, rfl⟩ := Prod.mk.inj (Option.some.inj (found.symm.trans otherFound))
  exact ⟨List.append_cancel_right (shape.symm.trans otherShape), rfl⟩

theorem cut_piecesAfter (before source : List Char) :
    Cut before source (piecesAfter before.getLast? source) := by
  generalize same : before.getLast? = last
  fun_induction piecesAfter last source generalizing before with
  | case1 => exact .done before
  | case2 last c tail whole request rest found size ih =>
    subst same
    have read : literalCall? whole = some (request, rest) := by
      split at found
      · exact found
      · cases found
    obtain ⟨text, call, shape⟩ := literalCall?_eq_some_iff.1 read
    have stands : Stands before whole text request := stands_iff.2 ⟨rest, shape, found⟩
    have length : size = text.length := by simp [size, shape]
    have taken : whole.take size = text := by rw [length, shape, List.take_left']; rfl
    have left : tail.drop (size - 1) = rest := by
      have some_ : text ≠ [] := by
        rintro rfl
        cases call.head?
      obtain ⟨first, others, rfl⟩ := List.exists_cons_of_ne_nil some_
      obtain ⟨-, behind⟩ := List.cons.inj shape
      rw [behind, length, List.length_cons, Nat.add_sub_cancel]
      exact List.drop_left' rfl
    rw [taken]
    rw [left] at ih ⊢
    exact .call stands shape (ih (before ++ text) (by simp [List.getLast?_append, call.getLast?]))
  | case3 last c tail whole found ih =>
    subst same
    refine .plain (fun text request stands => ?_) (ih (before ++ [c]) (by simp))
    obtain ⟨rest, -, read⟩ := stands_iff.1 stands
    cases found.symm.trans read

theorem cut_pieces (source : String) : Cut [] source.toList (pieces source) :=
  cut_piecesAfter [] source.toList

/-- A source falls apart in one way only. -/
theorem Cut.unique {before source : List Char} {first second : List Piece}
    (left : Cut before source first) (right : Cut before source second) : first = second := by
  induction left generalizing second with
  | done before =>
    cases right with
    | done => rfl
    | call stands shape =>
      obtain ⟨rfl, -⟩ := List.append_eq_nil_iff.1 shape.symm
      cases stands.2.1.head?
  | call stands shape _ ih =>
    cases right with
    | done =>
      obtain ⟨rfl, -⟩ := List.append_eq_nil_iff.1 shape.symm
      cases stands.2.1.head?
    | call otherStands otherShape tail =>
      obtain ⟨rfl, rfl⟩ := stands.unique otherStands
      obtain rfl := List.append_cancel_left (shape.symm.trans otherShape)
      rw [ih tail]
    | plain none => exact absurd stands (none _ _)
  | plain none _ ih =>
    cases right with
    | call stands => exact absurd stands (none _ _)
    | plain _ tail => rw [ih tail]

/-! ## What is read off a cut -/

/-- The request of a call. -/
def Piece.request? : Piece → Option String
  | .plain _ => none
  | .call _ request => some (String.ofList request)

/-- The piece with a call of a known request turned into a call of the bundle's require function;
all else stays as it is. -/
def Piece.rewritten (ids : String → Option String) : Piece → List Char
  | .plain c => [c]
  | .call text request =>
    match ids (String.ofList request) with
    | some id => ("__packwatch_require__(" ++ Literal.encode id ++ ")").toList
    | none => text

theorem requests_eq (source : String) : requests source = (pieces source).filterMap Piece.request? :=
  rfl

theorem requireCall_eq (id : String) :
    requireCall id = "__packwatch_require__(" ++ Literal.encode id ++ ")" := by
  have name : requireName ++ "(" = "__packwatch_require__(" := rfl
  rw [requireCall, name]

theorem replaceCalls_eq (source : String) (ids : String → Option String) :
    (replaceCalls source fun request => (ids request).map requireCall) =
      String.ofList ((pieces source).flatMap (Piece.rewritten ids)) := by
  unfold replaceCalls
  congr 1
  refine congrArg (fun write => (pieces source).flatMap write) (funext fun piece => ?_)
  cases piece with
  | plain c => rfl
  | call text request =>
    simp only [Piece.rewritten]
    cases ids (String.ofList request) with
    | none => rfl
    | some id => exact congrArg String.toList (requireCall_eq id)

/-- Where no request is known, nothing changes. -/
theorem rewritten_none (piece : Piece) : piece.rewritten (fun _ => none) = piece.text := by
  cases piece <;> rfl

/-- A call of a known request does not stay as it was. -/
theorem rewritten_ne {ids : String → Option String} {text request : List Char} {id : String}
    (call : IsLiteralCall text request) (known : ids (String.ofList request) = some id) :
    (Piece.call text request).rewritten ids ≠ text := by
  intro same
  have first := call.head?
  rw [← same, Piece.rewritten, known] at first
  simp at first

/-- Every source falls apart in exactly one way into plain characters and literal calls. Its
requests are those of the calls in order, and rewriting turns the calls whose request is known into
calls of the bundle's require function and leaves every other character as it is. So a source stays
as it is if no request is known, and no call of a known request does. -/
theorem calls_agree (source : String) (ids : String → Option String) :
    (∃ cut, Cut [] source.toList cut ∧ (∀ other, Cut [] source.toList other → other = cut) ∧
      cut.flatMap Piece.text = source.toList ∧
      requests source = cut.filterMap Piece.request? ∧
      (replaceCalls source fun request => (ids request).map requireCall) =
        String.ofList (cut.flatMap (Piece.rewritten ids))) ∧
    (replaceCalls source fun _ => none) = source ∧
    ∀ text request id, IsLiteralCall text request → ids (String.ofList request) = some id →
      (Piece.call text request).rewritten ids ≠ text := by
  refine ⟨⟨pieces source, cut_pieces source, fun other isCut => isCut.unique (cut_pieces source),
    text_pieces source, requests_eq source, replaceCalls_eq source ids⟩, ?_,
    fun text request id => rewritten_ne⟩
  have unchanged := replaceCalls_eq source fun _ => none
  rw [funext rewritten_none, text_pieces, String.ofList_toList] at unchanged
  exact unchanged

/-- A source with a call in each style of quotes. -/
def twoCalls : String := "require(\"./a\"); require( 'missing' );"

/-- The module of one request. -/
def onlyFirst (request : String) : Option String :=
  if request = "./a" then some "./src/a.js" else none

/-- Both calls are cut out; only the first one is rewritten. -/
theorem calls_agree_twoCalls :
    ∃ cut, Cut [] twoCalls.toList cut ∧ cut.filterMap Piece.request? = ["./a", "missing"] ∧
      String.ofList (cut.flatMap (Piece.rewritten onlyFirst)) =
        "__packwatch_require__(\"./src/a.js\"); require( 'missing' );" := by
  obtain ⟨⟨cut, isCut, -, -, asked, rewritten⟩, -, -⟩ := calls_agree twoCalls onlyFirst
  refine ⟨cut, isCut, ?_, ?_⟩
  · rw [← asked]
    decide +kernel
  · rw [← rewritten]
    decide +kernel

end Bundler.Source
