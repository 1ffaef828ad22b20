import Bundler.Proofs.Source.LiteralCalls

/-!
# Calls that are opened in a source

A call is opened by its name and a parenthesis with an argument (`Opened`), whatever the argument
is. `extracted_iff` says which of these calls are cut out with a request: the literal calls that lie
inside no earlier one. `hasDynamicCall_iff` says what makes a source dynamic: a call whose argument
begins without a quote.
-/

namespace Bundler.Source

/-! ## Opened calls -/

/-- A call is opened in a source behind `before`: the word, where a word may start, an opening
parenthesis, and an argument that begins with `first` and not with the closing parenthesis. -/
def Opened (source before : List Char) (first : Char) : Prop :=
  atBoundary before.getLast? = true ∧ first ≠ ')' ∧
    ∃ rest after, source = before ++ rest ∧ Opens rest (first :: after)

/-- A call that no reader of quoted requests can take: its argument begins without a quote. -/
def IsComputed (source before : List Char) : Prop :=
  ∃ first, Opened source before first ∧ first ≠ '"' ∧ first ≠ '\''

theorem isDynamicCall_iff {text : List Char} :
    isDynamicCall text = true ↔
      ∃ first after, Opens text (first :: after) ∧ first ≠ ')' ∧ first ≠ '"' ∧ first ≠ '\'' := by
  simp only [← argument?_eq_some_iff]
  unfold isDynamicCall
  split
  · next first after read =>
    simp only [Bool.and_eq_true, bne_iff_ne, ne_eq]
    constructor
    · rintro ⟨⟨double, single⟩, closing⟩
      exact ⟨first, after, read, closing, double, single⟩
    · rintro ⟨other, rest, same, closing, double, single⟩
      obtain ⟨rfl, rfl⟩ := List.cons.inj (Option.some.inj (read.symm.trans same))
      exact ⟨⟨double, single⟩, closing⟩
  · next none =>
    refine iff_of_false (by simp) ?_
    rintro ⟨first, after, read, -⟩
    exact none first after read

theorem hasDynamicCallAfter_iff (before source : List Char) :
    hasDynamicCallAfter before.getLast? source = true ↔
      ∃ front rest, source = front ++ rest ∧ atBoundary (before ++ front).getLast? = true ∧
        isDynamicCall rest = true := by
  induction source generalizing before with
  | nil =>
    refine iff_of_false (by simp [hasDynamicCallAfter]) ?_
    rintro ⟨front, rest, empty, -, dynamic⟩
    obtain ⟨-, rfl⟩ := List.append_eq_nil_iff.1 empty.symm
    cases dynamic
  | cons c tail ih =>
    have next := ih (before ++ [c])
    rw [List.getLast?_concat] at next
    rw [hasDynamicCallAfter, Bool.or_eq_true, Bool.and_eq_true, next]
    constructor
    · rintro (⟨boundary, dynamic⟩ | ⟨front, rest, rfl, boundary, dynamic⟩)
      · exact ⟨[], c :: tail, rfl, by simpa using boundary, dynamic⟩
      · exact ⟨c :: front, rest, rfl, by simpa using boundary, dynamic⟩
    · rintro ⟨front, rest, shape, boundary, dynamic⟩
      cases front with
      | nil =>
        obtain rfl := shape
        exact .inl ⟨by simpa using boundary, dynamic⟩
      | cons d front =>
        obtain ⟨rfl, rfl⟩ := List.cons.inj shape
        exact .inr ⟨front, rest, rfl, by simpa using boundary, dynamic⟩

/-- A source has a dynamic call exactly if one of its calls begins without a quote. -/
theorem hasDynamicCall_iff {source : String} :
    hasDynamicCall source = true ↔ ∃ before, IsComputed source.toList before := by
  have found := hasDynamicCallAfter_iff [] source.toList
  rw [hasDynamicCall]
  refine found.trans ?_
  constructor
  · rintro ⟨before, rest, shape, boundary, dynamic⟩
    obtain ⟨first, after, opens, closing, double, single⟩ := isDynamicCall_iff.1 dynamic
    exact ⟨before, first, ⟨boundary, closing, rest, after, shape, opens⟩, double, single⟩
  · rintro ⟨before, first, ⟨boundary, closing, rest, after, shape, opens⟩, double, single⟩
    exact ⟨before, rest, shape, boundary,
      isDynamicCall_iff.2 ⟨first, after, opens, closing, double, single⟩⟩

/-! ## Extracted calls -/

/-- The literal call that starts behind `before` is cut out with its request. -/
def Extracted (source : String) (before : List Char) (request : String) : Prop :=
  ∃ front text body back, pieces source = front ++ .call text body :: back ∧
    front.flatMap Piece.text = before ∧ request = String.ofList body

/-- The place behind `before` lies inside a literal call that is cut out and starts earlier. -/
def Within (source : String) (before : List Char) : Prop :=
  ∃ front text body back, pieces source = front ++ .call text body :: back ∧
    (front.flatMap Piece.text).length < before.length ∧
    before.length < (front.flatMap Piece.text).length + text.length

/-- A literal call is written in a source behind `before`. -/
def WritesCall (source before : List Char) : Prop :=
  ∃ text request after, IsLiteralCall text request ∧ source = before ++ (text ++ after)

theorem Extracted.mem_requests {source : String} {before : List Char} {request : String}
    (extracted : Extracted source before request) : request ∈ requests source := by
  obtain ⟨front, text, body, back, shape, -, rfl⟩ := extracted
  rw [requests_eq, shape]
  simp [Piece.request?]

/-- What is cut from a place on. -/
theorem Cut.drop {before source : List Char} {front back : List Piece}
    (cut : Cut before source (front ++ back)) :
    ∃ rest, source = front.flatMap Piece.text ++ rest ∧
      Cut (before ++ front.flatMap Piece.text) rest back := by
  induction front generalizing before source with
  | nil => exact ⟨source, rfl, by simpa using cut⟩
  | cons piece front ih =>
    cases cut with
    | call stands shape tail =>
      obtain ⟨rest, rfl, left⟩ := ih tail
      refine ⟨rest, by simpa [Piece.text] using shape, ?_⟩
      simpa [Piece.text] using left
    | plain none tail =>
      obtain ⟨rest, rfl, left⟩ := ih tail
      exact ⟨rest, by simp [Piece.text], by simpa [Piece.text] using left⟩

/-- Every place of a source is the start of a piece, or lies inside a call that starts earlier. -/
theorem Cut.place {before source front rest : List Char} {cut : List Piece}
    (isCut : Cut before source cut) (shape : source = front ++ rest) :
    (∃ done todo, cut = done ++ todo ∧ done.flatMap Piece.text = front) ∨
      ∃ done text request todo, cut = done ++ .call text request :: todo ∧
        (done.flatMap Piece.text).length < front.length ∧
        front.length < (done.flatMap Piece.text).length + text.length := by
  induction isCut generalizing front with
  | done before =>
    obtain ⟨rfl, -⟩ := List.append_eq_nil_iff.1 shape.symm
    exact .inl ⟨[], [], rfl, rfl⟩
  | @call before source text request behind cut stands whole tail ih =>
    by_cases start : front = []
    · exact .inl ⟨[], _, rfl, start.symm⟩
    · by_cases inside : front.length < text.length
      · exact .inr ⟨[], text, request, cut, rfl, by simpa [List.length_pos_iff] using start,
          by simpa using inside⟩
      · -- The place lies behind the call, so the rest of the cut tells.
        obtain ⟨later, rfl⟩ : text <+: front :=
          List.prefix_of_prefix_length_le ⟨behind, whole.symm⟩ ⟨rest, shape.symm⟩ (by omega)
        have left : behind = later ++ rest := by
          rw [whole, List.append_assoc] at shape
          exact List.append_cancel_left shape
        rcases ih left with ⟨done, todo, rfl, same⟩ | ⟨done, other, body, todo, rfl, low, high⟩
        · exact .inl ⟨.call text request :: done, todo, rfl, by simp [Piece.text, same]⟩
        · refine .inr ⟨.call text request :: done, other, body, todo, rfl, ?_, ?_⟩
          · simpa [Piece.text] using low
          · simp only [List.flatMap_cons, Piece.text, List.length_append]
            omega
  | @plain before behind c cut none tail ih =>
    cases front with
    | nil => exact .inl ⟨[], _, rfl, rfl⟩
    | cons d front =>
      obtain ⟨rfl, left⟩ := List.cons.inj shape
      rcases ih left with ⟨done, todo, rfl, rfl⟩ | ⟨done, other, body, todo, rfl, low, high⟩
      · exact .inl ⟨.plain c :: done, todo, rfl, by simp [Piece.text]⟩
      · refine .inr ⟨.plain c :: done, other, body, todo, rfl, ?_, ?_⟩
        · simpa [Piece.text] using low
        · simp only [List.flatMap_cons, Piece.text, List.length_append, List.length_cons,
            List.length_nil]
          omega

/-- A place where a piece starts does not lie inside another piece. -/
theorem not_within {source : String} {front back : List Piece}
    (shape : pieces source = front ++ back) : ¬ Within source (front.flatMap Piece.text) := by
  rintro ⟨others, text, body, rest, same, low, high⟩
  rcases List.append_eq_append_iff.1 (shape.symm.trans same) with
    ⟨more, rfl, -⟩ | ⟨more, rfl, tail⟩
  · simp only [List.flatMap_append, List.length_append] at low
    omega
  · cases more with
    | nil => simp at low
    | cons piece more =>
      obtain ⟨rfl, -⟩ := List.cons.inj tail
      simp only [List.flatMap_append, List.flatMap_cons, Piece.text, List.length_append] at high
      omega

/-- An opened call is extracted exactly if it is a literal call and lies inside no earlier one. -/
theorem extracted_iff {source : String} {before : List Char}
    (boundary : atBoundary before.getLast? = true) :
    (∃ request, Extracted source before request) ↔
      WritesCall source.toList before ∧ ¬ Within source before := by
  constructor
  · rintro ⟨request, front, text, body, back, shape, rfl, rfl⟩
    have isCut := cut_pieces source
    rw [shape] at isCut
    obtain ⟨rest, whole, left⟩ := isCut.drop
    refine ⟨?_, not_within shape⟩
    cases left with
    | call stands split => exact ⟨text, body, _, stands.2.1, by rw [whole, split]⟩
  · rintro ⟨⟨text, body, after, call, whole⟩, outside⟩
    rcases (cut_pieces source).place whole with ⟨done, todo, shape, rfl⟩ | inside
    · have isCut := cut_pieces source
      rw [shape] at isCut
      obtain ⟨rest, split, left⟩ := isCut.drop
      obtain rfl := List.append_cancel_left (whole.symm.trans split)
      have stands : Stands (done.flatMap Piece.text) (text ++ after) text body :=
        ⟨boundary, call, after, rfl⟩
      generalize here : text ++ after = rest at left stands
      cases left with
      | done =>
        obtain ⟨rfl, -⟩ := List.append_eq_nil_iff.1 here
        cases call.head?
      | call others _ tail =>
        obtain ⟨rfl, rfl⟩ := stands.unique others
        exact ⟨_, done, text, body, _, shape, rfl, rfl⟩
      | plain none => exact absurd stands (none text body)
    · exact absurd inside outside

end Bundler.Source
