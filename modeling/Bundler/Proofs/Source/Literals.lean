import Bundler.Source.Literal
import Mathlib.Algebra.Group.Nat.Defs

/-!
# Literals read back

A character is written as one element of a literal (`element?_encodeChar`), so whatever follows a
written literal, it is read to its own end and no further, with the code units of its string.
Distinct strings have distinct code units (`units_injective`). `encode_reads_back` puts these
together and adds that no line terminator stands in a literal.
-/

namespace Bundler.Source.Literal

/-! ## Hexadecimal digits -/

theorem hexValue?_hexDigit {digit : Nat} (small : digit < 16) :
    Text.hexValue? (Text.hexDigit digit) = some digit := by
  have all : ∀ digit : Fin 16, Text.hexValue? (Text.hexDigit digit) = some digit.val := by decide
  exact all ⟨digit, small⟩

theorem not_isLineTerminator_hexDigit {digit : Nat} (small : digit < 16) :
    isLineTerminator (Text.hexDigit digit) = false := by
  have all : ∀ digit : Fin 16, isLineTerminator (Text.hexDigit digit) = false := by decide
  exact all ⟨digit, small⟩

theorem hexDigit_ne_brace {digit : Nat} (small : digit < 16) : Text.hexDigit digit ≠ '{' := by
  have all : ∀ digit : Fin 16, Text.hexDigit digit ≠ '{' := by decide
  exact all ⟨digit, small⟩

/-- The digits of a number are read as the number, after those that were read before. -/
theorem digits?_hexFixed (value width more number : Nat) (rest : List Char) :
    digits? value (width + more) (Text.hexFixed width number ++ rest) =
      digits? (value * 16 ^ width + number % 16 ^ width) more rest := by
  induction width generalizing number more rest with
  | zero => simp [Text.hexFixed, Nat.mod_one]
  | succ width ih =>
    have last : number % 16 < 16 := Nat.mod_lt _ (by decide)
    have split : number % 16 ^ (width + 1) = number % 16 + 16 * (number / 16 % 16 ^ width) := by
      rw [Nat.pow_succ', Nat.mod_mul]
    rw [Text.hexFixed, List.append_assoc, Nat.add_right_comm, Nat.add_assoc, ih,
      List.singleton_append, digits?, hexValue?_hexDigit last]
    dsimp only
    congr 1
    rw [split, Nat.pow_succ, Nat.add_mul, Nat.mul_assoc]
    omega

theorem exists_of_mem_hexFixed {width number : Nat} {c : Char}
    (member : c ∈ Text.hexFixed width number) : ∃ digit < 16, c = Text.hexDigit digit := by
  induction width generalizing number with
  | zero => cases member
  | succ width ih =>
    rcases List.mem_append.1 member with front | last
    · exact ih front
    · exact ⟨number % 16, Nat.mod_lt _ (by decide), List.mem_singleton.1 last⟩

/-! ## Elements -/

/-- A number below 2¹⁶ behind `\u`. -/
theorem point?_hexFixed {number : Nat} (small : number < 0x10000) (rest : List Char) :
    point? (Text.hexFixed 4 number ++ rest) = some ([number], rest) := by
  have whole : number % 16 ^ 4 = number := Nat.mod_eq_of_lt (Nat.lt_of_lt_of_eq small (by decide))
  have read := digits?_hexFixed 0 4 0 number rest
  rw [Nat.zero_mul, Nat.zero_add, whole, digits?] at read
  have first : ∃ digit < 16, ∃ tail, Text.hexFixed 4 number = Text.hexDigit digit :: tail :=
    ⟨number / 16 / 16 / 16 % 16, Nat.mod_lt _ (by decide), _, rfl⟩
  obtain ⟨digit, isDigit, tail, shape⟩ := first
  have noBrace := hexDigit_ne_brace isDigit
  rw [shape, List.cons_append] at read ⊢
  unfold point?
  split
  · next same => exact absurd (List.cons.inj same).1 noBrace
  · next same => exact absurd (List.cons.inj same).1 noBrace
  · rw [read]
    rfl

/-- Every character is written as one element of a literal, which reads as the character. -/
theorem element?_encodeChar (c : Char) (rest : List Char) :
    element? (encodeChar c ++ rest) = some (unitsOf c, rest) := by
  unfold encodeChar
  split
  · next quote =>
    subst quote
    rfl
  split
  · next backslash =>
    subst backslash
    rfl
  split
  · next lineFeed =>
    subst lineFeed
    rfl
  split
  · next carriageReturn =>
    subst carriageReturn
    rfl
  split
  · next tab =>
    subst tab
    rfl
  split
  · next control =>
    have small : c.toNat < 0x10000 := by
      rcases control with rfl | rfl | low
      · decide
      · decide
      · omega
    have units : unitsOf c = [c.toNat] := if_pos small
    rw [units, ← point?_hexFixed small rest]
    rfl
  · next quote backslash lineFeed carriageReturn _ control =>
    have plain : isLineTerminator c = false := by
      have line : c ≠ '\u2028' := fun same => control (.inl same)
      have paragraph : c ≠ '\u2029' := fun same => control (.inr (.inl same))
      simp [isLineTerminator, lineFeed, carriageReturn, line, paragraph]
    simp [element?, quote, backslash, plain]

theorem readBody_of_element {text rest : List Char} {units : List Nat}
    (read : element? text = some (units, rest)) :
    readBody text = (readBody rest).map fun (more, after) => (units ++ more, after) := by
  conv => lhs; unfold readBody
  split
  · next others behind same _ =>
    obtain ⟨rfl, rfl⟩ := Prod.mk.inj (Option.some.inj (read.symm.trans same))
    rfl
  · next none =>
    rw [Option.attach_eq_none_iff] at none
    cases read.symm.trans none

/-- Behind its opening quote a written literal is read up to its closing one. -/
theorem readBody_encode (text rest : List Char) :
    readBody (text.flatMap encodeChar ++ '"' :: rest) = some (text.flatMap unitsOf, rest) := by
  induction text with
  | nil =>
    unfold readBody
    rfl
  | cons c text ih =>
    rw [List.flatMap_cons, List.append_assoc, readBody_of_element (element?_encodeChar c _), ih]
    rfl

/-! ## Line terminators -/

theorem not_isLineTerminator_of_mem {c d : Char} (member : d ∈ encodeChar c) :
    isLineTerminator d = false := by
  have short {letter : Char} (plain : isLineTerminator letter = false)
      (inside : d ∈ ['\\', letter]) : isLineTerminator d = false := by
    rcases List.mem_cons.1 inside with rfl | last
    · decide
    · exact List.mem_singleton.1 last ▸ plain
  unfold encodeChar at member
  split at member
  · exact short (by decide) member
  split at member
  · exact short (by decide) member
  split at member
  · exact short (by decide) member
  split at member
  · exact short (by decide) member
  split at member
  · exact short (by decide) member
  split at member
  · rcases List.mem_append.1 member with front | digits
    · exact short (by decide) front
    · obtain ⟨digit, small, rfl⟩ := exists_of_mem_hexFixed digits
      exact not_isLineTerminator_hexDigit small
  · next _ _ lineFeed carriageReturn _ control =>
    obtain rfl := List.mem_singleton.1 member
    have line : d ≠ '\u2028' := fun same => control (.inl same)
    have paragraph : d ≠ '\u2029' := fun same => control (.inr (.inl same))
    simp [isLineTerminator, lineFeed, carriageReturn, line, paragraph]

/-! ## Code units -/

/-- No code point of a character lies among the surrogates. -/
theorem toNat_not_surrogate (c : Char) : c.toNat < 0xd800 ∨ 0xdfff < c.toNat ∧ c.toNat < 0x110000 := by
  rcases c.valid with low | ⟨high, top⟩
  · exact .inl low
  · exact .inr ⟨high, top⟩

/-- The first character of a sequence of code units is determined by it. -/
theorem eq_of_unitsOf_append {left right : Char} {leftRest rightRest : List Nat}
    (same : unitsOf left ++ leftRest = unitsOf right ++ rightRest) :
    left = right ∧ leftRest = rightRest := by
  have leftRange := toNat_not_surrogate left
  have rightRange := toNat_not_surrogate right
  have numbers : left.toNat = right.toNat ∧ leftRest = rightRest := by
    unfold unitsOf unitsOfPoint at same
    split at same <;> split at same
    · simpa using same
    · simp only [List.cons_append, List.cons.injEq] at same
      omega
    · simp only [List.cons_append, List.cons.injEq] at same
      omega
    · simp only [List.cons_append, List.nil_append, List.cons.injEq] at same
      exact ⟨by omega, same.2.2⟩
  exact ⟨Char.toNat_inj.1 numbers.1, numbers.2⟩

theorem unitsOf_ne_nil (c : Char) : unitsOf c ≠ [] := by
  unfold unitsOf unitsOfPoint
  split <;> exact List.cons_ne_nil _ _

/-- A string is determined by its code units. -/
theorem units_injective : Function.Injective units := by
  have lists : ∀ left right : List Char, left.flatMap unitsOf = right.flatMap unitsOf →
      left = right := by
    intro left
    induction left with
    | nil =>
      intro right same
      cases right with
      | nil => rfl
      | cons d right => exact absurd (List.append_eq_nil_iff.1 same.symm).1 (unitsOf_ne_nil d)
    | cons c left ih =>
      intro right same
      cases right with
      | nil => exact absurd (List.append_eq_nil_iff.1 same).1 (unitsOf_ne_nil c)
      | cons d right =>
        obtain ⟨rfl, rest⟩ := eq_of_unitsOf_append same
        rw [ih right rest]
  intro left right same
  exact String.toList_inj.1 (lists _ _ same)

/-! ## Whole literals -/

/-- Whatever follows a written literal, reading it takes exactly the literal and yields the string.
No line terminator stands in it, and distinct strings have distinct literals. -/
theorem encode_reads_back (text : String) :
    (∀ rest, read? ((encode text).toList ++ rest) = some (units text, rest)) ∧
    (encode text).toList.any isLineTerminator = false ∧
    ∀ other, encode text = encode other ↔ text = other := by
  have reads : ∀ text rest, read? ((encode text).toList ++ rest) = some (units text, rest) := by
    intro text rest
    simp only [encode, String.toList_ofList, List.append_assoc, List.cons_append, List.nil_append]
    exact readBody_encode text.toList rest
  refine ⟨reads text, ?_, fun other => ⟨fun same => ?_, congrArg encode⟩⟩
  · simp only [encode, String.toList_ofList, List.any_eq_false, Bool.not_eq_true]
    intro c member
    rcases List.mem_append.1 member with front | closing
    · rcases List.mem_cons.1 front with rfl | inside
      · decide
      · obtain ⟨d, -, written⟩ := List.mem_flatMap.1 inside
        exact not_isLineTerminator_of_mem written
    · obtain rfl := List.mem_singleton.1 closing
      decide
  · have here := reads text []
    rw [same, reads other []] at here
    exact units_injective (Prod.mk.inj (Option.some.inj here)).1.symm

end Bundler.Source.Literal
