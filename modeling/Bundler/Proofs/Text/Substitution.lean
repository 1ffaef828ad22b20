import Bundler.Proofs.Path.Spelling
import Bundler.Text.Replace

/-!
# Substituting into a template

A template is literal characters and the places of a pattern; substituting a text fills
the places. Distinct texts fill a template with a place differently
(`replaceFrom_injective`), and a text without slashes fills the segments of a template
one by one (`segmentsOf_replaceFrom`).
-/

namespace Bundler.Text

variable {pattern replacement : List Char}

/-- The characters of a template; `none` is a place of the pattern. -/
def places (pattern : List Char) (skip : Nat) : List Char → List (Option Char)
  | [] => []
  | c :: rest =>
    match skip with
    | skip + 1 => places pattern skip rest
    | 0 =>
      if pattern.isPrefixOf (c :: rest) then none :: places pattern (pattern.length - 1) rest
      else some c :: places pattern 0 rest

/-- What one position of a template becomes. -/
def fill (replacement : List Char) : Option Char → List Char
  | none => replacement
  | some c => [c]

theorem replaceFrom_eq_fill (pattern replacement : List Char) (skip : Nat) (text : List Char) :
    replaceFrom pattern replacement skip text =
      (places pattern skip text).flatMap (fill replacement) := by
  induction text generalizing skip with
  | nil => rfl
  | cons c rest ih =>
    cases skip with
    | succ skip => exact ih skip
    | zero =>
      simp only [replaceFrom, places]
      split
      · rw [ih, List.flatMap_cons, fill]
      · rw [ih, List.flatMap_cons, fill, List.singleton_append]

/-- A pattern that occurs has a place. -/
theorem none_mem_places (some_ : pattern ≠ []) {text : List Char}
    (present : occurs pattern text = true) : none ∈ places pattern 0 text := by
  induction text with
  | nil => simp [occurs, some_] at present
  | cons c rest ih =>
    unfold places
    by_cases here : pattern.isPrefixOf (c :: rest) = true
    · simp [here]
    · rw [occurs, Bool.or_eq_true] at present
      have later := ih (present.resolve_left here)
      simp [here, later]

theorem length_filled (replacement : List Char) (template : List (Option Char)) :
    (template.flatMap (fill replacement)).length + template.count none =
      template.length + template.count none * replacement.length := by
  induction template with
  | nil => simp
  | cons position rest ih =>
    cases position with
    | none =>
      simp only [List.flatMap_cons, fill, List.length_append, List.count_cons_self, List.length_cons,
        Nat.add_mul, Nat.one_mul]
      omega
    | some c =>
      simp only [List.flatMap_cons, fill, List.length_append, List.length_cons, List.length_nil]
      rw [List.count_cons_of_ne (by simp)]
      omega

/-- A template with a place is filled differently by different texts. -/
theorem filled_injective {template : List (Option Char)} (place : none ∈ template)
    {left right : List Char} (same : template.flatMap (fill left) = template.flatMap (fill right)) :
    left = right := by
  have long : left.length = right.length := by
    have first := length_filled left template
    have second := length_filled right template
    have positive : 0 < template.count none := List.count_pos_iff.2 place
    rw [same] at first
    exact Nat.eq_of_mul_eq_mul_left positive (by omega)
  induction template with
  | nil => simp at place
  | cons position rest ih =>
    cases position with
    | none => exact (List.append_inj same long).1
    | some c => exact ih (by simpa using place) (List.cons.inj same).2

theorem replaceFrom_injective (some_ : pattern ≠ []) {text left right : List Char}
    (present : occurs pattern text = true)
    (same : replaceFrom pattern left 0 text = replaceFrom pattern right 0 text) : left = right := by
  rw [replaceFrom_eq_fill, replaceFrom_eq_fill] at same
  exact filled_injective (none_mem_places some_ present) same

/-! ## Segments -/

open Cut (segmentsOf)

/-- A text without slashes in front of another one lengthens its first segment. -/
theorem segmentsOf_append {text : List Char} (plain : '/' ∉ text) {rest first : List Char}
    {others : List (List Char)} (segments : segmentsOf rest = first :: others) :
    segmentsOf (text ++ rest) = (text ++ first) :: others := by
  induction text with
  | nil => exact segments
  | cons c text ih =>
    have shape := ih fun member => plain (List.mem_cons_of_mem _ member)
    have other : c ≠ '/' := fun slash => plain (by simp [slash])
    rw [List.cons_append, segmentsOf, if_neg other, shape]
    rfl

/-- A pattern without slashes is looked for in the first segment. -/
theorem isPrefixOf_iff_first (plain : '/' ∉ pattern) {text first : List Char}
    {others : List (List Char)} (segments : segmentsOf text = first :: others) :
    pattern.isPrefixOf text = pattern.isPrefixOf first := by
  induction pattern generalizing text first others with
  | nil => simp
  | cons c pattern ih =>
    have other : c ≠ '/' := fun slash => plain (by simp [slash])
    have rest : '/' ∉ pattern := fun member => plain (List.mem_cons_of_mem _ member)
    cases text with
    | nil =>
      obtain ⟨rfl, -⟩ := List.cons.inj segments
      rfl
    | cons d text =>
      unfold segmentsOf at segments
      split at segments
      · next slash =>
        obtain ⟨rfl, -⟩ := List.cons.inj segments
        rw [List.isPrefixOf_cons_cons, slash, beq_eq_false_iff_ne.2 other, Bool.false_and]
        rfl
      · split at segments
        · next none => exact absurd none (Cut.segmentsOf_ne_nil text)
        · next following more shape =>
          obtain ⟨rfl, -⟩ := List.cons.inj segments
          rw [List.isPrefixOf_cons_cons, List.isPrefixOf_cons_cons, ih rest shape]

/-- A text without slashes is substituted segment by segment. -/
theorem segmentsOf_replaceFrom (patternPlain : '/' ∉ pattern) (some_ : pattern ≠ [])
    (plain : '/' ∉ replacement) {skip : Nat} {text first : List Char} {others : List (List Char)}
    (segments : segmentsOf text = first :: others) (within : skip ≤ first.length) :
    segmentsOf (replaceFrom pattern replacement skip text) =
      replaceFrom pattern replacement skip first ::
        others.map (replaceFrom pattern replacement 0) := by
  induction text generalizing skip first others with
  | nil =>
    obtain ⟨rfl, rfl⟩ := List.cons.inj segments
    rfl
  | cons c rest ih =>
    have start := isPrefixOf_iff_first patternPlain segments
    unfold segmentsOf at segments
    split at segments
    · next slash =>
      -- A slash starts no place and ends the first segment.
      obtain ⟨rfl, rfl⟩ := List.cons.inj segments
      obtain rfl : skip = 0 := by simpa using within
      have noPlace : pattern.isPrefixOf (c :: rest) = false := by
        rw [start]
        cases pattern with
        | nil => exact absurd rfl some_
        | cons => rfl
      cases shape : segmentsOf rest with
      | nil => exact absurd shape (Cut.segmentsOf_ne_nil rest)
      | cons first others =>
        simp only [replaceFrom, noPlace, Bool.false_eq_true, if_false]
        rw [segmentsOf, if_pos slash, ih shape (Nat.zero_le _), List.map_cons]
    · next other =>
      split at segments
      · next none => exact absurd none (Cut.segmentsOf_ne_nil rest)
      · next following more shape =>
        obtain ⟨rfl, rfl⟩ := List.cons.inj segments
        cases skip with
        | succ skip => exact ih shape (by simpa using within)
        | zero =>
          simp only [replaceFrom]
          rw [start]
          split
          · next place =>
            have long : pattern.length - 1 ≤ following.length := by
              have size := (List.isPrefixOf_iff_prefix.1 place).length_le
              simp only [List.length_cons] at size
              omega
            exact segmentsOf_append plain (ih shape long)
          · rw [segmentsOf, if_neg other, ih shape (Nat.zero_le _)]

/-- A pattern without slashes that occurs, occurs in a segment. -/
theorem exists_segment_occurs (plain : '/' ∉ pattern) (some_ : pattern ≠ []) {text : List Char}
    (present : occurs pattern text = true) :
    ∃ segment ∈ segmentsOf text, occurs pattern segment = true := by
  induction text with
  | nil => exact ⟨[], by simp [segmentsOf], present⟩
  | cons c rest ih =>
    cases shape : segmentsOf (c :: rest) with
    | nil => exact absurd shape (Cut.segmentsOf_ne_nil _)
    | cons first others =>
      by_cases here : pattern.isPrefixOf (c :: rest) = true
      · rw [isPrefixOf_iff_first plain shape] at here
        refine ⟨first, List.mem_cons_self, ?_⟩
        cases first with
        | nil => exact absurd (List.prefix_nil.1 (List.isPrefixOf_iff_prefix.1 here)) some_
        | cons d first => rw [occurs, here, Bool.true_or]
      · rw [occurs, Bool.or_eq_true] at present
        obtain ⟨segment, member, inside⟩ := ih (present.resolve_left here)
        unfold segmentsOf at shape
        split at shape
        · obtain ⟨rfl, rfl⟩ := List.cons.inj shape
          exact ⟨segment, List.mem_cons_of_mem _ member, inside⟩
        · split at shape
          · next none => exact absurd none (Cut.segmentsOf_ne_nil rest)
          · next following more segments =>
            obtain ⟨rfl, rfl⟩ := List.cons.inj shape
            rw [segments] at member
            rcases List.mem_cons.1 member with rfl | member
            · refine ⟨c :: segment, List.mem_cons_self, ?_⟩
              rw [occurs, inside, Bool.or_true]
            · exact ⟨segment, List.mem_cons_of_mem _ member, inside⟩

/-- Where a pattern occurs, the substituted text stands in the result. -/
theorem isInfix_replaceFrom (some_ : pattern ≠ []) {text : List Char}
    (present : occurs pattern text = true) (replacement : List Char) :
    replacement <:+: replaceFrom pattern replacement 0 text := by
  obtain ⟨front, back, shape⟩ := List.append_of_mem (none_mem_places some_ present)
  rw [replaceFrom_eq_fill, shape, List.flatMap_append, List.flatMap_cons]
  exact ⟨_, _, List.append_assoc _ _ _⟩

end Bundler.Text
