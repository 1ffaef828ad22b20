import Bundler.Path

/-!
# Canonical spellings

An absolute path has one canonical spelling: a slash and its names with a slash
between each two. `Path.ofNames` writes it, and `canonical_normalize` says that
the normal form of an absolute path is spelled so. Parents of canonical paths
are canonical again, and what is joined to an absolute path is absolute.
-/

namespace Bundler

namespace Cut

/-- A segment that stands for a name. -/
structure IsName (segment : String) : Prop where
  noSlash : '/' ∉ segment.toList
  notIdle : isIdle segment = false
  notUp : segment ≠ ".."

theorem segmentsOf_eq_splitOn (text : List Char) : segmentsOf text = text.splitOn '/' := by
  induction text with
  | nil => rfl
  | cons c rest ih =>
    rw [List.splitOn_cons_eq_if_modifyHead, segmentsOf, ih]
    by_cases slash : c = '/'
    · simp [slash]
    · cases segments : rest.splitOn '/' with
      | nil => exact absurd segments (List.splitOn_ne_nil _ _)
      | cons first others => simp [slash]

theorem segmentsOf_ne_nil (text : List Char) : segmentsOf text ≠ [] := by
  rw [segmentsOf_eq_splitOn]
  exact List.splitOn_ne_nil _ _

theorem noSlash_of_mem_segmentsOf {text segment : List Char} (member : segment ∈ segmentsOf text) :
    '/' ∉ segment := by
  induction text generalizing segment with
  | nil => simp_all [segmentsOf]
  | cons c rest ih =>
    unfold segmentsOf at member
    split at member
    · rcases List.mem_cons.1 member with rfl | member
      · simp
      · exact ih member
    · next other =>
      split at member
      · obtain rfl := List.mem_singleton.1 member
        simpa [eq_comm] using other
      · next first others shape =>
        rcases List.mem_cons.1 member with rfl | member
        · have firstPlain := ih (shape ▸ List.mem_cons_self : first ∈ segmentsOf rest)
          simp [firstPlain, Ne.symm other]
        · exact ih (by simp [shape, member])

/-- Segments without slashes are read back from what they write. -/
theorem segmentsOf_intercalate {segments : List String} (some_ : segments ≠ [])
    (plain : ∀ segment ∈ segments, '/' ∉ segment.toList) :
    (segmentsOf ("/".intercalate segments).toList).map String.ofList = segments := by
  rw [segmentsOf_eq_splitOn, String.toList_intercalate]
  have shape : "/".toList = ['/'] := rfl
  rw [shape, List.splitOn_intercalate '/' ?_ (by simpa using some_), List.map_map]
  · simp
  · intro text member
    obtain ⟨segment, inside, rfl⟩ := List.mem_map.1 member
    exact plain segment inside

theorem IsName.componentOf {segment : String} (isName : IsName segment) :
    Cut.componentOf segment = .name segment := by
  simp [Cut.componentOf, isName.notUp]

/-- An absolute text has the root as its lead and segments without slashes. -/
theorem ofText_of_absolute {text : String} (absolute : text.toList.head? = some '/') :
    ∃ segments, ofText text = ⟨.root, segments⟩ ∧ ∀ segment ∈ segments, '/' ∉ segment.toList := by
  obtain ⟨rest, shape⟩ := List.head?_eq_some_iff.1 absolute
  cases cut : segmentsOf rest with
  | nil => exact absurd cut (segmentsOf_ne_nil rest)
  | cons first others =>
    refine ⟨(first :: others).map String.ofList, ?_, fun segment member => ?_⟩
    · simp [ofText, shape, segmentsOf, cut]
    · obtain ⟨text, inside, rfl⟩ := List.mem_map.1 member
      rw [String.toList_ofList]
      exact noSlash_of_mem_segmentsOf (cut ▸ inside)

end Cut

namespace Path

open Cut (IsName)

/-- The path of some names below the root. -/
def ofNames (names : List String) : Path := of ("/" ++ "/".intercalate names)

/-- The path is absolute and in its canonical spelling. -/
def Canonical (path : Path) : Prop := ∃ names, (∀ name ∈ names, IsName name) ∧ path = ofNames names

theorem text_ofNames (names : List String) :
    (ofNames names).text = "/" ++ "/".intercalate names := rfl

theorem isAbsolute_iff (path : Path) :
    path.isAbsolute = true ↔ path.text.toList.head? = some '/' := by
  simp [isAbsolute]

theorem isAbsolute_slash (text : String) : (of ("/" ++ text)).isAbsolute = true := by
  rw [isAbsolute_iff, show (of ("/" ++ text)).text = "/" ++ text from rfl, String.toList_append]
  rfl

/-- Names of a canonical path are its segments; the root has one empty segment. -/
theorem cut_ofNames {names : List String} (plain : ∀ name ∈ names, IsName name) :
    (ofNames names).cut = ⟨.root, if names = [] then [""] else names⟩ := by
  by_cases none : names = []
  · subst none
    rfl
  · have read := Cut.segmentsOf_intercalate none fun name member => (plain name member).noSlash
    have slash : ("/" ++ "/".intercalate names).toList = '/' :: ("/".intercalate names).toList := by
      rw [String.toList_append]
      rfl
    rw [cut, text_ofNames, Cut.ofText, slash, Cut.segmentsOf, if_pos rfl, List.map_cons, read,
      if_neg none]
    cases names with
    | nil => exact absurd rfl none
    | cons first others => rfl

theorem ofNames_inj {left right : List String} (leftPlain : ∀ name ∈ left, IsName name)
    (rightPlain : ∀ name ∈ right, IsName name) (same : ofNames left = ofNames right) :
    left = right := by
  have notEmpty : ¬ IsName "" := fun isName => absurd isName.notIdle (by decide)
  have cuts := congrArg (fun path => path.cut.segments) same
  simp only [cut_ofNames leftPlain, cut_ofNames rightPlain] at cuts
  split at cuts <;> split at cuts
  · simp_all
  · subst cuts
    exact absurd (rightPlain "" (by simp)) notEmpty
  · subst cuts
    exact absurd (leftPlain "" (by simp)) notEmpty
  · exact cuts

theorem components_ofNames {names : List String} (plain : ∀ name ∈ names, IsName name) :
    (ofNames names).components = .root :: names.map .name := by
  have kept : names.filter (fun name => !Cut.isIdle name) = names :=
    List.filter_eq_self.2 fun name member => by simp [(plain name member).notIdle]
  have shape : (ofNames names).components = (ofNames names).cut.components := rfl
  rw [shape, cut_ofNames plain]
  by_cases none : names = []
  · subst none
    rfl
  · rw [if_neg none, Cut.components, kept]
    refine congrArg (Component.root :: ·) (List.map_congr_left fun name member => ?_)
    exact (plain name member).componentOf

/-- Two canonical spellings of one path are the same. -/
theorem Canonical.eq_of_components_eq {left right : Path} (leftCanonical : left.Canonical)
    (rightCanonical : right.Canonical) (same : left.components = right.components) :
    left = right := by
  obtain ⟨names, isName, rfl⟩ := leftCanonical
  obtain ⟨others, isOther, rfl⟩ := rightCanonical
  rw [components_ofNames isName, components_ofNames isOther] at same
  have texts := congrArg (List.map Component.text) (List.cons.inj same).2
  rw [List.map_map, List.map_map] at texts
  exact congrArg ofNames (((List.map_id names).symm.trans texts).trans (List.map_id others))

/-! ## Absolute paths stay absolute -/

theorem isAbsolute_join {base : Path} (absolute : base.isAbsolute = true) (path : Path) :
    (base.join path).isAbsolute = true := by
  obtain ⟨rest, shape⟩ := List.head?_eq_some_iff.1 ((isAbsolute_iff base).1 absolute)
  unfold join
  split
  · assumption
  · split <;> simp [isAbsolute, of, String.toList_append, shape]

theorem isAbsolute_parent {path parent : Path} (absolute : path.isAbsolute = true)
    (isParent : path.parent? = some parent) : parent.isAbsolute = true := by
  obtain ⟨segments, shape, -⟩ := Cut.ofText_of_absolute ((isAbsolute_iff path).1 absolute)
  simp only [parent?, cut, shape] at isParent
  split at isParent
  · cases isParent
  · obtain rfl := Option.some.inj isParent
    exact isAbsolute_slash _

theorem isAbsolute_of_mem_parentChain {count : Nat} {path ancestor : Path}
    (absolute : path.isAbsolute = true) (member : ancestor ∈ parentChain count path) :
    ancestor.isAbsolute = true := by
  induction count generalizing path with
  | zero =>
    obtain rfl := List.mem_singleton.1 member
    exact absolute
  | succ count ih =>
    unfold parentChain at member
    split at member
    · obtain rfl := List.mem_singleton.1 member
      exact absolute
    · next parent isParent =>
      rcases List.mem_cons.1 member with rfl | member
      · exact absolute
      · exact ih (isAbsolute_parent absolute isParent) member

/-! ## Normal forms of absolute paths -/

/-- Folding keeps names above the root. -/
theorem foldl_foldComponent (components : List Component) (names : List String)
    (plain : ∀ name ∈ names, IsName name)
    (known : ∀ component ∈ components, component = .up ∨ ∃ name, IsName name ∧
      component = .name name) :
    ∃ folded : List String, (∀ name ∈ folded, IsName name) ∧
      components.foldl foldComponent (names.map .name ++ [.root]) =
        folded.map .name ++ [.root] := by
  induction components generalizing names with
  | nil => exact ⟨names, plain, rfl⟩
  | cons component rest ih =>
    have others : ∀ component ∈ rest, component = .up ∨ ∃ name, IsName name ∧
        component = .name name := fun other member => known other (List.mem_cons_of_mem _ member)
    rcases known component List.mem_cons_self with rfl | ⟨name, isName, rfl⟩
    · cases names with
      | nil => exact ih [] plain others
      | cons name names => exact ih names (fun other member => plain other (by simp [member])) others
    · refine ih (name :: names) (fun other member => ?_) others
      rcases List.mem_cons.1 member with rfl | member
      · exact isName
      · exact plain other member

/-- The normal form of an absolute path is spelled canonically. -/
theorem canonical_normalize {path : Path} (absolute : path.isAbsolute = true) :
    path.normalize.Canonical := by
  obtain ⟨segments, shape, plain⟩ := Cut.ofText_of_absolute ((isAbsolute_iff path).1 absolute)
  have components : path.components =
      .root :: (segments.filter fun segment => !Cut.isIdle segment).map Cut.componentOf := by
    rw [path.components_eq, shape]
    rfl
  obtain ⟨names, isName, folds⟩ := foldl_foldComponent
    ((segments.filter fun segment => !Cut.isIdle segment).map Cut.componentOf) [] (by simp)
    fun component member => by
      obtain ⟨segment, kept, rfl⟩ := List.mem_map.1 member
      obtain ⟨inside, notIdle⟩ := List.mem_filter.1 kept
      by_cases up : segment = ".."
      · exact .inl (by simp [Cut.componentOf, up])
      · have isName : IsName segment := ⟨plain segment inside, by simpa using notIdle, up⟩
        exact .inr ⟨segment, isName, isName.componentOf⟩
  refine ⟨names.reverse, fun name member => isName name (List.mem_reverse.1 member), ?_⟩
  have shape : path.folded = .root :: names.reverse.map .name := by
    rw [folded, components, List.foldl_cons]
    change (List.foldl foldComponent ([].map .name ++ [.root]) _).reverse = _
    rw [folds, List.reverse_append, ← List.map_reverse]
    rfl
  rw [normalize, shape]
  have texts : (names.reverse.map Component.name).map Component.text = names.reverse := by
    rw [List.map_map]
    exact List.map_id _
  simp only [ofComponents, texts, ofNames]

/-! ## Extending canonical paths -/

theorem intercalate_concat_append (front : List String) (last suffix : String) :
    "/".intercalate (front ++ [last]) ++ suffix = "/".intercalate (front ++ [last ++ suffix]) := by
  by_cases none : front = []
  · subst none
    simp
  · rw [String.intercalate_append_of_ne_nil none (by simp),
      String.intercalate_append_of_ne_nil none (by simp)]
    simp [String.append_assoc]

theorem intercalate_append_slash {names : List String} (some_ : names ≠ []) (name : String) :
    "/".intercalate names ++ "/" ++ name = "/".intercalate (names ++ [name]) := by
  rw [String.intercalate_append_of_ne_nil some_ (by simp)]
  simp

/-- A canonical path with a longer last name is canonical. -/
theorem Canonical.append {path : Path} (canonical : path.Canonical) {suffix : String}
    (noSlash : '/' ∉ suffix.toList) (long : 2 < suffix.toList.length) :
    (of (path.text ++ suffix)).Canonical := by
  obtain ⟨names, plain, rfl⟩ := canonical
  have isName : ∀ stem : String, '/' ∉ stem.toList → IsName (stem ++ suffix) := by
    intro stem stemPlain
    have size : 2 < (stem ++ suffix).toList.length := by
      rw [String.toList_append, List.length_append]
      omega
    refine ⟨by simp [stemPlain, noSlash], ?_, ?_⟩
    · rw [Cut.isIdle, Bool.or_eq_false_iff, beq_eq_false_iff_ne, beq_eq_false_iff_ne]
      constructor <;>
      · intro same
        rw [same] at size
        exact absurd size (by decide)
    · intro same
      rw [same] at size
      exact absurd size (by decide)
  rcases List.eq_nil_or_concat names with rfl | ⟨front, last, rfl⟩
  · exact ⟨[suffix], by simpa using isName "" (by simp), ext_text (by simp [text_ofNames, of])⟩
  · refine ⟨front ++ [last ++ suffix], fun name member => ?_, ext_text ?_⟩
    · rcases List.mem_append.1 member with inFront | isLast
      · exact plain name (by simp [inFront])
      · obtain rfl := List.mem_singleton.1 isLast
        exact isName last (plain last (by simp)).noSlash
    · change (ofNames _).text ++ suffix = (ofNames _).text
      rw [text_ofNames, text_ofNames, String.append_assoc, List.concat_eq_append,
        intercalate_concat_append]

/-- Only the root ends with a slash. -/
theorem getLast?_ofNames {names : List String} (plain : ∀ name ∈ names, IsName name)
    (some_ : names ≠ []) : (ofNames names).text.toList.getLast? ≠ some '/' := by
  rcases List.eq_nil_or_concat names with rfl | ⟨front, last, rfl⟩
  · exact absurd rfl some_
  · rw [List.concat_eq_append] at plain ⊢
    have isName := plain last (by simp)
    have shape := intercalate_concat_append front "" last
    rw [String.empty_append] at shape
    rw [text_ofNames, ← shape, String.toList_append, String.toList_append, ← List.append_assoc,
      List.getLast?_append]
    cases final : last.toList.getLast? with
    | none =>
      have empty : last = "" := by simpa using final
      exact absurd isName.notIdle (by simp [empty, Cut.isIdle])
    | some c =>
      intro slash
      obtain rfl := Option.some.inj slash
      exact isName.noSlash (List.mem_of_getLast? final)

/-- A name below a canonical path is canonical. -/
theorem Canonical.join {path : Path} (canonical : path.Canonical) {name : String}
    (isName : IsName name) : (path.join (of name)).Canonical := by
  obtain ⟨names, plain, rfl⟩ := canonical
  have relative : (of name).isAbsolute = false := by
    rw [Bool.eq_false_iff, ne_eq, isAbsolute_iff]
    intro absolute
    exact isName.noSlash (List.mem_of_head? absolute)
  have notEmpty : (ofNames names).text.isEmpty = false := by
    simp [text_ofNames]
  unfold Path.join
  rw [relative, notEmpty, Bool.false_or, if_neg Bool.false_ne_true]
  by_cases none : names = []
  · subst none
    exact ⟨[name], by simpa using isName, by simp [ofNames, of]⟩
  · have noSlash : ((ofNames names).text.toList.getLast? == some '/') = false := by
      simpa using getLast?_ofNames plain none
    refine ⟨names ++ [name], fun other member => ?_, ?_⟩
    · rcases List.mem_append.1 member with inNames | isLast
      · exact plain other inNames
      · obtain rfl := List.mem_singleton.1 isLast
        exact isName
    · rw [noSlash, if_neg Bool.false_ne_true]
      refine ext_text ?_
      change (ofNames names).text ++ "/" ++ name = (ofNames (names ++ [name])).text
      rw [text_ofNames, text_ofNames, ← intercalate_append_slash none, String.append_assoc,
        String.append_assoc, String.append_assoc]

end Path

end Bundler
