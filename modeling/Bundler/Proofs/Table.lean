import Bundler.Table
import Mathlib.Data.List.Dedup
import Mathlib.Data.List.Sort
import Std.Data.TreeMap.Lemmas

/-!
# Laws of sorted tables

Keys that compare as equal are one key, so a table is seen through
`Table.contains` and `Table.get?`. Insertion and union are described by what
they do to these two views. `Table.Sorted` says that the entries stand in
increasing key order; every table that grows from the empty one by insertion
has it, and it makes entries and look-ups the same thing.
-/

namespace Bundler.Table

variable {κ : Type u} {β : Type v} [Ord κ]

@[simp] theorem contains_empty (key : κ) : (empty : Table κ β).contains key = false := rfl

@[simp] theorem get?_empty (key : κ) : (empty : Table κ β).get? key = none := rfl

theorem get?_map {γ : Type w} (table : Table κ β) (change : β → γ) (key : κ) :
    (table.map fun _ value => change value).get? key = (table.get? key).map change := by
  obtain ⟨entries⟩ := table
  simp only [map, get?, List.find?_map, Option.map_map]
  rfl

/-- A change of one value takes no key away. -/
theorem isSome_get?_modify (table : Table κ β) (key other : κ) (change : β → β) :
    ((table.modify key change).get? other).isSome = (table.get? other).isSome := by
  rw [modify, get?, get?, Option.isSome_map, Option.isSome_map, List.find?_map, Option.isSome_map]
  congr 2
  funext entry
  simp only [Function.comp_apply]
  split <;> rfl

theorem isSome_get?_of_mem_keys [Std.ReflOrd κ] {table : Table κ β} {key : κ}
    (member : key ∈ table.keys) : (table.get? key).isSome = true := by
  obtain ⟨entry, listed, rfl⟩ := List.mem_map.mp member
  rw [get?, Option.isSome_map, List.find?_isSome]
  exact ⟨entry, listed, by simp⟩

/-- A table has the keys under which it finds something. -/
theorem contains_eq_isSome_get? (table : Table κ β) (key : κ) :
    table.contains key = (table.get? key).isSome := by
  rw [contains, get?, Option.isSome_map, Bool.eq_iff_iff, List.any_eq_true, List.find?_isSome]

theorem contains_cons (key : κ) (entry : κ × β) (rest : List (κ × β)) :
    (Table.mk (entry :: rest)).contains key =
      (compare key entry.1 == .eq || (Table.mk rest).contains key) := rfl

theorem map_insert {γ : Type w} (table : Table κ β) (change : β → γ) (key : κ) (value : β) :
    (table.insert key value).map (fun _ value => change value) =
      (table.map fun _ value => change value).insert key (change value) := by
  obtain ⟨entries⟩ := table
  simp only [map, insert]
  congr 1
  induction entries with
  | nil => rfl
  | cons entry rest ih =>
    obtain ⟨other, held⟩ := entry
    simp only [insertEntry, List.map_cons]
    cases compare key other with
    | lt => rfl
    | eq => rfl
    | gt => rw [List.map_cons, ih]

section Views

variable [Std.TransOrd κ]

/-- The view behind `contains`, for bare entries. -/
private def holdsKey (key : κ) (entries : List (κ × β)) : Bool :=
  entries.any fun entry => compare key entry.1 == .eq

private theorem beq_congr_right {key left right : κ} (same : compare left right = .eq) :
    (compare key left == .eq) = (compare key right == .eq) := by
  rw [Std.TransCmp.congr_right same]

private theorem holdsKey_insertEntry (key other : κ) (value : β) (entries : List (κ × β)) :
    holdsKey key (insertEntry other value entries) =
      (compare key other == .eq || holdsKey key entries) := by
  induction entries with
  | nil => simp [holdsKey, insertEntry]
  | cons entry rest ih =>
    obtain ⟨first, held⟩ := entry
    unfold insertEntry
    split <;> rename_i order
    · rfl
    · simp only [holdsKey, List.any_cons, beq_congr_right order, Bool.or_self_left]
    · simp only [holdsKey, List.any_cons] at ih ⊢
      rw [ih, Bool.or_left_comm]

/-- Insertion adds the inserted key and no other. -/
@[simp] theorem contains_insert (table : Table κ β) (key other : κ) (value : β) :
    (table.insert other value).contains key =
      (compare key other == .eq || table.contains key) :=
  holdsKey_insertEntry key other value table.entries

private theorem holdsKey_mergeEntries (key : κ) (first second : List (κ × β)) :
    holdsKey key (mergeEntries first second) = (holdsKey key first || holdsKey key second) := by
  fun_induction mergeEntries first second with
  | case1 second => simp [holdsKey]
  | case2 first => simp [holdsKey]
  | case3 key' value rest other held rest' order ih =>
    simp only [holdsKey, List.any_cons] at ih ⊢
    rw [ih, Bool.or_assoc]
  | case4 key' value rest other held rest' order ih =>
    simp only [holdsKey, List.any_cons] at ih ⊢
    rw [ih, beq_congr_right order]
    cases compare key other == .eq <;> simp
  | case5 key' value rest other held rest' order ih =>
    simp only [holdsKey, List.any_cons] at ih ⊢
    rw [ih]
    cases compare key other == .eq <;> simp

/-- A union has the keys of both sides. -/
@[simp] theorem contains_union (first second : Table κ β) (key : κ) :
    (first.union second).contains key = (first.contains key || second.contains key) :=
  holdsKey_mergeEntries key first.entries second.entries

/-- A key that was not inserted is found as before. -/
theorem get?_insert_of_ne (table : Table κ β) {key other : κ} (value : β)
    (different : compare key other ≠ .eq) :
    (table.insert other value).get? key = table.get? key := by
  obtain ⟨entries⟩ := table
  simp only [insert, get?]
  induction entries with
  | nil => simp [insertEntry, different]
  | cons entry rest ih =>
    obtain ⟨first, held⟩ := entry
    unfold insertEntry
    split <;> rename_i order
    · simp [different]
    · have apart : compare key first ≠ .eq := by
        rwa [← Std.TransCmp.congr_right order]
      simp [apart]
    · simp only [List.find?_cons]
      split
      · rfl
      · exact ih

theorem get?_congr (table : Table κ β) {left right : κ} (same : compare left right = .eq) :
    table.get? left = table.get? right := by
  simp only [get?, Std.TransCmp.congr_left same]

/-- What a table answers after an insertion. -/
theorem get?_insert (table : Table κ β) (key other : κ) (value : β) :
    (table.insert other value).get? key =
      if compare key other = .eq then some value else table.get? key := by
  split
  · next same => rw [get?_congr _ same, get?_insert_self]
  · next different => exact get?_insert_of_ne table value different

/-- What a table answers after the value of one key was changed. -/
theorem get?_modify (table : Table κ β) (key other : κ) (change : β → β) :
    (table.modify key change).get? other =
      if compare other key = .eq then (table.get? other).map change else table.get? other := by
  obtain ⟨entries⟩ := table
  rw [modify, get?, get?, List.find?_map, Option.map_map]
  have sameKeys : ((fun entry : κ × β => compare other entry.1 == .eq) ∘ fun entry =>
      if (compare key entry.1 == .eq) = true then (entry.1, change entry.2) else entry) =
        fun entry => compare other entry.1 == .eq := by
    funext entry
    simp only [Function.comp_apply]
    split <;> rfl
  rw [sameKeys]
  cases found : entries.find? fun entry => compare other entry.1 == .eq with
  | none => simp
  | some entry =>
    have equal : compare other entry.1 = .eq := by simpa using List.find?_some found
    have turned : compare key entry.1 = .eq ↔ compare other key = .eq := by
      rw [← Std.TransCmp.congr_right equal, Std.OrientedCmp.eq_comm]
    by_cases same : compare other key = .eq
    · simp [turned, same]
    · simp [turned, same]

/-- Keys that compare as equal are erased together, and no others. -/
theorem get?_erase (table : Table κ β) (key other : κ) :
    (table.erase other).get? key = if compare key other = .eq then none else table.get? key := by
  obtain ⟨entries⟩ := table
  rw [erase, get?, get?, List.find?_filter]
  split
  · next same =>
    rw [Option.map_eq_none_iff, List.find?_eq_none]
    intro entry _
    simp [Std.TransCmp.congr_left same]
  · next different =>
    congr 2
    funext entry
    by_cases found : compare key entry.1 = .eq
    · have kept : compare other entry.1 ≠ .eq := by
        rw [← Std.TransCmp.congr_right found]
        exact fun same => different (Std.OrientedCmp.eq_symm same)
      simp [found, kept]
    · simp [found]

@[simp] theorem contains_erase (table : Table κ β) (key other : κ) :
    (table.erase other).contains key = (compare key other != .eq && table.contains key) := by
  rw [contains_eq_isSome_get?, contains_eq_isSome_get?, get?_erase]
  split <;> simp [*]

/-- An insertion under a key that is not there yet. -/
theorem get?_insert_of_absent (table : Table κ β) (key other : κ) (value : β) :
    (if table.contains other then table else table.insert other value).get? key =
      (table.get? key).or (if compare key other = .eq then some value else none) := by
  rw [contains_eq_isSome_get?]
  cases found : table.get? other with
  | some held =>
    by_cases same : compare key other = .eq
    · simp [table.get?_congr same, found]
    · simp [same]
  | none =>
    simp only [Option.isSome_none, Bool.false_eq_true, if_false, get?_insert]
    by_cases same : compare key other = .eq
    · simp [table.get?_congr same, found, same]
    · simp [same]

end Views

/-! ## Order -/

/-- The entries stand in increasing key order. -/
def Sorted (table : Table κ β) : Prop :=
  table.entries.Pairwise fun left right => compare left.1 right.1 = .lt

theorem sorted_empty : (empty : Table κ β).Sorted := List.Pairwise.nil

/-- A property of all values is kept by an insertion of a value that has it. -/
theorem forall_values_insert {table : Table κ β} {key : κ} {value : β} {holds : β → Prop}
    (all : ∀ entry ∈ table.entries, holds entry.2) (new : holds value) :
    ∀ entry ∈ (table.insert key value).entries, holds entry.2 := by
  obtain ⟨entries⟩ := table
  simp only [Table.insert] at all ⊢
  induction entries with
  | nil => simpa [insertEntry] using new
  | cons head rest ih =>
    obtain ⟨first, others⟩ := List.forall_mem_cons.1 all
    unfold insertEntry
    split
    · exact List.forall_mem_cons.2 ⟨new, all⟩
    · exact List.forall_mem_cons.2 ⟨new, others⟩
    · exact List.forall_mem_cons.2 ⟨first, ih others⟩

theorem Sorted.erase {table : Table κ β} (sorted : table.Sorted) (key : κ) :
    (table.erase key).Sorted := List.Pairwise.filter _ sorted

theorem Sorted.modify {table : Table κ β} (sorted : table.Sorted) (key : κ) (change : β → β) :
    (table.modify key change).Sorted := by
  refine List.pairwise_map.2 (sorted.imp fun {left right} less => ?_)
  split <;> split <;> exact less

private theorem fst_of_mem_insertEntry {key : κ} {value : β} {entries : List (κ × β)}
    {entry : κ × β} (member : entry ∈ insertEntry key value entries) :
    entry.1 = key ∨ ∃ old ∈ entries, entry.1 = old.1 := by
  induction entries with
  | nil => exact .inl (congrArg Prod.fst (List.mem_singleton.1 member))
  | cons head rest ih =>
    obtain ⟨other, held⟩ := head
    unfold insertEntry at member
    split at member
    · rcases List.mem_cons.1 member with rfl | member
      · exact .inl rfl
      · exact .inr ⟨entry, member, rfl⟩
    · rcases List.mem_cons.1 member with rfl | member
      · exact .inr ⟨_, List.mem_cons_self, rfl⟩
      · exact .inr ⟨entry, List.mem_cons_of_mem _ member, rfl⟩
    · rcases List.mem_cons.1 member with rfl | member
      · exact .inr ⟨_, List.mem_cons_self, rfl⟩
      · exact (ih member).imp_right fun ⟨old, inside, same⟩ =>
          ⟨old, List.mem_cons_of_mem _ inside, same⟩

/-- A key below all entries is none of them. -/
theorem contains_eq_false_of_lt {entries : List (κ × β)} {key : κ}
    (above : ∀ entry ∈ entries, compare key entry.1 = .lt) :
    (Table.mk entries).contains key = false := by
  refine List.any_eq_false.2 fun entry member => ?_
  simp [above entry member]

private theorem fst_of_mem_mergeEntries {first second : List (κ × β)} {entry : κ × β}
    (member : entry ∈ mergeEntries first second) :
    (∃ old ∈ first, entry.1 = old.1) ∨ ∃ old ∈ second, entry.1 = old.1 := by
  fun_induction mergeEntries first second with
  | case1 second => exact .inr ⟨entry, member, rfl⟩
  | case2 first => exact .inl ⟨entry, member, rfl⟩
  | case3 key value first other held second order ih =>
    rcases List.mem_cons.1 member with rfl | later
    · exact .inl ⟨_, List.mem_cons_self, rfl⟩
    · exact (ih later).imp_left fun ⟨old, inside, same⟩ =>
        ⟨old, List.mem_cons_of_mem _ inside, same⟩
  | case4 key value first other held second order ih =>
    rcases List.mem_cons.1 member with rfl | later
    · exact .inl ⟨_, List.mem_cons_self, rfl⟩
    · exact (ih later).imp
        (fun ⟨old, inside, same⟩ => ⟨old, List.mem_cons_of_mem _ inside, same⟩)
        (fun ⟨old, inside, same⟩ => ⟨old, List.mem_cons_of_mem _ inside, same⟩)
  | case5 key value first other held second order ih =>
    rcases List.mem_cons.1 member with rfl | later
    · exact .inr ⟨_, List.mem_cons_self, rfl⟩
    · exact (ih later).imp_right fun ⟨old, inside, same⟩ =>
        ⟨old, List.mem_cons_of_mem _ inside, same⟩

section Insertion

variable [Std.TransOrd κ]

/-- Insertion keeps the order. -/
theorem Sorted.insert {table : Table κ β} (sorted : table.Sorted) (key : κ) (value : β) :
    (table.insert key value).Sorted := by
  obtain ⟨entries⟩ := table
  simp only [Sorted, Table.insert] at sorted ⊢
  induction entries with
  | nil => simp [insertEntry]
  | cons head rest ih =>
    obtain ⟨other, held⟩ := head
    obtain ⟨above, tail⟩ := List.pairwise_cons.1 sorted
    unfold insertEntry
    split <;> rename_i order
    · refine List.pairwise_cons.2 ⟨fun entry member => ?_, sorted⟩
      rcases List.mem_cons.1 member with rfl | member
      · exact order
      · exact Std.TransCmp.lt_trans order (above entry member)
    · exact List.pairwise_cons.2 ⟨above, tail⟩
    · refine List.pairwise_cons.2 ⟨fun entry member => ?_, ih tail⟩
      rcases fst_of_mem_insertEntry member with same | ⟨old, inside, same⟩
      · rw [same]
        exact Std.OrientedCmp.lt_of_gt order
      · rw [same]
        exact above old inside

/-- The union of tables in order is in order. -/
theorem Sorted.union {left right : Table κ β} (leftSorted : left.Sorted)
    (rightSorted : right.Sorted) : (left.union right).Sorted := by
  obtain ⟨first⟩ := left
  obtain ⟨second⟩ := right
  simp only [Sorted, Table.union] at leftSorted rightSorted ⊢
  fun_induction mergeEntries first second with
  | case1 second => exact rightSorted
  | case2 first => exact leftSorted
  | case3 key value first other held second order ih =>
    obtain ⟨above, tail⟩ := List.pairwise_cons.1 leftSorted
    obtain ⟨aboveOther, -⟩ := List.pairwise_cons.1 rightSorted
    refine List.pairwise_cons.2 ⟨fun entry member => ?_, ih tail rightSorted⟩
    rcases fst_of_mem_mergeEntries member with ⟨old, inside, same⟩ | ⟨old, inside, same⟩
    · exact same ▸ above old inside
    · rcases List.mem_cons.1 inside with rfl | later
      · exact same ▸ order
      · exact same ▸ Std.TransCmp.lt_trans order (aboveOther old later)
  | case4 key value first other held second order ih =>
    obtain ⟨above, tail⟩ := List.pairwise_cons.1 leftSorted
    obtain ⟨aboveOther, tailOther⟩ := List.pairwise_cons.1 rightSorted
    refine List.pairwise_cons.2 ⟨fun entry member => ?_, ih tail tailOther⟩
    rcases fst_of_mem_mergeEntries member with ⟨old, inside, same⟩ | ⟨old, inside, same⟩
    · exact same ▸ above old inside
    · rw [same, Std.TransCmp.congr_left order]
      exact aboveOther old inside
  | case5 key value first other held second order ih =>
    obtain ⟨above, -⟩ := List.pairwise_cons.1 leftSorted
    obtain ⟨aboveOther, tailOther⟩ := List.pairwise_cons.1 rightSorted
    have less := Std.OrientedCmp.lt_of_gt order
    refine List.pairwise_cons.2 ⟨fun entry member => ?_, ih leftSorted tailOther⟩
    rcases fst_of_mem_mergeEntries member with ⟨old, inside, same⟩ | ⟨old, inside, same⟩
    · rcases List.mem_cons.1 inside with rfl | later
      · exact same ▸ less
      · exact same ▸ Std.TransCmp.lt_trans less (above old later)
    · exact same ▸ aboveOther old inside

theorem Sorted.size_insert {table : Table κ β} (sorted : table.Sorted) (key : κ) (value : β) :
    (table.insert key value).size = if table.contains key then table.size else table.size + 1 := by
  obtain ⟨entries⟩ := table
  simp only [Sorted, Table.insert, size] at sorted ⊢
  induction entries with
  | nil => rfl
  | cons head rest ih =>
    obtain ⟨other, held⟩ := head
    obtain ⟨above, tail⟩ := List.pairwise_cons.1 sorted
    rw [contains_cons]
    unfold insertEntry
    split <;> rename_i order
    · have absent := contains_eq_false_of_lt fun entry member =>
        Std.TransCmp.lt_trans order (above entry member)
      simp [order, absent]
    · simp [order]
    · rw [List.length_cons, ih tail]
      by_cases held : (Table.mk rest).contains key = true <;> simp [order, held]

theorem Sorted.size_erase {table : Table κ β} (sorted : table.Sorted) (key : κ) :
    (table.erase key).size + (if table.contains key then 1 else 0) = table.size := by
  obtain ⟨entries⟩ := table
  simp only [Sorted, size] at sorted ⊢
  induction entries with
  | nil => rfl
  | cons head rest ih =>
    obtain ⟨above, tail⟩ := List.pairwise_cons.1 sorted
    have later := ih tail
    rw [contains_cons]
    simp only [Table.erase, List.filter_cons] at later ⊢
    by_cases same : compare key head.1 = .eq
    · have absent := contains_eq_false_of_lt (fun entry member => by
        rw [Std.TransCmp.congr_left same]
        exact above entry member)
      simpa [absent, same] using later
    · have kept : (compare key head.1 != .eq) = true := by simpa using same
      have other : (compare key head.1 == .eq) = false := beq_false_of_ne same
      rw [if_pos kept, other, Bool.false_or, List.length_cons, List.length_cons]
      omega

/-- A table that grows by insertions stays in order. -/
theorem Sorted.foldr_insert {α : Type w} {table : Table κ β} (sorted : table.Sorted)
    (items : List α) (key : α → κ) (value : α → β) :
    (items.foldr (fun item held => held.insert (key item) (value item)) table).Sorted := by
  induction items with
  | nil => exact sorted
  | cons item rest ih => exact ih.insert _ _

/-- Of several insertions under one key the outermost counts. -/
theorem get?_foldr_insert {α : Type w} (table : Table κ β) (items : List α) (key : α → κ)
    (value : α → β) (wanted : κ) :
    (items.foldr (fun item held => held.insert (key item) (value item)) table).get? wanted =
      ((items.find? fun item => compare wanted (key item) == .eq).map value).or
        (table.get? wanted) := by
  induction items with
  | nil => rfl
  | cons item rest ih =>
    rw [List.foldr_cons, get?_insert, List.find?_cons, ih]
    by_cases same : compare wanted (key item) = .eq
    · simp [same]
    · rw [if_neg same, beq_false_of_ne same]

/-- The number of entries is the number of different keys, where `label` tells keys apart. -/
theorem Sorted.size_eq {γ : Type w} [DecidableEq γ] {table : Table κ β} (sorted : table.Sorted)
    (label : κ → γ) (tells : ∀ left right, compare left right = .eq ↔ label left = label right)
    (items : List κ) (holds : ∀ key, table.contains key = true ↔ label key ∈ items.map label) :
    table.size = (items.map label).dedup.length := by
  have distinct : (table.keys.map label).Nodup := by
    rw [keys, List.map_map]
    refine List.pairwise_map.2 (sorted.imp fun {left right} less same => ?_)
    rw [(tells left.1 right.1).2 same] at less
    cases less
  have same : (table.keys.map label).Perm (items.map label).dedup := by
    refine (List.perm_ext_iff_of_nodup distinct (List.nodup_dedup _)).2 fun name => ?_
    rw [List.mem_dedup]
    constructor
    · intro member
      obtain ⟨key, isKey, rfl⟩ := List.mem_map.1 member
      obtain ⟨entry, held, rfl⟩ := List.mem_map.1 isKey
      refine (holds entry.1).1 (List.any_eq_true.2 ⟨entry, held, ?_⟩)
      exact beq_iff_eq.2 Std.ReflOrd.compare_self
    · intro member
      obtain ⟨item, listed, rfl⟩ := List.mem_map.1 member
      obtain ⟨entry, held, equal⟩ := List.any_eq_true.1 ((holds item).2 member)
      rw [(tells item entry.1).1 (beq_iff_eq.1 equal)]
      exact List.mem_map_of_mem (List.mem_map_of_mem held)
  rw [← same.length_eq, List.length_map, keys, List.length_map]
  rfl

/-- The only entry of a sorted table under a key is the one that is found. -/
theorem Sorted.eq_of_get? {table : Table κ β} (sorted : table.Sorted) {key : κ} {value : β}
    (found : table.get? key = some value) {entry : κ × β} (member : entry ∈ table.entries)
    (same : compare key entry.1 = .eq) : entry.2 = value := by
  obtain ⟨entries⟩ := table
  simp only [Sorted, get?] at sorted found member
  induction entries with
  | nil => cases member
  | cons head rest ih =>
    obtain ⟨above, tail⟩ := List.pairwise_cons.1 sorted
    by_cases first : compare key head.1 = .eq
    · have held : head.2 = value := by simpa [first] using found
      rcases List.mem_cons.1 member with rfl | later
      · exact held
      · have less := above entry later
        rw [← Std.TransCmp.congr_left first, same] at less
        cases less
    · rcases List.mem_cons.1 member with rfl | later
      · exact absurd same first
      · exact ih tail (by simpa [first] using found) later

/-- A change that leaves the value of a key as it is leaves a sorted table as it is. -/
theorem Sorted.modify_eq_self {table : Table κ β} (sorted : table.Sorted) {key : κ} {value : β}
    (found : table.get? key = some value) {change : β → β} (same : change value = value) :
    table.modify key change = table := by
  refine congrArg Table.mk ((List.map_congr_left fun entry member => ?_).trans (List.map_id _))
  split
  · next equal =>
    rw [sorted.eq_of_get? found member (beq_iff_eq.1 equal), same,
      ← sorted.eq_of_get? found member (beq_iff_eq.1 equal)]
    rfl
  · rfl

/-- Inserting what is found under a key leaves a sorted table as it is. -/
theorem Sorted.insert_eq_self {table : Table κ β} (sorted : table.Sorted) {key : κ} {value : β}
    (found : table.get? key = some value) : table.insert key value = table := by
  obtain ⟨entries⟩ := table
  refine congrArg Table.mk ?_
  simp only [Sorted, get?] at sorted found
  induction entries with
  | nil => cases found
  | cons head rest ih =>
    obtain ⟨other, held⟩ := head
    obtain ⟨above, tail⟩ := List.pairwise_cons.1 sorted
    unfold insertEntry
    split <;> rename_i order
    · have absent : rest.find? (fun entry => compare key entry.1 == .eq) = none := by
        refine List.find?_eq_none.2 fun entry member => ?_
        simp [Std.TransCmp.lt_trans order (above entry member)]
      simp [order, absent] at found
    · have same : held = value := by simpa [order] using found
      rw [same]
    · rw [ih tail (by simpa [order] using found)]

end Insertion

variable [Std.LawfulEqOrd κ]

/-- A sorted table finds exactly its entries. -/
theorem Sorted.get?_eq_some_iff {table : Table κ β} (sorted : table.Sorted) (key : κ)
    (value : β) : table.get? key = some value ↔ (key, value) ∈ table.entries := by
  obtain ⟨entries⟩ := table
  simp only [Sorted, get?] at sorted ⊢
  induction entries with
  | nil => simp
  | cons head rest ih =>
    obtain ⟨other, held⟩ := head
    obtain ⟨above, tail⟩ := List.pairwise_cons.1 sorted
    by_cases same : key = other
    · subst same
      have apart : (key, value) ∉ rest := by
        intro member
        simpa using above _ member
      simp [apart, eq_comm]
    · simp [same, ih tail]

theorem mem_keys_iff (table : Table κ β) (key : κ) : key ∈ table.keys ↔ table.contains key = true := by
  rw [keys, contains, List.mem_map, List.any_eq_true]
  refine exists_congr fun entry => and_congr_right' ?_
  rw [beq_iff_eq, Std.LawfulEqCmp.compare_eq_iff_eq, eq_comm]

/-- A key is found as before if nothing under it is dropped. -/
theorem get?_filter (entries : List (κ × β)) {keep : κ × β → Bool} {key : κ}
    (kept : ∀ value, keep (key, value) = true) :
    (Table.mk (entries.filter keep)).get? key = (Table.mk entries).get? key := by
  rw [get?, get?, List.find?_filter]
  congr 2
  funext entry
  by_cases same : key = entry.1
  · obtain rfl := same
    simp [kept entry.2]
  · simp [same]

/-- A filter on keys is seen under every key. -/
theorem get?_filter_keys (table : Table κ β) (keep : κ → Bool) (key : κ) :
    (table.filter fun key _ => keep key).get? key = if keep key then table.get? key else none := by
  by_cases kept : keep key = true
  · rw [if_pos kept]
    exact get?_filter table.entries fun _ => kept
  · rw [if_neg kept, filter, get?, List.find?_filter, Option.map_eq_none_iff, List.find?_eq_none]
    rintro entry - found
    obtain ⟨listed, same⟩ := of_decide_eq_true found
    rw [beq_iff_eq, Std.LawfulEqCmp.compare_eq_iff_eq] at same
    exact kept (same ▸ listed)

/-- The keys of a sorted table are different from each other. -/
theorem Sorted.nodup_keys {table : Table κ β} (sorted : table.Sorted) : table.keys.Nodup := by
  refine List.pairwise_map.2 (sorted.imp ?_)
  intro left right less same
  rw [same] at less
  simp at less

section Extension

variable [Std.TransOrd κ]

/-- Items in increasing order of their keys are listed in one way only. -/
theorem eq_of_pairwise_lt {α : Type w} (key : α → κ) {first second : List α}
    (firstSorted : first.Pairwise fun left right => compare (key left) (key right) = .lt)
    (secondSorted : second.Pairwise fun left right => compare (key left) (key right) = .lt)
    (same : ∀ item, item ∈ first ↔ item ∈ second) : first = second := by
  have irreflexive : Std.Irrefl fun left right : α => compare (key left) (key right) = .lt :=
    ⟨fun item => by simp⟩
  have antisymmetric : Std.Antisymm fun left right : α => compare (key left) (key right) = .lt :=
    ⟨fun left right less greater => by
      rw [Std.OrientedCmp.gt_of_lt less] at greater
      cases greater⟩
  exact firstSorted.eq_of_mem_iff secondSorted same

/-- Sorted tables with the same keys list them alike. -/
theorem Sorted.keys_eq {γ : Type w} {left : Table κ β} {right : Table κ γ} (leftSorted : left.Sorted)
    (rightSorted : right.Sorted) (same : ∀ key, key ∈ left.keys ↔ key ∈ right.keys) :
    left.keys = right.keys :=
  eq_of_pairwise_lt id (List.pairwise_map.2 leftSorted) (List.pairwise_map.2 rightSorted) same

/-- Sorted tables with the same values are the same. -/
theorem Sorted.ext {left right : Table κ β} (leftSorted : left.Sorted)
    (rightSorted : right.Sorted) (same : ∀ key, left.get? key = right.get? key) : left = right := by
  refine congrArg Table.mk (eq_of_pairwise_lt Prod.fst leftSorted rightSorted fun entry => ?_)
  rw [← leftSorted.get?_eq_some_iff, same, rightSorted.get?_eq_some_iff]

end Extension

/-- A change that may depend on the key is seen under that key. -/
theorem get?_map_key {γ : Type w} (table : Table κ β) (change : κ → β → γ) (key : κ) :
    (table.map change).get? key = (table.get? key).map (change key) := by
  rw [map, get?, get?, List.find?_map, Option.map_map, Option.map_map]
  change (table.entries.find? fun entry => compare key entry.1 == .eq).map _ = _
  cases found : table.entries.find? fun entry => compare key entry.1 == .eq with
  | none => rfl
  | some entry =>
    have same : key = entry.1 := by simpa using List.find?_some found
    simp [same]

/-- An insertion brings in nothing but the new entry. -/
theorem mem_entries_of_mem_insert {table : Table κ β} {key : κ}
    {value : β} {entry : κ × β} (member : entry ∈ (table.insert key value).entries) :
    entry = (key, value) ∨ entry ∈ table.entries := by
  obtain ⟨entries⟩ := table
  simp only [insert] at member ⊢
  induction entries with
  | nil => simpa [insertEntry] using member
  | cons head rest ih =>
    obtain ⟨other, held⟩ := head
    unfold insertEntry at member
    split at member
    · simpa using member
    · next same =>
      obtain rfl := Std.LawfulEqCmp.eq_of_compare same
      rcases List.mem_cons.1 member with new | old
      · exact .inl new
      · exact .inr (List.mem_cons_of_mem _ old)
    · rcases List.mem_cons.1 member with first | later
      · exact .inr (first ▸ List.mem_cons_self)
      · exact (ih later).imp_right (List.mem_cons_of_mem _)

theorem mem_entries_of_get? {table : Table κ β} {key : κ} {value : β}
    (found : table.get? key = some value) : (key, value) ∈ table.entries := by
  obtain ⟨entry, search, rfl⟩ := Option.map_eq_some_iff.1 found
  have same := List.find?_some search
  have equal : key = entry.1 := by simpa using same
  rw [equal]
  exact List.mem_of_find?_eq_some search

variable [Std.TransOrd κ]

private theorem mem_insertEntry {key : κ} {value : β} {entries : List (κ × β)}
    (sorted : entries.Pairwise fun left right => compare left.1 right.1 = .lt)
    (entry : κ × β) :
    entry ∈ insertEntry key value entries ↔
      entry = (key, value) ∨ entry ∈ entries ∧ entry.1 ≠ key := by
  induction entries with
  | nil => simp [insertEntry]
  | cons head rest ih =>
    obtain ⟨other, held⟩ := head
    obtain ⟨above, sorted⟩ := List.pairwise_cons.1 sorted
    unfold insertEntry
    split <;> rename_i order
    · have apart : ∀ entry ∈ (other, held) :: rest, entry.1 ≠ key := by
        rintro entry member rfl
        rcases List.mem_cons.1 member with rfl | member
        · simp at order
        · have less := Std.TransCmp.lt_trans order (above entry member)
          simp at less
      grind
    · obtain rfl := Std.LawfulEqCmp.eq_of_compare order
      have apart : ∀ entry ∈ rest, entry.1 ≠ key := by
        rintro entry member rfl
        simpa using above entry member
      grind
    · have apart : other ≠ key := by
        rintro rfl
        simp at order
      simp only [List.mem_cons, ih sorted]
      grind

/-- The entries after an insertion: the new one, and the old ones of other keys. -/
theorem mem_entries_insert {table : Table κ β} (sorted : table.Sorted) (key : κ) (value : β)
    (entry : κ × β) :
    entry ∈ (table.insert key value).entries ↔
      entry = (key, value) ∨ entry ∈ table.entries ∧ entry.1 ≠ key :=
  mem_insertEntry sorted entry

end Bundler.Table
