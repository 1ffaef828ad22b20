import Bundler.Notice.Lookout
import Bundler.Proofs.PathOrder

/-!
# What lookouts hold

A path that matters to a lookout goes from its queue into its burst, and with the burst into a
change set. `Lookout.Holds` says that a path is on its way. It stays there through whatever a
lookout does by itself, until a change set names it; only who closes a lookout takes it away.
-/

namespace Bundler

/-- A change set names a path, in some spelling. -/
def ChangeSet.Names (changes : ChangeSet) (path : Path) : Prop :=
  changes.changed.contains path = true ∨ changes.removed.contains path = true

namespace Lookout

variable {lookout later : Lookout} {path : Path}

/-- The paths of an event that matter to a lookout. -/
def accepted (lookout : Lookout) (event : FileEvent) : List Path :=
  event.touched.filter lookout.filter.accepts

/-- A path that matters to a lookout was not reported yet. -/
def Holds (lookout : Lookout) (path : Path) : Prop :=
  lookout.burst.contains path = true ∨ ∃ event ∈ lookout.queue, path ∈ lookout.accepted event

/-- An open lookout holds what it hears. -/
theorem holds_hear {event : FileEvent} (listens : lookout.isOpen = true)
    (matters : path ∈ lookout.accepted event) : (lookout.hear event).Holds path := by
  rw [hear, if_pos listens]
  exact .inr ⟨event, by simp, matters⟩

/-- What a lookout hears takes nothing from what it holds. -/
theorem Holds.hear (holds : lookout.Holds path) (event : FileEvent) :
    (lookout.hear event).Holds path := by
  rw [Lookout.hear]
  split
  · rcases holds with collected | ⟨earlier, queued, matters⟩
    · exact .inl collected
    · exact .inr ⟨earlier, List.mem_append_left _ queued, matters⟩
  · exact holds

/-- Looking at an event moves its paths into the burst. -/
theorem Holds.look (holds : lookout.Holds path) (looked : lookout.look? = some later) :
    later.Holds path := by
  rw [look?] at looked
  split at looked
  · cases looked
  · rename_i event rest queue
    cases looked
    rcases holds with collected | ⟨other, queued, matters⟩
    · exact .inl (PathSet.contains_addAll_of_contains _ collected)
    · rw [queue, List.mem_cons] at queued
      rcases queued with rfl | queued
      · exact .inl (PathSet.contains_addAll_of_mem _ matters)
      · exact .inr ⟨other, queued, matters⟩

/-- Whether they are there or not, the change set names all touched paths. -/
theorem names_changesOf (isThere : Path → Bool) {touched : PathSet}
    (collected : touched.contains path = true) : (changesOf isThere touched).Names path := by
  obtain ⟨⟨spelled, _⟩, entry, same⟩ := List.any_eq_true.mp collected
  have same := (Path.compare_eq_iff path spelled).mp (beq_iff_eq.mp same)
  have listed : spelled ∈ touched.keys := List.mem_map_of_mem entry
  rw [ChangeSet.Names, PathSet.contains_congr _ same, PathSet.contains_congr _ same]
  cases there : isThere spelled with
  | true =>
      exact .inl (PathSet.contains_ofList_of_mem (List.mem_filter.mpr ⟨listed, there⟩))
  | false =>
      exact .inr (PathSet.contains_ofList_of_mem
        (List.mem_filter.mpr ⟨listed, by rw [there]; rfl⟩))

/-- A burst that is over has reported what was collected, and leaves what was not looked at. -/
theorem Holds.due {isThere : Path → Bool} {changes : ChangeSet} (holds : lookout.Holds path)
    (due : lookout.due? isThere = some (changes, later)) :
    changes.Names path ∨ later.Holds path := by
  rw [due?] at due
  split at due
  · cases due
  · cases due
    rcases holds with collected | queued
    · exact .inl (names_changesOf isThere collected)
    · exact .inr (.inr queued)

theorem not_holds_of_empty (queue : lookout.queue = []) (burst : lookout.burst.isEmpty = true) :
    ¬ lookout.Holds path := by
  rintro (collected | ⟨event, queued, -⟩)
  · rw [Table.contains, List.isEmpty_iff.mp burst] at collected
    cases collected
  · rw [queue] at queued
    cases queued

/-- A lookout that is closed holds nothing. -/
theorem not_holds_close (lookout : Lookout) (path : Path) : ¬ lookout.close.Holds path :=
  not_holds_of_empty rfl rfl

/-- Looking at the events one by one is looking at all of them. -/
theorem lookAtAll_look (looked : lookout.look? = some later) :
    lookout.lookAtAll = later.lookAtAll := by
  rw [look?] at looked
  split at looked
  · cases looked
  · rename_i queue
    cases looked
    rw [lookAtAll, queue]
    rfl

theorem lookAtAll_of_looked (looked : lookout.look? = none) : lookout.lookAtAll = lookout := by
  rw [look?] at looked
  split at looked
  · rename_i queue
    obtain ⟨_, _, _, events, _, _⟩ := lookout
    cases (queue : events = [])
    rfl
  · cases looked

/-! ## Whose lookout it is -/

/-- What a lookout does by itself leaves it to its session, and open if it was. -/
structure Continues (lookout later : Lookout) : Prop where
  session : later.session = lookout.session
  isOpen : later.isOpen = lookout.isOpen

theorem continues_hear (lookout : Lookout) (event : FileEvent) :
    lookout.Continues (lookout.hear event) := by
  rw [hear]
  split <;> exact ⟨rfl, rfl⟩

theorem continues_look (looked : lookout.look? = some later) : lookout.Continues later := by
  rw [look?] at looked
  split at looked <;> cases looked
  exact ⟨rfl, rfl⟩

theorem continues_due {isThere : Path → Bool} {changes : ChangeSet}
    (due : lookout.due? isThere = some (changes, later)) : lookout.Continues later := by
  rw [due?] at due
  split at due <;> cases due
  exact ⟨rfl, rfl⟩

/-! ## Lookouts of a desk -/

/-- What a program may do to the lookouts: open another one, or close one. -/
inductive Moves (lookouts : List Lookout) : List Lookout → Prop where
  | kept : Moves lookouts lookouts
  | opened (fresh : Lookout) : Moves lookouts (lookouts ++ [fresh])
  | closed (position : Nat) : Moves lookouts (lookouts.modify position close)

/-- A lookout that was there is there still, as it was or closed. -/
theorem Moves.getElem? {lookouts after : List Lookout} (moves : Moves lookouts after)
    {position : Nat} (there : lookouts[position]? = some lookout) :
    after[position]? = some lookout ∨ after[position]? = some lookout.close := by
  cases moves with
  | kept => exact .inl there
  | opened fresh =>
      have inside := (List.getElem?_eq_some_iff.mp there).1
      exact .inl (by rw [List.getElem?_append_left inside, there])
  | closed other =>
      rw [List.getElem?_modify, there]
      by_cases same : other = position
      · exact .inr (by simp [same])
      · exact .inl (by simp [same])

end Lookout

end Bundler
