import Bundler.Fingerprint.Graph
import Std.Data.TreeSet.Lemmas
import Mathlib.Data.Fintype.Card
import Mathlib.Logic.Relation

/-!
# Depth-first search

`Search.Sound` is what holds of a search at any time, with the vertices under
way on a stack. Its main part is about edges that lead to a vertex finished
later: the target of such an edge reaches all that was finished in between,
since it was on the stack meanwhile. From this follow that `reach` finds the
reachable vertices, and `finishOrder_between` on the order of finishing.
-/

namespace Bundler.Graph

variable {edges : Array (List Nat)}

def Edge (edges : Array (List Nat)) (source target : Nat) : Prop := target ∈ edges[source]?.getD []

/-- There is a path from one vertex to another, perhaps an empty one. -/
def Reaches (edges : Array (List Nat)) : Nat → Nat → Prop := Relation.ReflTransGen (Edge edges)

/-- No edge leaves the graph. -/
def Closed (edges : Array (List Nat)) : Prop :=
  ∀ source target, Edge edges source target → target < edges.size

/-- The number of vertices up to this one in the order of finishing; zero for
a vertex that is not finished. -/
def rank (finished : List Nat) (vertex : Nat) : Nat := finished.length - finished.idxOf vertex

theorem rank_cons_self (vertex : Nat) (finished : List Nat) :
    rank (vertex :: finished) vertex = finished.length + 1 := by
  simp [rank]

theorem rank_cons_of_ne {vertex other : Nat} (finished : List Nat) (different : other ≠ vertex) :
    rank (vertex :: finished) other = rank finished other := by
  simp [rank, List.idxOf_cons_ne finished different.symm]

theorem rank_le_length (finished : List Nat) (vertex : Nat) :
    rank finished vertex ≤ finished.length :=
  Nat.sub_le _ _

theorem rank_lt_newest (finished : List Nat) (vertex other : Nat) :
    rank finished other < rank (vertex :: finished) vertex := by
  rw [rank_cons_self]
  exact Nat.lt_succ_of_le (rank_le_length finished other)

/-- What is known of an edge from a finished vertex: its target reaches all that
was finished from the source on, up to the target itself. -/
def Covered (edges : Array (List Nat)) (stack finished : List Nat) (source target : Nat) : Prop :=
  (target ∈ finished ∧ ∀ vertex ∈ finished, rank finished source ≤ rank finished vertex →
    rank finished vertex ≤ rank finished target → Reaches edges target vertex) ∨
  (target ∈ stack ∧ ∀ vertex ∈ finished, rank finished source ≤ rank finished vertex →
    Reaches edges target vertex)

/-- An edge stays covered when another vertex is finished. -/
theorem Covered.leave {stack finished : List Nat} {vertex source target : Nat}
    (covered : Covered edges (vertex :: stack) finished source target) (done : source ∈ finished)
    (unfinished : vertex ∉ finished) (above : ∀ outer ∈ stack, Reaches edges outer vertex) :
    Covered edges stack (vertex :: finished) source target := by
  have older : ∀ {other}, other ∈ finished →
      rank (vertex :: finished) other = rank finished other := by
    intro other done
    exact rank_cons_of_ne _ fun same => unfinished (same ▸ done)
  rcases covered with ⟨targetDone, reaches⟩ | ⟨waits, reaches⟩
  · refine .inl ⟨List.mem_cons_of_mem _ targetDone, fun other member late early => ?_⟩
    rw [older targetDone] at early
    rcases List.mem_cons.1 member with rfl | member
    · have less := rank_lt_newest finished other target
      omega
    · rw [older member] at late early
      rw [older done] at late
      exact reaches other member late early
  · have all : ∀ other ∈ finished,
        rank (vertex :: finished) source ≤ rank (vertex :: finished) other →
        Reaches edges target other := by
      intro other member late
      rw [older member, older done] at late
      exact reaches other member late
    rcases List.mem_cons.1 waits with rfl | deeper
    · refine .inl ⟨List.mem_cons_self, fun other member late _ => ?_⟩
      rcases List.mem_cons.1 member with rfl | member
      · exact .refl
      · exact all other member late
    · refine .inr ⟨deeper, fun other member late => ?_⟩
      rcases List.mem_cons.1 member with rfl | member
      · exact above target deeper
      · exact all other member late

/-- The edges of the vertex that was finished last are covered. -/
theorem covered_of_newest {stack finished : List Nat} {vertex target : Nat}
    (unfinished : vertex ∉ finished) (above : ∀ outer ∈ stack, Reaches edges outer vertex)
    (seen : target ∈ finished ∨ target ∈ vertex :: stack) :
    Covered edges stack (vertex :: finished) vertex target := by
  have onlyItself : ∀ other ∈ vertex :: finished,
      rank (vertex :: finished) vertex ≤ rank (vertex :: finished) other → other = vertex := by
    intro other member late
    by_contra different
    have less := rank_lt_newest finished vertex other
    rw [rank_cons_of_ne _ different] at late
    omega
  rcases seen with done | waits
  · refine .inl ⟨List.mem_cons_of_mem _ done, fun other member late early => ?_⟩
    obtain rfl := onlyItself other member late
    have less := rank_lt_newest finished other target
    have apart : target ≠ other := fun same => unfinished (same ▸ done)
    rw [rank_cons_of_ne finished apart] at early
    omega
  · rcases List.mem_cons.1 waits with rfl | deeper
    · refine .inl ⟨List.mem_cons_self, fun other member late _ => ?_⟩
      obtain rfl := onlyItself other member late
      exact .refl
    · refine .inr ⟨deeper, fun other member late => ?_⟩
      obtain rfl := onlyItself other member late
      exact above target deeper

theorem eq_of_rank_eq {finished : List Nat} {left right : Nat} (leftDone : left ∈ finished)
    (rightDone : right ∈ finished) (same : rank finished left = rank finished right) :
    left = right := by
  have leftBound := List.idxOf_lt_length_of_mem leftDone
  have rightBound := List.idxOf_lt_length_of_mem rightDone
  unfold rank at same
  exact (List.idxOf_inj leftDone).1 (by omega)

/-- Those that were finished after a vertex stand in front of it. -/
theorem rank_lt_iff {newer older : List Nat} {vertex : Nat} (fresh : vertex ∉ newer) (other : Nat) :
    rank (newer ++ vertex :: older) vertex < rank (newer ++ vertex :: older) other ↔
      other ∈ newer := by
  by_cases member : other ∈ newer
  · have bound := List.idxOf_lt_length_of_mem member
    simp only [rank, List.idxOf_append, fresh, member, if_true, if_false, List.idxOf_cons_self,
      List.length_append, List.length_cons, iff_true]
    omega
  · simp only [rank, List.idxOf_append, fresh, member, if_false, List.idxOf_cons_self, iff_false]
    omega

/-- What holds of a search while the vertices on the stack are under way, the
innermost first. -/
structure Search.Sound (edges : Array (List Nat)) (stack : List Nat) (search : Search) : Prop where
  mem_seen : ∀ vertex, vertex ∈ search.seen ↔ vertex ∈ search.finished ∨ vertex ∈ stack
  distinct : (stack ++ search.finished).Nodup
  bounded : ∀ vertex ∈ search.seen, vertex < edges.size
  /-- What is under way was entered from below it. -/
  nested : stack.Pairwise fun inner outer => Reaches edges outer inner
  covered : ∀ source ∈ search.finished, ∀ target, Edge edges source target →
    Covered edges stack search.finished source target

namespace Search.Sound

theorem start (edges : Array (List Nat)) : Sound edges [] {} := by
  constructor <;> simp

/-- Enter a vertex that was not seen. -/
theorem enter {stack : List Nat} {search : Search} (sound : Sound edges stack search)
    {vertex : Nat} (bound : vertex < edges.size) (unseen : vertex ∉ search.seen)
    (linked : ∀ outer ∈ stack, Reaches edges outer vertex) :
    Sound edges (vertex :: stack) { search with seen := search.seen.insert vertex } where
  mem_seen other := by
    have known := sound.mem_seen other
    simp only [Std.TreeSet.mem_insert, Std.LawfulEqCmp.compare_eq_iff_eq, List.mem_cons, known]
    grind
  distinct := by
    rw [sound.mem_seen, not_or] at unseen
    rw [List.cons_append, List.nodup_cons, List.mem_append, not_or]
    exact ⟨⟨unseen.2, unseen.1⟩, sound.distinct⟩
  bounded other member := by
    rcases Std.TreeSet.mem_insert.1 member with same | member
    · rwa [← Std.LawfulEqCmp.eq_of_compare same]
    · exact sound.bounded other member
  nested := List.pairwise_cons.2 ⟨linked, sound.nested⟩
  covered source done target edge := by
    rcases sound.covered source done target edge with held | ⟨waits, reaches⟩
    · exact .inl held
    · exact .inr ⟨List.mem_cons_of_mem _ waits, reaches⟩

/-- Finish the innermost vertex once all its successors are seen. -/
theorem leave {stack : List Nat} {search : Search} {vertex : Nat}
    (sound : Sound edges (vertex :: stack) search)
    (explored : ∀ target, Edge edges vertex target → target ∈ search.seen) :
    Sound edges stack { search with finished := vertex :: search.finished } := by
  obtain ⟨above, nested⟩ := List.pairwise_cons.1 sound.nested
  have unfinished : vertex ∉ search.finished := by
    intro done
    exact (List.nodup_cons.1 sound.distinct).1 (List.mem_append_right _ done)
  refine ⟨fun other => ?_, List.nodup_middle.2 sound.distinct, sound.bounded, nested, ?_⟩
  · have known := sound.mem_seen other
    simp only [List.mem_cons] at known ⊢
    grind
  · rintro source done target edge
    rcases List.mem_cons.1 done with rfl | done
    · exact covered_of_newest unfinished above ((sound.mem_seen target).1 (explored target edge))
    · exact (sound.covered source done target edge).leave done unfinished above

/-- The stack leaves room below the number of vertices. -/
theorem length_le {stack : List Nat} {search : Search} (sound : Sound edges stack search) :
    stack.length ≤ edges.size := by
  have distinct := (List.nodup_append.1 sound.distinct).1
  have within : stack ⊆ List.range edges.size := by
    intro vertex waits
    exact List.mem_range.2 (sound.bounded vertex ((sound.mem_seen vertex).2 (.inr waits)))
  simpa using (distinct.subperm within).length_le

/-- What one visit of a search does: the vertex is seen, nothing is forgotten. -/
structure Visits (edges : Array (List Nat)) (stack : List Nat) (before after : Search)
    (vertices : List Nat) : Prop where
  sound : Sound edges stack after
  kept : ∀ vertex ∈ before.seen, vertex ∈ after.seen
  seen : ∀ vertex ∈ vertices, vertex ∈ after.seen

/-- Visits of several vertices, given that each single one is right. -/
theorem visits_foldl {stack : List Nat} (step : Search → Nat → Search) (vertices : List Nat)
    {search : Search} (sound : Sound edges stack search)
    (single : ∀ search, Sound edges stack search → ∀ vertex ∈ vertices,
      Visits edges stack search (step search vertex) [vertex]) :
    Visits edges stack search (vertices.foldl step search) vertices := by
  induction vertices generalizing search with
  | nil => exact ⟨sound, fun _ member => member, by simp⟩
  | cons vertex rest ih =>
    have first := single search sound vertex List.mem_cons_self
    have others := ih first.sound fun search sound other member =>
      single search sound other (List.mem_cons_of_mem _ member)
    refine ⟨others.sound, fun other member => others.kept other (first.kept other member), ?_⟩
    intro other member
    rcases List.mem_cons.1 member with rfl | member
    · exact others.kept other (first.seen other List.mem_cons_self)
    · exact others.seen other member

/-- A visit is right as long as its fuel exceeds the room on the stack. -/
theorem visit (closed : Closed edges) {fuel : Nat} {stack : List Nat} {search : Search}
    (sound : Sound edges stack search) (enough : edges.size < fuel + stack.length) {vertex : Nat}
    (bound : vertex < edges.size) (linked : ∀ outer ∈ stack, Reaches edges outer vertex) :
    Visits edges stack search (visit edges fuel search vertex) [vertex] := by
  induction fuel generalizing stack search vertex with
  | zero =>
    have room := sound.length_le
    omega
  | succ fuel ih =>
    by_cases known : vertex ∈ search.seen
    · simp only [Graph.visit, known, if_true]
      exact ⟨sound, fun _ member => member, by simpa using known⟩
    · simp only [Graph.visit, known, if_false]
      have entered := sound.enter bound known linked
      have inner := visits_foldl (Graph.visit edges fuel) (edges[vertex]?.getD []) entered ?_
      · refine ⟨inner.sound.leave inner.seen, fun other member => ?_, fun other member => ?_⟩
        · exact inner.kept other (Std.TreeSet.mem_insert.2 (.inr member))
        · obtain rfl := List.mem_singleton.1 member
          exact inner.kept other Std.TreeSet.mem_insert_self
      · intro search sound target edge
        refine ih sound ?_ (closed vertex target edge) ?_
        · rw [List.length_cons]
          omega
        intro outer waits
        rcases List.mem_cons.1 waits with rfl | deeper
        · exact .single edge
        · exact (linked outer deeper).tail edge

/-- With nothing under way, everything that can be reached from a finished
vertex is finished. -/
theorem mem_finished_of_reaches {search : Search} (sound : Sound edges [] search)
    {source target : Nat} (done : source ∈ search.finished)
    (reaches : Reaches edges source target) : target ∈ search.finished := by
  induction reaches with
  | refl => exact done
  | tail _ edge ih =>
    rcases sound.covered _ ih _ edge with ⟨finished, -⟩ | ⟨waits, -⟩
    · exact finished
    · cases waits

end Search.Sound

/-- A search sees only vertices that can be reached from its start or from what
was seen before. -/
theorem seen_visit_subset {within : Nat → Prop}
    (closed : ∀ source target, within source → Edge edges source target → within target)
    (fuel : Nat) {search : Search} (seen : ∀ vertex ∈ search.seen, within vertex) {vertex : Nat}
    (start : within vertex) : ∀ other ∈ (visit edges fuel search vertex).seen, within other := by
  induction fuel generalizing search vertex with
  | zero => exact seen
  | succ fuel ih =>
    by_cases known : vertex ∈ search.seen
    · simpa only [visit, known, if_true] using seen
    · simp only [visit, known, if_false]
      refine List.foldlRecOn (motive := fun search => ∀ other ∈ search.seen, within other)
        (edges[vertex]?.getD []) (visit edges fuel) (fun other member => ?_)
        fun search seen target edge => ih seen (closed vertex target start edge)
      rcases Std.TreeSet.mem_insert.1 member with same | member
      · rwa [← Std.LawfulEqCmp.eq_of_compare same]
      · exact seen other member

/-- What `reach` finds is exactly what can be reached. -/
theorem mem_reach_iff (closed : Closed edges) {source : Nat} (bound : source < edges.size)
    (target : Nat) : target ∈ reach edges source ↔ Reaches edges source target := by
  have visits := (Search.Sound.start edges).visit closed
    (by simp : edges.size < edges.size + 1 + 0) bound (by simp)
  constructor
  · intro member
    exact seen_visit_subset (fun _ _ reaches edge => reaches.tail edge) (edges.size + 1)
      (by simp) .refl target member
  · intro reaches
    have start : source ∈ (visit edges (edges.size + 1) {} source).finished := by
      have seen := visits.seen source List.mem_cons_self
      simpa [visits.sound.mem_seen] using seen
    exact (visits.sound.mem_seen target).2
      (.inl (visits.sound.mem_finished_of_reaches start reaches))

/-! ## The order of finishing -/

theorem sound_finishOrder (closed : Closed edges) :
    Search.Sound.Visits edges [] {}
      ((List.range edges.size).foldl (visit edges (edges.size + 1)) {}) (List.range edges.size) :=
  Search.Sound.visits_foldl _ _ (.start edges) fun _ sound vertex member =>
    sound.visit closed (by simp) (List.mem_range.1 member) (by simp)

theorem nodup_finishOrder (closed : Closed edges) : (finishOrder edges).Nodup := by
  simpa [finishOrder] using (sound_finishOrder closed).sound.distinct

theorem mem_finishOrder (closed : Closed edges) (vertex : Nat) :
    vertex ∈ finishOrder edges ↔ vertex < edges.size := by
  have search := sound_finishOrder closed
  rw [finishOrder, List.mem_reverse]
  constructor
  · intro done
    exact search.sound.bounded vertex ((search.sound.mem_seen vertex).2 (.inl done))
  · intro bound
    have seen := search.seen vertex (List.mem_range.2 bound)
    simpa [search.sound.mem_seen] using seen

/-- A path meets a vertex that is finished no earlier than both its ends and
reaches all that was finished since the start of the path. -/
theorem Search.Sound.exists_latest {search : Search} (sound : Sound edges [] search)
    {source target : Nat} (done : source ∈ search.finished)
    (reaches : Reaches edges source target) :
    ∃ latest ∈ search.finished, Reaches edges source latest ∧
      rank search.finished target ≤ rank search.finished latest ∧
      ∀ vertex ∈ search.finished, rank search.finished source ≤ rank search.finished vertex →
        rank search.finished vertex ≤ rank search.finished latest →
        Reaches edges latest vertex := by
  induction reaches with
  | refl =>
    refine ⟨source, done, .refl, Nat.le_refl _, fun vertex member late early => ?_⟩
    obtain rfl := eq_of_rank_eq member done (Nat.le_antisymm early late)
    exact .refl
  | @tail middle target toMiddle edge ih =>
    obtain ⟨latest, latestDone, toLatest, bound, since⟩ := ih
    by_cases early : rank search.finished target ≤ rank search.finished latest
    · exact ⟨latest, latestDone, toLatest, early, since⟩
    · have middleDone := sound.mem_finished_of_reaches done toMiddle
      rcases sound.covered middle middleDone target edge with ⟨targetDone, between⟩ | ⟨waits, -⟩
      · refine ⟨target, targetDone, toMiddle.tail edge, Nat.le_refl _, fun vertex member late _ => ?_⟩
        by_cases before : rank search.finished vertex ≤ rank search.finished latest
        · exact (between latest latestDone bound (by omega)).trans (since vertex member late before)
        · exact between vertex member (by omega) (by omega)
      · cases waits

/-- If a vertex reaches one that is finished later, it lies on a cycle with one
that is finished later. -/
theorem exists_cycle_of_reaches_later (closed : Closed edges) {before after : List Nat}
    {vertex later : Nat} (split : finishOrder edges = before ++ vertex :: after)
    (member : later ∈ after) (reaches : Reaches edges vertex later) :
    ∃ other ∈ after, Reaches edges vertex other ∧ Reaches edges other vertex := by
  have sound := (sound_finishOrder closed).sound
  have distinct := nodup_finishOrder closed
  obtain ⟨finished, shape⟩ : ∃ finished,
      finished = ((List.range edges.size).foldl (visit edges (edges.size + 1)) {}).finished :=
    ⟨_, rfl⟩
  rw [split, List.nodup_append, List.nodup_cons] at distinct
  have order : finished = after.reverse ++ vertex :: before.reverse := by
    rw [← List.reverse_inj, shape]
    simpa [finishOrder] using split
  have fresh : vertex ∉ after.reverse := by
    rw [List.mem_reverse]
    exact distinct.2.1.1
  obtain ⟨latest, done, toLatest, late, since⟩ :=
    sound.exists_latest (by rw [← shape, order]; simp) reaches
  rw [← shape, order] at late since
  have laterRank := (@rank_lt_iff _ before.reverse _ fresh later).2 (List.mem_reverse.2 member)
  have latestRank := Nat.lt_of_lt_of_le laterRank late
  refine ⟨latest, ?_, toLatest, since vertex (by simp) (Nat.le_refl _) (Nat.le_of_lt latestRank)⟩
  exact List.mem_reverse.1 ((rank_lt_iff fresh latest).1 latestRank)

end Bundler.Graph
