import Bundler.Proofs.Fingerprint.Search

/-!
# Units of a graph

`UnitOrder` says what a list of units has to be: the vertices that reach each
other stand together, and an edge leads to the same or to an earlier unit.
`unitOrder_units` says that the units that are picked out of the order of
finishing are such a list.
-/

namespace Bundler.Graph

/-! ## Vertices and edges -/

/-- The vertex of an identifier is a node with that identifier. -/
theorem node_of_vertex? {graph : Graph} {id : String} {vertex : Nat}
    (found : graph.vertex? id = some vertex) :
    ∃ node, graph.nodes[vertex]? = some node ∧ node.id = id := by
  obtain ⟨⟨node, position⟩, last, rfl⟩ := Option.map_eq_some_iff.1 found
  have member := List.mem_filter.1 (List.mem_of_getLast? last)
  exact ⟨node, List.mem_zipIdx_iff_getElem?.1 member.1, by simpa using member.2⟩

theorem isSome_vertex? {graph : Graph} {node : GraphNode} (member : node ∈ graph.nodes) :
    (graph.vertex? node.id).isSome = true := by
  obtain ⟨position, found⟩ := List.mem_iff_getElem?.1 member
  have kept : (node, position) ∈ graph.nodes.zipIdx.filter fun entry => entry.1.id == node.id := by
    simpa using List.mem_zipIdx_iff_getElem?.2 found
  rw [vertex?, Option.isSome_map]
  exact List.getLast?_isSome.2 (List.ne_nil_of_mem kept)

private theorem mem_foldl_once (targets found : List Nat) (vertex : Nat) :
    vertex ∈ targets.foldl (fun found target =>
        if target ∈ found then found else target :: found) found ↔
      vertex ∈ targets ∨ vertex ∈ found := by
  induction targets generalizing found with
  | nil => simp
  | cons target rest ih =>
    rw [List.foldl_cons, ih]
    split <;> grind

/-- A vertex points to a dependency of a node of its identifier. -/
theorem exists_of_mem_successors {graph : Graph} {source target : Nat}
    (edge : target ∈ graph.successors source) :
    ∃ node other, graph.nodes[source]? = some node ∧ other ∈ graph.nodes ∧ other.id = node.id ∧
      ∃ dependency ∈ other.dependencies, graph.vertex? dependency = some target := by
  unfold successors at edge
  split at edge
  · cases edge
  · next node held =>
    split at edge
    · simp only [mem_foldl_once, List.mem_flatMap, List.mem_filterMap, List.not_mem_nil,
        or_false] at edge
      obtain ⟨other, alike, found⟩ := edge
      obtain ⟨isNode, same⟩ := List.mem_filter.1 alike
      exact ⟨node, other, held, isNode, beq_iff_eq.1 same, found⟩
    · cases edge

theorem lt_of_mem_successors {graph : Graph} {source target : Nat}
    (edge : target ∈ graph.successors source) : target < graph.nodes.length := by
  obtain ⟨_, _, _, _, _, dependency, _, found⟩ := exists_of_mem_successors edge
  obtain ⟨node, held, -⟩ := node_of_vertex? found
  exact (List.getElem?_eq_some_iff.1 held).1

/-- A vertex that its own identifier leads to points to its known dependencies. -/
theorem mem_successors {graph : Graph} {source : Nat} {node : GraphNode}
    (held : graph.nodes[source]? = some node) (own : graph.vertex? node.id = some source)
    {dependency : String} (member : dependency ∈ node.dependencies) {target : Nat}
    (found : graph.vertex? dependency = some target) : target ∈ graph.successors source := by
  simp only [successors, held, own, if_true, mem_foldl_once]
  refine .inl (List.mem_flatMap.2 ⟨node, ?_, List.mem_filterMap.2 ⟨dependency, member, found⟩⟩)
  simpa using List.mem_of_getElem? held

@[simp] theorem size_edges (graph : Graph) : graph.edges.size = graph.nodes.length := by
  simp [edges]

theorem edge_iff (graph : Graph) (source target : Nat) :
    Edge graph.edges source target ↔ target ∈ graph.successors source := by
  by_cases bound : source < graph.nodes.length
  · simp [Edge, edges, bound]
  · simp [Edge, edges, bound, successors]

theorem closed_edges (graph : Graph) : Closed graph.edges := by
  intro source target edge
  rw [size_edges]
  exact lt_of_mem_successors ((edge_iff graph source target).1 edge)

/-! ## Classes in an order -/

section Classes

variable {together : Nat → Nat → Bool}

/-- Each unit is the class of its last member, which has no member of that class
behind it. Classes that are complete before are units before. -/
theorem unitsIn_split {passed rest unit : List Nat} {before after : List (List Nat)}
    (split : unitsIn together passed rest = before ++ unit :: after) :
    ∃ front last back, rest = front ++ last :: back ∧
      (∀ vertex ∈ back, together last vertex = false) ∧
      unit = (passed ++ front).filter (together last) ++ [last] ∧
      ∀ left other right, front = left ++ other :: right →
        (∀ vertex ∈ right ++ last :: back, together other vertex = false) →
        ∃ earlier ∈ before, other ∈ earlier := by
  induction rest generalizing passed before with
  | nil => simp [unitsIn] at split
  | cons vertex rest ih =>
    unfold unitsIn at split
    split at split
    · next open_ =>
      obtain ⟨front, last, back, rfl, alone, rfl, complete⟩ := ih split
      refine ⟨vertex :: front, last, back, rfl, alone, by simp, fun left other right shape apart => ?_⟩
      cases left with
      | nil =>
        obtain ⟨rfl, rfl⟩ := List.cons.inj shape
        obtain ⟨later, member, same⟩ := List.any_eq_true.1 open_
        rw [apart later member] at same
        cases same
      | cons first left =>
        obtain ⟨rfl, tail⟩ := List.cons.inj shape
        exact complete left other right tail apart
    · next closed =>
      cases before with
      | nil =>
        obtain ⟨rfl, rfl⟩ := List.cons.inj split
        refine ⟨[], vertex, rest, rfl, fun later member => ?_, by simp, fun left other right shape => ?_⟩
        · by_contra same
          exact closed (List.any_eq_true.2 ⟨later, member, by simpa using same⟩)
        · simp at shape
      | cons first before =>
        obtain ⟨rfl, later⟩ := List.cons.inj split
        obtain ⟨front, last, back, rfl, alone, rfl, complete⟩ := ih later
        refine ⟨vertex :: front, last, back, rfl, alone, by simp, fun left other right shape apart => ?_⟩
        cases left with
        | nil =>
          obtain ⟨rfl, rfl⟩ := List.cons.inj shape
          exact ⟨_, List.mem_cons_self, by simp⟩
        | cons head left =>
          obtain ⟨rfl, tail⟩ := List.cons.inj shape
          obtain ⟨earlier, member, held⟩ := complete left other right tail apart
          exact ⟨earlier, List.mem_cons_of_mem _ member, held⟩

theorem unitsIn_mem {passed rest unit : List Nat} (member : unit ∈ unitsIn together passed rest) :
    ∃ front last back, rest = front ++ last :: back ∧
      (∀ vertex ∈ back, together last vertex = false) ∧
      unit = (passed ++ front).filter (together last) ++ [last] := by
  obtain ⟨before, after, split⟩ := List.append_of_mem member
  obtain ⟨front, last, back, shape, alone, same, -⟩ := unitsIn_split split
  exact ⟨front, last, back, shape, alone, same⟩

variable (symm : ∀ left right, together left right = true → together right left = true)
  (trans : ∀ first second third, together first second = true → together second third = true →
    together first third = true)

include symm trans

/-- What belongs to a class that is complete later is in some unit. -/
theorem exists_unitsIn {passed rest : List Nat} {vertex later : Nat}
    (known : vertex ∈ passed ++ rest) (member : later ∈ rest)
    (same : together later vertex = true) : ∃ unit ∈ unitsIn together passed rest, vertex ∈ unit := by
  induction rest generalizing passed later with
  | nil => cases member
  | cons head rest ih =>
    have known' : vertex ∈ (passed ++ [head]) ++ rest := by simpa using known
    unfold unitsIn
    split
    · next open_ =>
      rcases List.mem_cons.1 member with rfl | member
      · obtain ⟨other, member, linked⟩ := List.any_eq_true.1 open_
        exact ih known' member (trans other later vertex (symm later other linked) same)
      · exact ih known' member same
    · next closed =>
      by_cases own : together head vertex = true
      · refine ⟨_, List.mem_cons_self, ?_⟩
        simp only [List.mem_append, List.mem_cons, List.mem_filter] at known ⊢
        rcases known with before | rfl | after
        · exact .inl ⟨before, own⟩
        · exact .inr (.inl rfl)
        · exact absurd (List.any_eq_true.2 ⟨vertex, after, own⟩) closed
      · have member : later ∈ rest := by
          rcases List.mem_cons.1 member with rfl | member
          · exact absurd same own
          · exact member
        obtain ⟨unit, held, inside⟩ := ih known' member same
        exact ⟨unit, List.mem_cons_of_mem _ held, inside⟩

/-- Units are free of repetition, also among each other. -/
theorem nodup_unitsIn {passed rest : List Nat} (distinct : (passed ++ rest).Nodup)
    (reflexive : ∀ vertex ∈ rest, together vertex vertex = true) :
    (unitsIn together passed rest).flatten.Nodup := by
  induction rest generalizing passed with
  | nil => simp [unitsIn]
  | cons head rest ih =>
    have distinct' : ((passed ++ [head]) ++ rest).Nodup := by simpa using distinct
    have later := ih distinct' fun vertex member => reflexive vertex (List.mem_cons_of_mem _ member)
    unfold unitsIn
    split
    · exact later
    · next closed =>
      have unitNodup : (passed.filter (together head) ++ [head]).Nodup := by
        have start : (passed ++ [head]).Nodup := (List.nodup_append.1 distinct').1
        exact start.sublist (List.filter_sublist.append_right _)
      rw [List.flatten_cons, List.nodup_append]
      refine ⟨unitNodup, later, ?_⟩
      rintro vertex first other second rfl
      obtain ⟨unit, member, inside⟩ := List.mem_flatten.1 second
      obtain ⟨front, last, back, shape, -, rfl⟩ := unitsIn_mem member
      have lastMember : last ∈ rest := by simp [shape]
      have headOwn : together head vertex = true := by
        rcases List.mem_append.1 first with own | own
        · exact (List.mem_filter.1 own).2
        · obtain rfl := List.mem_singleton.1 own
          exact reflexive vertex List.mem_cons_self
      have lastOwn : together last vertex = true := by
        rcases List.mem_append.1 inside with own | own
        · exact (List.mem_filter.1 own).2
        · obtain rfl := List.mem_singleton.1 own
          exact reflexive vertex (List.mem_cons_of_mem _ lastMember)
      exact closed (List.any_eq_true.2
        ⟨last, lastMember, trans head vertex last headOwn (symm last vertex lastOwn)⟩)

end Classes

/-- A list of all vertices in units, each unit a class of vertices that reach
each other and after the units that it points to. -/
structure UnitOrder (graph : Graph) (units : List (List Nat)) : Prop where
  perm : units.flatten.Perm (List.range graph.nodes.length)
  mem_iff : ∀ unit ∈ units, ∀ vertex ∈ unit, ∀ other,
    other ∈ unit ↔ Reaches graph.edges vertex other ∧ Reaches graph.edges other vertex
  earlier : ∀ before unit after, units = before ++ unit :: after →
    ∀ source ∈ unit, ∀ target ∈ graph.successors source,
      target ∈ unit ∨ ∃ other ∈ before, target ∈ other

/-- Of several fitting vertices in a list one is the last. -/
private theorem exists_last {fits : Nat → Bool} {vertices : List Nat}
    (some_ : ∃ vertex ∈ vertices, fits vertex = true) :
    ∃ left last right, vertices = left ++ last :: right ∧ fits last = true ∧
      ∀ vertex ∈ right, fits vertex = false := by
  obtain ⟨vertex, member, fit⟩ := some_
  obtain ⟨last, found⟩ := Option.isSome_iff_exists.1
    (List.find?_isSome.2 ⟨vertex, List.mem_reverse.2 member, fit⟩)
  obtain ⟨fit, after, before, shape, none_⟩ := List.find?_eq_some_iff_append.1 found
  refine ⟨before.reverse, last, after.reverse, ?_, fit, fun other member => ?_⟩
  · rw [← List.reverse_inj, shape]
    simp
  · simpa using none_ other (List.mem_reverse.1 member)

/-- Whether two vertices reach each other, as `units` computes it. -/
def together (edges : Array (List Nat)) (left right : Nat) : Bool :=
  let reaches := (Array.range edges.size).map (reach edges)
  let leads (source target : Nat) : Bool := reaches[source]?.any fun reached => target ∈ reached
  leads left right && leads right left

theorem together_iff {edges : Array (List Nat)} (closed : Closed edges) (left right : Nat) :
    together edges left right = true ↔ left < edges.size ∧ right < edges.size ∧
      Reaches edges left right ∧ Reaches edges right left := by
  by_cases bound : left < edges.size ∧ right < edges.size
  · obtain ⟨leftBound, rightBound⟩ := bound
    simp [together, leftBound, rightBound, mem_reach_iff closed]
  · rw [not_and_or] at bound
    rcases bound with large | large <;> simp [together, large]

theorem together_symm {edges : Array (List Nat)} (closed : Closed edges) (left right : Nat)
    (same : together edges left right = true) : together edges right left = true := by
  rw [together_iff closed] at same ⊢
  exact ⟨same.2.1, same.1, same.2.2.2, same.2.2.1⟩

theorem together_trans {edges : Array (List Nat)} (closed : Closed edges)
    (first second third : Nat) (left : together edges first second = true)
    (right : together edges second third = true) : together edges first third = true := by
  rw [together_iff closed] at left right ⊢
  exact ⟨left.1, right.2.1, left.2.2.1.trans right.2.2.1, right.2.2.2.trans left.2.2.2⟩

theorem together_self {edges : Array (List Nat)} (closed : Closed edges) (vertex : Nat)
    (member : vertex ∈ finishOrder edges) : together edges vertex vertex = true := by
  have bound := (mem_finishOrder closed vertex).1 member
  exact (together_iff closed vertex vertex).2 ⟨bound, bound, .refl, .refl⟩

theorem units_eq (graph : Graph) :
    graph.units = unitsIn (together graph.edges) [] (finishOrder graph.edges) := rfl

/-- A unit is the class of one of its members. -/
theorem mem_units {graph : Graph} {unit : List Nat} (member : unit ∈ graph.units) :
    ∃ last, ∀ vertex, vertex ∈ unit ↔ together graph.edges last vertex = true := by
  have closed := closed_edges graph
  rw [units_eq] at member
  obtain ⟨front, last, back, order, alone, rfl⟩ := unitsIn_mem member
  refine ⟨last, fun vertex => ?_⟩
  simp only [List.nil_append, List.mem_append, List.mem_filter, List.mem_singleton]
  constructor
  · rintro (⟨-, same⟩ | rfl)
    · exact same
    · exact together_self closed vertex (by simp [order])
  · intro same
    have inside := (mem_finishOrder closed vertex).2 ((together_iff closed last vertex).1 same).2.1
    rw [order, List.mem_append, List.mem_cons] at inside
    rcases inside with before | rfl | behind
    · exact .inl ⟨before, same⟩
    · exact .inr rfl
    · rw [alone vertex behind] at same
      cases same

theorem units_perm (graph : Graph) :
    graph.units.flatten.Perm (List.range graph.nodes.length) := by
  have closed := closed_edges graph
  have distinct : graph.units.flatten.Nodup :=
    nodup_unitsIn (together_symm closed) (together_trans closed)
      (by simpa using nodup_finishOrder closed) (together_self closed)
  refine (List.perm_ext_iff_of_nodup distinct List.nodup_range).2 fun vertex => ?_
  rw [List.mem_range, ← size_edges]
  constructor
  · intro member
    obtain ⟨unit, held, inside⟩ := List.mem_flatten.1 member
    obtain ⟨last, class_⟩ := mem_units held
    exact ((together_iff closed last vertex).1 ((class_ vertex).1 inside)).2.1
  · intro bound
    have member := (mem_finishOrder closed vertex).2 bound
    exact List.mem_flatten.2 (exists_unitsIn (together_symm closed) (together_trans closed)
      (by simpa using member) member (together_self closed vertex member))

theorem units_mem_iff {graph : Graph} {unit : List Nat} (member : unit ∈ graph.units)
    {vertex : Nat} (inside : vertex ∈ unit) (other : Nat) :
    other ∈ unit ↔ Reaches graph.edges vertex other ∧ Reaches graph.edges other vertex := by
  have closed := closed_edges graph
  obtain ⟨last, class_⟩ := mem_units member
  have lastVertex := (class_ vertex).1 inside
  rw [class_]
  constructor
  · intro lastOther
    have same := together_trans closed vertex last other
      (together_symm closed last vertex lastVertex) lastOther
    exact ((together_iff closed vertex other).1 same).2.2
  · rintro ⟨toOther, back⟩
    have bound := ((together_iff closed last vertex).1 lastVertex).2.1
    refine together_trans closed last vertex other lastVertex
      ((together_iff closed vertex other).2 ⟨bound, ?_, toOther, back⟩)
    cases toOther with
    | refl => exact bound
    | tail _ edge => exact closed _ _ edge

/-- An edge does not lead to a class with a member behind the last one of its
own class: that member would lie on a cycle with the class of the edge. -/
theorem together_eq_false_of_behind {graph : Graph} {front back : List Nat} {last target : Nat}
    (order : finishOrder graph.edges = front ++ last :: back)
    (alone : ∀ vertex ∈ back, together graph.edges last vertex = false)
    (toTarget : Reaches graph.edges last target) {vertex : Nat} (behind : vertex ∈ back) :
    together graph.edges target vertex = false := by
  have closed := closed_edges graph
  by_contra linked
  rw [Bool.not_eq_false] at linked
  have toVertex := toTarget.trans ((together_iff closed target vertex).1 linked).2.2.1
  obtain ⟨other, otherBehind, toOther, toLast⟩ :=
    exists_cycle_of_reaches_later closed order behind toVertex
  have lastBound := (mem_finishOrder closed last).1 (by simp [order])
  have otherBound := (mem_finishOrder closed other).1 (by simp [order, otherBehind])
  have same := (together_iff closed last other).2 ⟨lastBound, otherBound, toOther, toLast⟩
  rw [alone other otherBehind] at same
  cases same

theorem units_earlier {graph : Graph} {before after : List (List Nat)} {unit : List Nat}
    (split : graph.units = before ++ unit :: after) {source target : Nat} (inside : source ∈ unit)
    (edge : target ∈ graph.successors source) :
    target ∈ unit ∨ ∃ other ∈ before, target ∈ other := by
  have closed := closed_edges graph
  replace edge := (edge_iff graph source target).2 edge
  have held := split
  rw [units_eq] at split
  obtain ⟨front, last, back, order, alone, shape, complete⟩ := unitsIn_split split
  have lastSource : together graph.edges last source = true := by
    rw [shape] at inside
    rcases List.mem_append.1 inside with same | same
    · exact (List.mem_filter.1 same).2
    · obtain rfl := List.mem_singleton.1 same
      exact together_self closed source (by simp [order])
  have toTarget := ((together_iff closed last source).1 lastSource).2.2.1.tail edge
  have member := (mem_finishOrder closed target).2 (closed source target edge)
  by_cases lastTarget : together graph.edges last target = true
  · obtain ⟨representative, class_⟩ := @mem_units graph unit (by simp [held])
    refine .inl ((class_ target).2 ?_)
    exact together_trans closed representative last target
      ((class_ last).1 (by simp [shape])) lastTarget
  · right
    -- The class of the target has its last member in front of this unit's last one.
    have noneBehind : ∀ vertex ∈ last :: back, together graph.edges target vertex = false := by
      intro vertex later
      rcases List.mem_cons.1 later with rfl | behind
      · by_contra linked
        rw [Bool.not_eq_false] at linked
        exact lastTarget (together_symm closed target vertex linked)
      · exact together_eq_false_of_behind order alone toTarget behind
    have self := together_self closed target member
    have inFront : target ∈ front := by
      rw [order, List.mem_append] at member
      rcases member with first | second
      · exact first
      · rw [noneBehind target second] at self
        cases self
    obtain ⟨left, final, right, cut, targetFinal, noneRight⟩ := exists_last ⟨target, inFront, self⟩
    obtain ⟨earlier, isBefore, finalIn⟩ := complete left final right cut fun vertex later => by
      by_contra linked
      rw [Bool.not_eq_false] at linked
      have same := together_trans closed target final vertex targetFinal linked
      rcases List.mem_append.1 later with inRight | behind
      · simp [noneRight vertex inRight] at same
      · simp [noneBehind vertex behind] at same
    refine ⟨earlier, isBefore, ?_⟩
    have isUnit : earlier ∈ graph.units := by
      rw [held]
      exact List.mem_append_left _ isBefore
    obtain ⟨representative, class_⟩ := mem_units isUnit
    rw [class_] at finalIn ⊢
    exact together_trans closed representative final target finalIn
      (together_symm closed target final targetFinal)

/-- The computed units are the classes of vertices that reach each other, in an
order in which each comes after those it points to. -/
theorem unitOrder_units (graph : Graph) : UnitOrder graph graph.units where
  perm := units_perm graph
  mem_iff _ member _ inside other := units_mem_iff member inside other
  earlier _ _ _ split _ inside _ edge := units_earlier split inside edge

end Bundler.Graph
