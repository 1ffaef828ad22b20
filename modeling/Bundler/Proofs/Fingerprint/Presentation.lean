import Bundler.Proofs.Fingerprint.Contents

/-!
# Graphs of the same shape

Two lists of nodes present one graph if they have the same identifiers and, under each of them, the
same known dependencies (`SameShape`). Their units then correspond, whatever the order of nodes,
dependencies and units: a unit of the one and a unit of the other that share an identifier have the
same members in the same order, are cyclic together, and have the same identifiers beside them.

So the fingerprint of a node is a function of the contents below it (`get?_eq_of_agree`), and if
hashing does not collide it determines them (`contentsBelow_eq_of_get?_eq`). Identifiers may hold
any characters here: labels with the same identifiers stand at the same places of a message.
-/

namespace Bundler.Graph

/-- The fingerprints that come from units in this order. -/
def fingerprintsAlong (digest : ByteArray → Fingerprint) (graph : Graph) (units : List (List Nat)) :
    Table String Fingerprint :=
  units.foldl (graph.addUnit digest) Table.empty

/-- The byte strings that are hashed for units in this order. -/
def hashedAlong (digest : ByteArray → Fingerprint) (graph : Graph) (units : List (List Nat)) :
    List ByteArray :=
  (messagesFrom digest graph Table.empty units).flatMap (UnitMessage.hashed digest)

/-! ## Units as classes of nodes -/

/-- A node in its unit, with the units before it. -/
structure Placed (graph : Graph) (units before : List (List Nat)) (unit : List Nat) (node : GraphNode) :
    Prop where
  distinct : (graph.nodes.map GraphNode.id).Nodup
  order : UnitOrder graph units
  split : ∃ after, units = before ++ unit :: after
  member : node ∈ graph.members unit

theorem exists_placed {graph : Graph} (distinct : (graph.nodes.map GraphNode.id).Nodup)
    {units : List (List Nat)} (order : UnitOrder graph units) {node : GraphNode}
    (isNode : node ∈ graph.nodes) : ∃ before unit, Placed graph units before unit node := by
  obtain ⟨before, unit, after, split, member⟩ := exists_split order isNode
  exact ⟨before, unit, distinct, order, ⟨after, split⟩, member⟩

theorem reaches_of_depends {graph : Graph} (distinct : (graph.nodes.map GraphNode.id).Nodup)
    {node other : GraphNode} (way : Relation.ReflTransGen graph.Depends node other) {source : Nat}
    (held : graph.nodes[source]? = some node) :
    ∃ target, graph.nodes[target]? = some other ∧ Reaches graph.edges source target := by
  induction way with
  | refl => exact ⟨source, held, .refl⟩
  | @tail middle last _ step ih =>
    obtain ⟨position, middleHeld, reaches⟩ := ih
    obtain ⟨-, isLast, depends⟩ := step
    obtain ⟨target, lastHeld⟩ := List.mem_iff_getElem?.1 isLast
    have edge := mem_successors middleHeld (vertex?_of_node distinct middleHeld) depends
      (vertex?_of_node distinct lastHeld)
    exact ⟨target, lastHeld, reaches.tail ((edge_iff graph position target).2 edge)⟩

namespace Placed

variable {graph : Graph} {units before : List (List Nat)} {unit : List Nat} {node : GraphNode}
  (placed : Placed graph units before unit node)

include placed

theorem isNode : node ∈ graph.nodes := mem_nodes_of_mem_members placed.member

theorem nodup : unit.Nodup := by
  obtain ⟨after, split⟩ := placed.split
  exact (List.nodup_flatten.1 (placed.order.perm.nodup_iff.2 List.nodup_range)).1 unit (by simp [split])

/-- The message that the fingerprint of the node comes from. -/
theorem get?_eq (digest : ByteArray → Fingerprint) :
    (fingerprintsAlong digest graph units).get? node.id =
      some ((graph.messageOf (fingerprintsAlong digest graph before) unit).fingerprint digest node.id) := by
  obtain ⟨after, split⟩ := placed.split
  exact get?_of_split placed.distinct placed.order split placed.member

/-- The members of a unit are the nodes that reach each other. -/
theorem mem_members_iff {other : GraphNode} : other ∈ graph.members unit ↔
    Relation.ReflTransGen graph.Depends node other ∧
      Relation.ReflTransGen graph.Depends other node := by
  obtain ⟨distinct, order, ⟨after, split⟩, member⟩ := placed
  constructor
  · intro otherMember
    exact ⟨reaches_of_members distinct order split member otherMember,
      reaches_of_members distinct order split otherMember member⟩
  · rintro ⟨toOther, back⟩
    obtain ⟨vertex, inside, held⟩ := mem_members.1 member
    obtain ⟨position, otherHeld, reaches⟩ := reaches_of_depends distinct toOther held
    obtain ⟨final, finalHeld, returns⟩ := reaches_of_depends distinct back otherHeld
    have first := vertex?_of_node distinct finalHeld
    rw [vertex?_of_node distinct held] at first
    obtain rfl := Option.some.inj first
    exact mem_members.2
      ⟨position, (order.mem_iff unit (by simp [split]) _ inside _).2 ⟨reaches, returns⟩, otherHeld⟩

/-- A unit is cyclic if its members lie on a cycle. -/
theorem isCyclic_iff_onCycle : graph.isCyclic unit = true ↔ graph.OnCycle node := by
  obtain ⟨after, split⟩ := placed.split
  refine ⟨onCycle_of_isCyclic placed.distinct placed.order split placed.member, fun cycle => ?_⟩
  unfold isCyclic
  split
  · next vertex =>
    obtain ⟨position, inside, held⟩ := mem_members.1 placed.member
    obtain rfl := List.mem_singleton.1 inside
    obtain ⟨next, step, back⟩ := Relation.TransGen.head'_iff.1 cycle
    -- The next node on the cycle is in the unit as well, so it is this one.
    obtain ⟨other, otherInside, otherHeld⟩ :=
      mem_members.1 (placed.mem_members_iff.2 ⟨.single step, back⟩)
    obtain rfl := List.mem_singleton.1 otherInside
    obtain rfl := Option.some.inj (otherHeld.symm.trans held)
    have own := vertex?_of_node placed.distinct held
    exact List.contains_iff_mem.2 (mem_successors held own step.2.2 own)
  · rfl

/-- The identifiers beside a unit are those of the nodes outside it that its members depend on. -/
theorem mem_ids_outside_iff (digest : ByteArray → Fingerprint) (id : String) :
    id ∈ (outside (fingerprintsAlong digest graph before) (graph.members unit)).map Prod.fst ↔
      ∃ source ∈ graph.members unit, ∃ target, target.id = id ∧ graph.Depends source target ∧
        target ∉ graph.members unit := by
  obtain ⟨after, split⟩ := placed.split
  constructor
  · intro beside
    obtain ⟨entry, held, rfl⟩ := List.mem_map.1 beside
    obtain ⟨source, isSource, target, sameId, step⟩ := exists_of_beside held
    refine ⟨source, isSource, target, sameId, step, fun within => ?_⟩
    exact ((mem_outside _ _ entry).1 held).2.1 (sameId ▸ List.mem_map_of_mem within)
  · rintro ⟨source, isSource, target, rfl, step, apart⟩
    rcases member_or_beside placed.distinct digest placed.order split isSource step with
      within | ⟨entry, held, sameId⟩
    · exact absurd within apart
    · exact sameId ▸ List.mem_map_of_mem held

/-- A label beside the unit is the fingerprint of a node of an earlier unit, which is reached. -/
theorem exists_of_mem_outside {digest : ByteArray → Fingerprint} {entry : String × Fingerprint}
    (beside : entry ∈ outside (fingerprintsAlong digest graph before) (graph.members unit)) :
    ∃ first earlier target, Placed graph units first earlier target ∧ first.length < before.length ∧
      target.id = entry.1 ∧ Relation.ReflTransGen graph.Depends node target ∧
      (fingerprintsAlong digest graph units).get? target.id = some entry.2 := by
  obtain ⟨distinct, order, ⟨after, split⟩, member⟩ := placed
  obtain ⟨first, earlier, second, target, cut, isTarget, targetId, way, found⟩ :=
    Graph.exists_of_mem_outside distinct order split beside member
  refine ⟨first, earlier, target, ⟨distinct, order, ⟨second ++ unit :: after, ?_⟩, isTarget⟩, ?_,
    targetId, way, targetId.symm ▸ found⟩
  · rw [split, cut, List.append_assoc]
    rfl
  · rw [cut, List.length_append, List.length_cons]
    omega

omit placed in
/-- Fingerprints beside a unit have the length of all fingerprints. -/
theorem size_labels {size : Nat} {digest : ByteArray → Fingerprint}
    (digestSize : ∀ content, (digest content).bytes.size = size)
    (sized : ∀ node ∈ graph.nodes, node.content.bytes.size = size) :
    ∀ label ∈ (graph.messageOf (fingerprintsAlong digest graph before) unit).labels,
      label.2.bytes.size = size := by
  intro label held
  rcases List.mem_append.1 held with inside | beside
  · obtain ⟨member, isMember, rfl⟩ := List.mem_map.1 inside
    exact sized member (mem_nodes_of_mem_members isMember)
  · obtain ⟨-, content, made⟩ := exists_of_get?_foldl_addUnit ((mem_outside _ _ label).1 beside).2.2
    rw [made, digestSize content]

theorem mem_hashedAlong {digest : ByteArray → Fingerprint} {content : ByteArray}
    (hashed : content ∈
      (graph.messageOf (fingerprintsAlong digest graph before) unit).hashed digest) :
    content ∈ hashedAlong digest graph units := by
  obtain ⟨after, split⟩ := placed.split
  exact List.mem_flatMap.2 ⟨_, messageOf_mem digest graph split, hashed⟩

end Placed

theorem sorted_members (graph : Graph) (unit : List Nat) :
    ((graph.members unit).map GraphNode.id).Pairwise (· ≤ ·) := by
  refine List.pairwise_map.2 ((List.pairwise_mergeSort ?_ ?_ _).imp of_decide_eq_true)
  · intro first second third left right
    exact decide_eq_true (String.le_trans (of_decide_eq_true left) (of_decide_eq_true right))
  · intro first second
    simpa using String.le_total first.id second.id

/-! ## Two presentations -/

/-- The graphs have nodes of the same identifiers, and nodes of one identifier depend on the same
of these identifiers. -/
structure SameShape (left right : Graph) : Prop where
  ids : ∀ id, id ∈ left.nodes.map GraphNode.id ↔ id ∈ right.nodes.map GraphNode.id
  dependencies : ∀ node ∈ left.nodes, ∀ twin ∈ right.nodes, twin.id = node.id →
    ∀ id ∈ left.nodes.map GraphNode.id, id ∈ node.dependencies ↔ id ∈ twin.dependencies

namespace SameShape

variable {left right : Graph} (shape : SameShape left right)

include shape

theorem symm : SameShape right left where
  ids id := (shape.ids id).symm
  dependencies node isNode twin isTwin sameId id known :=
    (shape.dependencies twin isTwin node isNode sameId.symm id ((shape.ids id).2 known)).symm

theorem exists_twin {node : GraphNode} (isNode : node ∈ left.nodes) :
    ∃ twin ∈ right.nodes, twin.id = node.id :=
  List.mem_map.1 ((shape.ids node.id).1 (List.mem_map_of_mem isNode))

theorem depends {node target twin twinTarget : GraphNode} (step : left.Depends node target)
    (isTwin : twin ∈ right.nodes) (sameId : twin.id = node.id) (isTarget : twinTarget ∈ right.nodes)
    (sameTarget : twinTarget.id = target.id) : right.Depends twin twinTarget := by
  obtain ⟨isNode, isOld, held⟩ := step
  refine ⟨isTwin, isTarget, sameTarget ▸ ?_⟩
  exact (shape.dependencies node isNode twin isTwin sameId _ (List.mem_map_of_mem isOld)).1 held

variable (rightDistinct : (right.nodes.map GraphNode.id).Nodup)

include rightDistinct

/-- What a node reaches in one graph its twin reaches in the other. -/
theorem reaches {node target twin twinTarget : GraphNode}
    (way : Relation.ReflTransGen left.Depends node target) (isTwin : twin ∈ right.nodes)
    (sameId : twin.id = node.id) (isTarget : twinTarget ∈ right.nodes)
    (sameTarget : twinTarget.id = target.id) : Relation.ReflTransGen right.Depends twin twinTarget := by
  induction way generalizing twinTarget with
  | refl =>
    obtain rfl := eq_of_id_eq rightDistinct isTarget isTwin (sameTarget.trans sameId.symm)
    exact .refl
  | tail _ step ih =>
    obtain ⟨middle, isMiddle, sameMiddle⟩ := shape.exists_twin step.1
    exact (ih isMiddle sameMiddle).tail (shape.depends step isMiddle sameMiddle isTarget sameTarget)

theorem onCycle {node twin : GraphNode} (cycle : left.OnCycle node) (isTwin : twin ∈ right.nodes)
    (sameId : twin.id = node.id) : right.OnCycle twin := by
  obtain ⟨next, step, back⟩ := Relation.TransGen.head'_iff.1 cycle
  obtain ⟨nextTwin, isNext, sameNext⟩ := shape.exists_twin step.2.1
  exact .head' (shape.depends step isTwin sameId isNext sameNext)
    (shape.reaches rightDistinct back isNext sameNext isTwin sameId)

end SameShape

/-- Lists with the same keys agree if items of one key do. -/
theorem map_eq_of_keys_eq {left : List α} {right : List β} {leftKey : α → κ} {rightKey : β → κ}
    {leftValue : α → γ} {rightValue : β → γ} (keys : left.map leftKey = right.map rightKey)
    (agree : ∀ item ∈ left, ∀ other ∈ right, rightKey other = leftKey item →
      leftValue item = rightValue other) : left.map leftValue = right.map rightValue := by
  induction left generalizing right with
  | nil => simp_all
  | cons item rest ih =>
    cases right with
    | nil => cases keys
    | cons other others =>
      obtain ⟨same, tails⟩ := List.cons.inj keys
      rw [List.map_cons, List.map_cons, agree item List.mem_cons_self other List.mem_cons_self same.symm,
        ih tails fun item held other otherHeld =>
          agree item (List.mem_cons_of_mem _ held) other (List.mem_cons_of_mem _ otherHeld)]

section Units

variable {left right : Graph} (shape : SameShape left right)
  {leftUnits rightUnits leftBefore rightBefore : List (List Nat)} {leftUnit rightUnit : List Nat}
  {node twin : GraphNode} (here : Placed left leftUnits leftBefore leftUnit node)
  (there : Placed right rightUnits rightBefore rightUnit twin) (sameId : twin.id = node.id)

include shape here there sameId

theorem mem_members_of_twin {other otherTwin : GraphNode} (otherMember : other ∈ left.members leftUnit)
    (isTwin : otherTwin ∈ right.nodes) (same : otherTwin.id = other.id) :
    otherTwin ∈ right.members rightUnit := by
  obtain ⟨toOther, back⟩ := here.mem_members_iff.1 otherMember
  exact there.mem_members_iff.2 ⟨shape.reaches there.distinct toOther there.isNode sameId isTwin same,
    shape.reaches there.distinct back isTwin same there.isNode sameId⟩

theorem mem_ids_of_mem_ids {id : String} (inside : id ∈ (left.members leftUnit).map GraphNode.id) :
    id ∈ (right.members rightUnit).map GraphNode.id := by
  obtain ⟨other, otherMember, rfl⟩ := List.mem_map.1 inside
  obtain ⟨otherTwin, isTwin, same⟩ := shape.exists_twin (mem_nodes_of_mem_members otherMember)
  exact List.mem_map.2
    ⟨otherTwin, mem_members_of_twin shape here there sameId otherMember isTwin same, same⟩

/-- Units that share an identifier have the same members in the same order. -/
theorem ids_members_eq :
    (left.members leftUnit).map GraphNode.id = (right.members rightUnit).map GraphNode.id := by
  refine List.Perm.eq_of_pairwise (fun _ _ _ _ => String.le_antisymm) (sorted_members left leftUnit)
    (sorted_members right rightUnit) ?_
  exact (List.perm_ext_iff_of_nodup (nodup_members here.distinct here.nodup)
    (nodup_members there.distinct there.nodup)).2 fun id =>
      ⟨mem_ids_of_mem_ids shape here there sameId, mem_ids_of_mem_ids shape.symm there here sameId.symm⟩

theorem isCyclic_eq : left.isCyclic leftUnit = right.isCyclic rightUnit := by
  rw [Bool.eq_iff_iff, here.isCyclic_iff_onCycle, there.isCyclic_iff_onCycle]
  exact ⟨fun cycle => shape.onCycle there.distinct cycle there.isNode sameId,
    fun cycle => shape.symm.onCycle here.distinct cycle here.isNode sameId.symm⟩

variable (digest : ByteArray → Fingerprint)

theorem mem_ids_outside_of_mem {id : String}
    (beside : id ∈ (outside (fingerprintsAlong digest left leftBefore)
      (left.members leftUnit)).map Prod.fst) :
    id ∈ (outside (fingerprintsAlong digest right rightBefore)
      (right.members rightUnit)).map Prod.fst := by
  obtain ⟨source, isSource, target, rfl, step, apart⟩ := (here.mem_ids_outside_iff digest id).1 beside
  obtain ⟨sourceTwin, isSourceTwin, sameSource⟩ := shape.exists_twin step.1
  obtain ⟨targetTwin, isTargetTwin, sameTarget⟩ := shape.exists_twin step.2.1
  refine (there.mem_ids_outside_iff digest _).2 ⟨sourceTwin,
    mem_members_of_twin shape here there sameId isSource isSourceTwin sameSource, targetTwin, sameTarget,
    shape.depends step isSourceTwin sameSource isTargetTwin sameTarget, fun within => apart ?_⟩
  exact mem_members_of_twin shape.symm there here sameId.symm within step.2.1 sameTarget.symm

/-- Units that share an identifier have the same identifiers beside them. -/
theorem ids_outside_eq :
    (outside (fingerprintsAlong digest left leftBefore) (left.members leftUnit)).map Prod.fst =
      (outside (fingerprintsAlong digest right rightBefore) (right.members rightUnit)).map Prod.fst :=
  Table.Sorted.keys_eq (sorted_outside _ _) (sorted_outside _ _) fun _ =>
    ⟨mem_ids_outside_of_mem shape here there sameId digest,
      mem_ids_outside_of_mem shape.symm there here sameId.symm digest⟩

/-- If nothing collides, units with a common fingerprint have the same bytes. -/
theorem bytes_eq_of_twin {digest : ByteArray → Fingerprint}
    (apart : ∀ first ∈ hashedAlong digest left leftUnits, ∀ second ∈ hashedAlong digest right rightUnits,
      digest first = digest second → first = second)
    (same : (fingerprintsAlong digest left leftUnits).get? node.id =
      (fingerprintsAlong digest right rightUnits).get? node.id) :
    (left.messageOf (fingerprintsAlong digest left leftBefore) leftUnit).bytes =
      (right.messageOf (fingerprintsAlong digest right rightBefore) rightUnit).bytes := by
  rw [here.get?_eq, ← sameId, there.get?_eq, sameId, Option.some.injEq] at same
  refine UnitMessage.bytes_eq_of_cyclic_eq (isCyclic_eq shape here there sameId)
    ⟨node, here.member, rfl⟩ ⟨twin, there.member, sameId⟩ (fun first inLeft second inRight => ?_) same
  exact apart first (here.mem_hashedAlong inLeft) second (there.mem_hashedAlong inRight)

end Units

/-! ## Fingerprints and contents -/

section Contents

variable {left right : Graph} (shape : SameShape left right)
  (rightDistinct : (right.nodes.map GraphNode.id).Nodup) {leftUnits rightUnits : List (List Nat)}
  (rightOrder : UnitOrder right rightUnits)

include shape rightDistinct rightOrder

/-- The fingerprint of a node is determined by the contents below it. -/
theorem get?_eq_of_agree (digest : ByteArray → Fingerprint) {top : String}
    (agree : ∀ node, left.Below top node → ∀ twin ∈ right.nodes, twin.id = node.id →
      twin.content = node.content)
    {before : List (List Nat)} {unit : List Nat} {node : GraphNode}
    (here : Placed left leftUnits before unit node) (below : left.Below top node) :
    (fingerprintsAlong digest left leftUnits).get? node.id =
      (fingerprintsAlong digest right rightUnits).get? node.id := by
  -- The labels beside a unit are fingerprints of earlier units.
  induction position : before.length using Nat.strong_induction_on generalizing before unit node with
  | _ count ih =>
    obtain ⟨twin, isTwin, sameId⟩ := shape.exists_twin here.isNode
    obtain ⟨twinBefore, twinUnit, there⟩ := exists_placed rightDistinct rightOrder isTwin
    have members : (left.members unit).map (fun member => (member.id, member.content)) =
        (right.members twinUnit).map fun member => (member.id, member.content) :=
      map_eq_of_keys_eq (ids_members_eq shape here there sameId) fun member isMember other isOther same => by
        have reached := below.further (here.mem_members_iff.1 isMember).1
        rw [same, agree member reached other (mem_nodes_of_mem_members isOther) same]
    have outsides : (outside (fingerprintsAlong digest left before) (left.members unit)).map id =
        (outside (fingerprintsAlong digest right twinBefore) (right.members twinUnit)).map id :=
      map_eq_of_keys_eq (ids_outside_eq shape here there sameId digest) fun entry beside other otherBeside same => by
        obtain ⟨first, earlier, target, placed, shorter, targetId, way, found⟩ :=
          here.exists_of_mem_outside beside
        obtain ⟨_, _, otherTarget, _, _, otherId, _, otherFound⟩ := there.exists_of_mem_outside otherBeside
        have equal := ih first.length (position ▸ shorter) placed (below.further way) rfl
        rw [found, targetId, ← same, ← otherId, otherFound] at equal
        exact Prod.ext same.symm (Option.some.inj equal)
    rw [List.map_id, List.map_id] at outsides
    rw [here.get?_eq, ← sameId, there.get?_eq]
    exact congrArg some (UnitMessage.fingerprint_eq_of_labels_eq digest
      (isCyclic_eq shape here there sameId) (congrArg₂ (· ++ ·) members outsides) twin.id)

/-- If nothing collides, the fingerprint of a node determines the contents below it. -/
theorem contentsBelow_eq_of_get?_eq {size : Nat} {digest : ByteArray → Fingerprint}
    (digestSize : ∀ content, (digest content).bytes.size = size)
    (leftSized : ∀ node ∈ left.nodes, node.content.bytes.size = size)
    (rightSized : ∀ node ∈ right.nodes, node.content.bytes.size = size)
    (apart : ∀ first ∈ hashedAlong digest left leftUnits, ∀ second ∈ hashedAlong digest right rightUnits,
      digest first = digest second → first = second)
    {before : List (List Nat)} {unit : List Nat} {node : GraphNode}
    (here : Placed left leftUnits before unit node)
    (same : (fingerprintsAlong digest left leftUnits).get? node.id =
      (fingerprintsAlong digest right rightUnits).get? node.id) :
    left.contentsBelow node.id = right.contentsBelow node.id := by
  obtain ⟨twin, isTwin, sameId⟩ := shape.exists_twin here.isNode
  obtain ⟨after, split⟩ := here.split
  refine contentsBelow_eq_of_parts here.distinct rightDistinct here.order rightOrder ?_ split here.member
    isTwin sameId ⟨node, here.isNode, rfl, .refl⟩ ⟨twin, isTwin, sameId, .refl⟩ same
  intro leftBefore leftUnit leftAfter rightBefore rightUnit rightAfter leftSplit rightSplit first second
    isFirst isSecond sameFirst _ _ equal
  have placed : Placed left leftUnits leftBefore leftUnit first :=
    ⟨here.distinct, here.order, ⟨leftAfter, leftSplit⟩, isFirst⟩
  have there : Placed right rightUnits rightBefore rightUnit second :=
    ⟨rightDistinct, rightOrder, ⟨rightAfter, rightSplit⟩, isSecond⟩
  have members := ids_members_eq shape placed there sameFirst
  have ids := congrArg₂ (· ++ ·) members (ids_outside_eq shape placed there sameFirst digest)
  have labels := UnitMessage.labels_eq_of_ids_eq
    (((UnitMessage.ids_labels _).trans ids).trans (UnitMessage.ids_labels _).symm)
    (Placed.size_labels digestSize leftSized) (Placed.size_labels digestSize rightSized)
    (bytes_eq_of_twin shape placed there sameFirst apart equal)
  exact List.append_inj labels (by simpa [messageOf] using congrArg List.length members)

end Contents

/-- The fingerprints have one entry for each identifier. -/
theorem keys_perm (digest : ByteArray → Fingerprint) {graph : Graph}
    (distinct : (graph.nodes.map GraphNode.id).Nodup) {units : List (List Nat)}
    (order : UnitOrder graph units) :
    (fingerprintsAlong digest graph units).keys.Perm (graph.nodes.map GraphNode.id) := by
  have sorted : (fingerprintsAlong digest graph units).Sorted :=
    sorted_foldl_addUnit Table.sorted_empty units
  refine (List.perm_ext_iff_of_nodup sorted.nodup_keys distinct).2 fun id => ?_
  rw [Table.mem_keys_iff, Table.contains_eq_isSome_get?]
  constructor
  · intro known
    obtain ⟨fingerprint, found⟩ := Option.isSome_iff_exists.1 known
    obtain ⟨⟨unit, -, inside⟩, -⟩ := exists_of_get?_foldl_addUnit found
    obtain ⟨node, member, rfl⟩ := List.mem_map.1 inside
    exact List.mem_map_of_mem (mem_nodes_of_mem_members member)
  · intro known
    obtain ⟨node, isNode, rfl⟩ := List.mem_map.1 known
    obtain ⟨before, unit, placed⟩ := exists_placed distinct order isNode
    exact Option.isSome_iff_exists.2 ⟨_, placed.get?_eq digest⟩

/-- Graphs of one shape with the same contents have the same fingerprints. -/
theorem fingerprintsAlong_eq_of_agree (digest : ByteArray → Fingerprint) {left right : Graph}
    (leftDistinct : (left.nodes.map GraphNode.id).Nodup)
    (rightDistinct : (right.nodes.map GraphNode.id).Nodup) (shape : SameShape left right)
    (agree : ∀ node ∈ left.nodes, ∀ twin ∈ right.nodes, twin.id = node.id → twin.content = node.content)
    {leftUnits rightUnits : List (List Nat)} (leftOrder : UnitOrder left leftUnits)
    (rightOrder : UnitOrder right rightUnits) :
    fingerprintsAlong digest left leftUnits = fingerprintsAlong digest right rightUnits := by
  refine Table.Sorted.ext (sorted_foldl_addUnit Table.sorted_empty _)
    (sorted_foldl_addUnit Table.sorted_empty _) fun id => ?_
  by_cases known : id ∈ left.nodes.map GraphNode.id
  · obtain ⟨node, isNode, rfl⟩ := List.mem_map.1 known
    obtain ⟨before, unit, placed⟩ := exists_placed leftDistinct leftOrder isNode
    exact get?_eq_of_agree shape rightDistinct rightOrder digest
      (fun node below => agree node below.mem) placed ⟨node, isNode, rfl, .refl⟩
  · have absent : ∀ {graph : Graph} {units : List (List Nat)}, id ∉ graph.nodes.map GraphNode.id →
        (units.foldl (graph.addUnit digest) Table.empty).get? id = none := by
      intro graph units unknown
      refine get?_foldl_addUnit_of_notMem (fun unit _ inside => unknown ?_) Table.empty
      obtain ⟨node, member, rfl⟩ := List.mem_map.1 inside
      exact List.mem_map_of_mem (mem_nodes_of_mem_members member)
    exact (absent known).trans (absent (mt (shape.ids id).2 known)).symm

/-! ## Presentations of one graph -/

/-- Lists of nodes with different identifiers that have the same contents and the same known
dependencies have the same fingerprints, with one entry for each identifier, in whatever order their
units are hashed. -/
theorem fingerprints_eq_of_presents (digest : ByteArray → Fingerprint) {left right : Graph}
    (leftDistinct : (left.nodes.map GraphNode.id).Nodup)
    (rightDistinct : (right.nodes.map GraphNode.id).Nodup)
    (pairs : ∀ pair, pair ∈ left.nodes.map (fun node => (node.id, node.content)) ↔
      pair ∈ right.nodes.map fun node => (node.id, node.content))
    (dependencies : ∀ node ∈ left.nodes, ∀ twin ∈ right.nodes, twin.id = node.id →
      ∀ id ∈ left.nodes.map GraphNode.id, id ∈ node.dependencies ↔ id ∈ twin.dependencies)
    {leftUnits rightUnits : List (List Nat)} (leftOrder : UnitOrder left leftUnits)
    (rightOrder : UnitOrder right rightUnits) :
    fingerprintsAlong digest left leftUnits = left.fingerprints digest ∧
      fingerprintsAlong digest right rightUnits = left.fingerprints digest ∧
      (left.fingerprints digest).keys.Perm (left.nodes.map GraphNode.id) := by
  have ids : ∀ graph : Graph, graph.nodes.map GraphNode.id =
      (graph.nodes.map fun node => (node.id, node.content)).map Prod.fst := by simp
  have shape : SameShape right left := by
    refine SameShape.symm ⟨fun id => ?_, dependencies⟩
    rw [ids left, ids right, List.mem_map, List.mem_map]
    exact exists_congr fun pair => and_congr_left' (pairs pair)
  have agree : ∀ node ∈ right.nodes, ∀ twin ∈ left.nodes, twin.id = node.id →
      twin.content = node.content := by
    intro node isNode twin isTwin sameId
    obtain ⟨other, isOther, same⟩ := List.mem_map.1 ((pairs _).2 (List.mem_map_of_mem isNode))
    obtain ⟨sameOther, sameContent⟩ := Prod.mk.inj same
    rw [eq_of_id_eq leftDistinct isTwin isOther (sameId.trans sameOther.symm), sameContent]
  have units := unitOrder_units left
  refine ⟨fingerprintsAlong_eq_of_agree digest leftDistinct leftDistinct ⟨fun id => .rfl, ?_⟩ ?_
    leftOrder units, fingerprintsAlong_eq_of_agree digest rightDistinct leftDistinct shape agree rightOrder
      units, keys_perm digest leftDistinct units⟩
  · intro node isNode twin isTwin sameId id _
    rw [eq_of_id_eq leftDistinct isTwin isNode sameId]
  · intro node isNode twin isTwin sameId
    rw [eq_of_id_eq leftDistinct isTwin isNode sameId]

/-- The nodes of `turnedGraph` stand the other way round than in `plainGraph`, their dependencies as
well, and one of them is unknown. -/
theorem fingerprints_turnedGraph :
    fingerprintsAlong Fingerprint.of turnedGraph turnedGraph.units =
      plainGraph.fingerprints Fingerprint.of :=
  (@fingerprints_eq_of_presents Fingerprint.of plainGraph turnedGraph (by decide)
    (by decide) (fun pair => ⟨fun inside => by simpa [plainGraph, turnedGraph, or_comm] using inside,
      fun inside => by simpa [plainGraph, turnedGraph, or_comm] using inside⟩) (by decide)
    _ _ (unitOrder_units plainGraph) (unitOrder_units turnedGraph)).2.1

/-! ## An edit -/

/-- The graph with another content for one identifier. -/
def replaceContent (graph : Graph) (id : String) (content : Fingerprint) : Graph :=
  ⟨graph.nodes.map fun node => if node.id = id then { node with content } else node⟩

section Edit

variable {graph : Graph} {id : String} {content : Fingerprint}

theorem exists_of_mem_replaceContent {twin : GraphNode}
    (isTwin : twin ∈ (graph.replaceContent id content).nodes) : ∃ node ∈ graph.nodes,
      twin.id = node.id ∧ twin.dependencies = node.dependencies ∧
      twin.content = if node.id = id then content else node.content := by
  obtain ⟨node, isNode, rfl⟩ := List.mem_map.1 isTwin
  refine ⟨node, isNode, ?_⟩
  split <;> exact ⟨rfl, rfl, rfl⟩

theorem ids_replaceContent :
    (graph.replaceContent id content).nodes.map GraphNode.id = graph.nodes.map GraphNode.id := by
  rw [replaceContent, List.map_map]
  refine List.map_congr_left fun node _ => ?_
  rw [Function.comp_apply]
  split <;> rfl

variable (distinct : (graph.nodes.map GraphNode.id).Nodup)

include distinct

theorem sameShape_replaceContent : SameShape graph (graph.replaceContent id content) where
  ids other := by rw [ids_replaceContent]
  dependencies node isNode twin isTwin sameId other _ := by
    obtain ⟨source, isSource, sourceId, same, -⟩ := exists_of_mem_replaceContent isTwin
    rw [same, eq_of_id_eq distinct isSource isNode (sourceId.symm.trans sameId)]

theorem content_replaceContent {node twin : GraphNode} (isNode : node ∈ graph.nodes)
    (isTwin : twin ∈ (graph.replaceContent id content).nodes) (sameId : twin.id = node.id) :
    twin.content = if node.id = id then content else node.content := by
  obtain ⟨source, isSource, sourceId, -, same⟩ := exists_of_mem_replaceContent isTwin
  rw [same, eq_of_id_eq distinct isSource isNode (sourceId.symm.trans sameId)]

variable {units newUnits : List (List Nat)} (order : UnitOrder graph units)
  (newOrder : UnitOrder (graph.replaceContent id content) newUnits)

include order newOrder

theorem get?_replaceContent_of_not_reaches (digest : ByteArray → Fingerprint) {node : GraphNode}
    (isNode : node ∈ graph.nodes)
    (unreached : ∀ other, Relation.ReflTransGen graph.Depends node other → other.id ≠ id) :
    (fingerprintsAlong digest graph units).get? node.id =
      (fingerprintsAlong digest (graph.replaceContent id content) newUnits).get? node.id := by
  obtain ⟨before, unit, here⟩ := exists_placed distinct order isNode
  refine get?_eq_of_agree (sameShape_replaceContent distinct) (ids_replaceContent.symm ▸ distinct)
    newOrder digest ?_ here ⟨node, isNode, rfl, .refl⟩
  intro other below twin isTwin sameId
  have isOther := below.mem
  obtain ⟨start, isStart, sameStart, way⟩ := below
  obtain rfl := eq_of_id_eq distinct isStart isNode sameStart
  rw [content_replaceContent distinct isOther isTwin sameId, if_neg (unreached other way)]

/-- If nothing collides, a node that keeps its fingerprint reaches no content that is replaced by a
different one. -/
theorem content_eq_of_get?_replaceContent_eq {size : Nat} {digest : ByteArray → Fingerprint}
    (digestSize : ∀ content, (digest content).bytes.size = size)
    (sized : ∀ node ∈ graph.nodes, node.content.bytes.size = size) (contentSize : content.bytes.size = size)
    (apart : ∀ first ∈ hashedAlong digest graph units,
      ∀ second ∈ hashedAlong digest (graph.replaceContent id content) newUnits,
        digest first = digest second → first = second)
    {node edited : GraphNode} (isNode : node ∈ graph.nodes) (editedId : edited.id = id)
    (reached : Relation.ReflTransGen graph.Depends node edited)
    (same : (fingerprintsAlong digest graph units).get? node.id =
      (fingerprintsAlong digest (graph.replaceContent id content) newUnits).get? node.id) :
    content = edited.content := by
  obtain ⟨before, unit, here⟩ := exists_placed distinct order isNode
  have newSized : ∀ node ∈ (graph.replaceContent id content).nodes, node.content.bytes.size = size := by
    intro other isOther
    obtain ⟨source, isSource, -, -, equal⟩ := exists_of_mem_replaceContent isOther
    rw [equal]
    split
    · exact contentSize
    · exact sized source isSource
  have contents := contentsBelow_eq_of_get?_eq (sameShape_replaceContent distinct)
    (ids_replaceContent.symm ▸ distinct) newOrder digestSize sized newSized apart here same
  have below : graph.Below node.id edited := ⟨node, isNode, rfl, reached⟩
  have member : (edited.id, edited.content) ∈ graph.contentsBelow node.id := ⟨edited, below, rfl⟩
  rw [contents] at member
  obtain ⟨other, otherBelow, pair⟩ := member
  obtain ⟨otherId, otherContent⟩ := Prod.mk.inj pair
  have changed := content_replaceContent distinct below.mem otherBelow.mem otherId.symm
  rw [if_pos editedId, ← otherContent] at changed
  exact changed.symm

end Edit

/-- If hashing does not collide, another content for one node changes the fingerprints of exactly
the nodes that reach it, in whatever order units are hashed. -/
theorem get?_ne_iff_reaches {graph : Graph} (distinct : (graph.nodes.map GraphNode.id).Nodup)
    (sized : ∀ node ∈ graph.nodes, node.content.bytes.size = 32) {edited : GraphNode}
    (isEdited : edited ∈ graph.nodes) {content : Fingerprint} (different : content ≠ edited.content)
    (contentSize : content.bytes.size = 32) {units newUnits : List (List Nat)}
    (order : UnitOrder graph units) (newOrder : UnitOrder (graph.replaceContent edited.id content) newUnits)
    (apart :
      let hashed := hashedAlong Fingerprint.of graph units ++
        hashedAlong Fingerprint.of (graph.replaceContent edited.id content) newUnits
      ∀ first ∈ hashed, ∀ second ∈ hashed,
        Fingerprint.of first = Fingerprint.of second → first = second)
    {node : GraphNode} (isNode : node ∈ graph.nodes) :
    ∃ old new, (fingerprintsAlong Fingerprint.of graph units).get? node.id = some old ∧
      (fingerprintsAlong Fingerprint.of (graph.replaceContent edited.id content) newUnits).get? node.id =
        some new ∧
      (old ≠ new ↔ Relation.ReflTransGen graph.Depends node edited) := by
  obtain ⟨before, unit, here⟩ := exists_placed distinct order isNode
  obtain ⟨twin, isTwin, sameId⟩ := (sameShape_replaceContent distinct).exists_twin isNode
  obtain ⟨newBefore, newUnit, there⟩ :=
    exists_placed (ids_replaceContent.symm ▸ distinct) newOrder isTwin
  have found := here.get?_eq Fingerprint.of
  have newFound := sameId ▸ there.get?_eq Fingerprint.of
  refine ⟨_, _, found, newFound, fun changed => ?_, fun reached same => different ?_⟩
  · by_contra unreached
    have kept := get?_replaceContent_of_not_reaches distinct order newOrder Fingerprint.of isNode
      fun other way sameOther => unreached
        (eq_of_id_eq distinct (Below.mem ⟨node, isNode, rfl, way⟩) isEdited sameOther ▸ way)
    exact changed (Option.some.inj (found.symm.trans (kept.trans newFound)))
  · exact content_eq_of_get?_replaceContent_eq distinct order newOrder blake3_size sized contentSize
      (fun first inOld second inNew => apart first (List.mem_append_left _ inOld) second
        (List.mem_append_right _ inNew)) isNode rfl reached
      (found.trans ((congrArg some same).trans newFound.symm))

def ones : Fingerprint := ⟨⟨Array.replicate 32 1⟩⟩

/-- The bytes that stand for `a` after an edit, and those for its fingerprint. -/
def editedStrings : List ByteArray :=
  let edited := unitBytes true [⟨"a", ones, ["a", "b"]⟩] [("b", posed)]
  [edited, (Fingerprint.of edited).bytes ++ "a".toUTF8]

theorem firstByte_editedStrings :
    editedStrings.map (fun content => (Fingerprint.of content).bytes.data[0]?) = [some 67, some 181] := by
  decide +kernel

/-- What is hashed for `plainGraph` and after the edit. -/
def editStrings : List ByteArray := hashedStrings.take 3 ++ editedStrings

theorem hashed_replaceContent :
    ∀ content ∈ (plainGraph.replaceContent "a" ones).hashed Fingerprint.of, content ∈ editStrings := by
  have messages : (plainGraph.replaceContent "a" ones).messages Fingerprint.of =
      [⟨false, [⟨"b", zeros, []⟩], []⟩, ⟨true, [⟨"a", ones, ["a", "b"]⟩], [("b", posed)]⟩] := by
    rw [@messages_pair (plainGraph.replaceContent "a" ones) _ _ 1 0 (by decide +kernel) rfl rfl
      (by decide +kernel) (by decide +kernel), ← posed_eq]
    rfl
  intro content inside
  rw [hashed, messages, List.flatMap_cons, List.flatMap_cons, List.flatMap_nil, List.append_nil] at inside
  rcases List.mem_append.1 inside with first | second
  · exact List.mem_append_left _ (List.mem_of_mem_take (i := 1) first)
  · exact List.mem_append_right _ second

/-- None of the strings collide. -/
theorem eq_of_digest_editStrings_eq {first second : ByteArray} (inFirst : first ∈ editStrings)
    (inSecond : second ∈ editStrings) (same : Fingerprint.of first = Fingerprint.of second) :
    first = second := by
  have distinct : (editStrings.map fun content =>
      (Fingerprint.of content).bytes.data[0]?).Nodup := by
    rw [editStrings, List.map_append, List.map_take, firstByte_hashedStrings, firstByte_editedStrings]
    decide
  exact List.inj_on_of_nodup_map distinct inFirst inSecond
    (congrArg (fun fingerprint : Fingerprint => fingerprint.bytes.data[0]?) same)

/-- An edit of `a` in `plainGraph` changes the fingerprint of `a`, which lies on a cycle, and not that
of `b`, which it depends on. -/
theorem get?_replaceContent_plainGraph :
    let after := plainGraph.replaceContent "a" ones
    (fingerprintsAlong Fingerprint.of plainGraph plainGraph.units).get? "a" ≠
        (fingerprintsAlong Fingerprint.of after after.units).get? "a" ∧
      (fingerprintsAlong Fingerprint.of plainGraph plainGraph.units).get? "b" =
        (fingerprintsAlong Fingerprint.of after after.units).get? "b" := by
  intro after
  have apart : ∀ first ∈ hashedAlong Fingerprint.of plainGraph plainGraph.units ++
        hashedAlong Fingerprint.of after after.units,
      ∀ second ∈ hashedAlong Fingerprint.of plainGraph plainGraph.units ++
        hashedAlong Fingerprint.of after after.units,
        Fingerprint.of first = Fingerprint.of second → first = second := by
    have strings : ∀ content ∈ hashedAlong Fingerprint.of plainGraph plainGraph.units ++
        hashedAlong Fingerprint.of after after.units, content ∈ editStrings := by
      intro content inside
      rcases List.mem_append.1 inside with old | new
      · exact List.mem_append_left _ (hashed_of_messages messages_plainGraph ▸ old)
      · exact hashed_replaceContent content new
    exact fun first inFirst second inSecond =>
      eq_of_digest_editStrings_eq (strings first inFirst) (strings second inSecond)
  have changes : ∀ {node : GraphNode}, node ∈ plainGraph.nodes → _ :=
    @get?_ne_iff_reaches plainGraph (by decide) (by decide) ⟨"a", zeros, ["a", "b"]⟩ (by decide) ones
      (by decide) (by decide) _ _ (unitOrder_units plainGraph) (unitOrder_units after) apart
  constructor
  · obtain ⟨old, new, found, newFound, changed⟩ := @changes ⟨"a", zeros, ["a", "b"]⟩ (by decide)
    exact fun same => changed.2 .refl (Option.some.inj (found.symm.trans (same.trans newFound)))
  · obtain ⟨old, new, found, newFound, changed⟩ := @changes ⟨"b", zeros, []⟩ (by decide)
    have unreached : ¬ Relation.ReflTransGen plainGraph.Depends ⟨"b", zeros, []⟩ ⟨"a", zeros, ["a", "b"]⟩ := by
      intro way
      rcases way.cases_head with same | ⟨next, step, -⟩
      · exact absurd same (by decide)
      · cases step.2.2
    exact found.trans ((congrArg some (not_not.1 (mt changed.1 unreached))).trans newFound.symm)

end Bundler.Graph
