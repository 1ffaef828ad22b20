import Bundler.Proofs.Fingerprint.Encoding

/-!
# What a fingerprint says about contents

The bytes of a message tell its labels but not where members end and dependencies begin. So a
content that is itself a fingerprint can be taken for one (`Poses`), and then graphs with different
contents give the same fingerprint: `contentsBelow_posingGraph`. Nothing else goes wrong. If
hashing does not collide and no content poses, a fingerprint determines all identifiers and
contents that are reached (`contentsBelow_eq`).

The proof goes through the units of one graph in their order. Messages with the same bytes are
`Aligned` if they have as many members; then their members agree, and so do the fingerprints beside
them, which belong to earlier units.
-/

namespace Bundler.Graph

/-! ## Nodes and what they reach -/

/-- A node depends on another one of the graph. -/
def Depends (graph : Graph) (source target : GraphNode) : Prop :=
  source ∈ graph.nodes ∧ target ∈ graph.nodes ∧ target.id ∈ source.dependencies

/-- The node is reached from an identifier. -/
def Below (graph : Graph) (id : String) (node : GraphNode) : Prop :=
  ∃ start ∈ graph.nodes, start.id = id ∧ Relation.ReflTransGen graph.Depends start node

/-- The node depends on itself, perhaps through others. -/
def OnCycle (graph : Graph) (node : GraphNode) : Prop := Relation.TransGen graph.Depends node node

/-- The identifiers and contents that are reached from an identifier. -/
def contentsBelow (graph : Graph) (id : String) : Set (String × Fingerprint) :=
  {pair | ∃ node, graph.Below id node ∧ pair = (node.id, node.content)}

variable {graph : Graph}

theorem Below.mem {id : String} {node : GraphNode} (below : graph.Below id node) :
    node ∈ graph.nodes := by
  obtain ⟨start, isNode, -, reaches⟩ := below
  cases reaches with
  | refl => exact isNode
  | tail _ step => exact step.2.1

theorem Below.further {id : String} {node other : GraphNode} (below : graph.Below id node)
    (reaches : Relation.ReflTransGen graph.Depends node other) : graph.Below id other := by
  obtain ⟨start, isStart, same, before⟩ := below
  exact ⟨start, isStart, same, before.trans reaches⟩

/-- What stands beside a unit is a node that one of its members depends on. -/
theorem exists_of_beside {digest : ByteArray → Fingerprint} {before : List (List Nat)}
    {unit : List Nat} {entry : String × Fingerprint}
    (beside : entry ∈ outside (before.foldl (graph.addUnit digest) Table.empty) (graph.members unit)) :
    ∃ member ∈ graph.members unit, ∃ target, target.id = entry.1 ∧ graph.Depends member target := by
  obtain ⟨⟨member, isMember, depends⟩, -, known⟩ := (mem_outside _ _ entry).1 beside
  obtain ⟨⟨other, -, inside⟩, -⟩ := exists_of_get?_foldl_addUnit known
  obtain ⟨target, isTarget, same⟩ := List.mem_map.1 inside
  exact ⟨member, isMember, target, same, mem_nodes_of_mem_members isMember,
    mem_nodes_of_mem_members isTarget, same ▸ depends⟩

section Distinct

variable (distinct : (graph.nodes.map GraphNode.id).Nodup)

include distinct

/-- An edge between vertices is a dependency of their nodes. -/
theorem depends_of_edge {source target : Nat} (edge : Edge graph.edges source target) :
    ∃ node other, graph.nodes[source]? = some node ∧ graph.nodes[target]? = some other ∧
      graph.Depends node other := by
  rw [edge_iff] at edge
  obtain ⟨node, other, held, isOther, same, dependency, depends, found⟩ :=
    exists_of_mem_successors edge
  have isNode := List.mem_of_getElem? held
  obtain rfl := eq_of_id_eq distinct isOther isNode same
  obtain ⟨reached, reachedHeld, rfl⟩ := node_of_vertex? found
  exact ⟨other, reached, held, reachedHeld, isNode, List.mem_of_getElem? reachedHeld, depends⟩

theorem depends_of_reaches {source target : Nat} (reaches : Reaches graph.edges source target)
    {node : GraphNode} (held : graph.nodes[source]? = some node) :
    ∃ other, graph.nodes[target]? = some other ∧ Relation.ReflTransGen graph.Depends node other := by
  induction reaches with
  | refl => exact ⟨node, held, .refl⟩
  | tail _ edge ih =>
    obtain ⟨middle, middleHeld, reaches⟩ := ih
    obtain ⟨twin, other, twinHeld, otherHeld, step⟩ := depends_of_edge distinct edge
    obtain rfl := Option.some.inj (twinHeld.symm.trans middleHeld)
    exact ⟨other, otherHeld, reaches.tail step⟩

variable {digest : ByteArray → Fingerprint} {units : List (List Nat)} (order : UnitOrder graph units)
  {before after : List (List Nat)} {unit : List Nat} (split : units = before ++ unit :: after)

include order split

/-- The members of a unit reach each other. -/
theorem reaches_of_members {node other : GraphNode} (member : node ∈ graph.members unit)
    (otherMember : other ∈ graph.members unit) : Relation.ReflTransGen graph.Depends node other := by
  obtain ⟨vertex, inside, held⟩ := mem_members.1 member
  obtain ⟨position, otherInside, otherHeld⟩ := mem_members.1 otherMember
  have isUnit : unit ∈ units := by simp [split]
  have reaches := ((order.mem_iff unit isUnit vertex inside position).1 otherInside).1
  obtain ⟨twin, twinHeld, way⟩ := depends_of_reaches distinct reaches held
  obtain rfl := Option.some.inj (twinHeld.symm.trans otherHeld)
  exact way

/-- The members of a cyclic unit lie on a cycle. -/
theorem onCycle_of_isCyclic {node : GraphNode} (member : node ∈ graph.members unit)
    (cyclic : graph.isCyclic unit = true) : graph.OnCycle node := by
  obtain ⟨vertex, inside, held⟩ := mem_members.1 member
  unfold isCyclic at cyclic
  split at cyclic
  · next only =>
    obtain rfl := List.mem_singleton.1 inside
    obtain ⟨twin, other, twinHeld, otherHeld, step⟩ :=
      depends_of_edge distinct ((edge_iff graph vertex vertex).2 (List.contains_iff_mem.1 cyclic))
    obtain rfl := Option.some.inj (twinHeld.symm.trans held)
    obtain rfl := Option.some.inj (otherHeld.symm.trans held)
    exact .single step
  · next several =>
    have unique : unit.Nodup :=
      (List.nodup_flatten.1 (order.perm.nodup_iff.2 List.nodup_range)).1 unit (by simp [split])
    obtain ⟨position, otherInside, differs⟩ : ∃ position ∈ unit, position ≠ vertex := by
      by_contra! alike
      refine several vertex (List.perm_singleton.1 ?_)
      refine (List.perm_ext_iff_of_nodup unique (List.nodup_singleton vertex)).2 fun position => ?_
      exact ⟨fun held => List.mem_singleton.2 (alike position held),
        fun held => List.mem_singleton.1 held ▸ inside⟩
    have reaches := (order.mem_iff unit (by simp [split]) vertex inside position).1 otherInside
    obtain ⟨other, otherHeld, way⟩ := depends_of_reaches distinct reaches.1 held
    have back := reaches_of_members distinct order split
      (mem_members.2 ⟨position, otherInside, otherHeld⟩) member
    have apart : other ≠ node := by
      rintro rfl
      have first := vertex?_of_node distinct held
      rw [vertex?_of_node distinct otherHeld] at first
      exact differs (Option.some.inj first)
    exact ((Relation.reflTransGen_iff_eq_or_transGen.1 way).resolve_left apart).trans_left back

variable (digest) in
/-- A dependency of a member is a member or stands beside the members. -/
theorem member_or_beside {node target : GraphNode} (member : node ∈ graph.members unit)
    (step : graph.Depends node target) :
    target ∈ graph.members unit ∨
      ∃ entry ∈ outside (before.foldl (graph.addUnit digest) Table.empty) (graph.members unit),
        entry.1 = target.id := by
  obtain ⟨-, isTarget, depends⟩ := step
  by_cases inside : target.id ∈ (graph.members unit).map GraphNode.id
  · obtain ⟨twin, twinMember, same⟩ := List.mem_map.1 inside
    obtain rfl := eq_of_id_eq distinct (mem_nodes_of_mem_members twinMember) isTarget same
    exact .inl twinMember
  · rcases known_of_dependency distinct order split member depends isTarget with within | known
    · exact .inl within
    · obtain ⟨fingerprint, found⟩ := Option.isSome_iff_exists.1 known
      exact .inr ⟨(target.id, fingerprint), (mem_outside _ _ _).2 ⟨⟨node, member, depends⟩, inside, found⟩,
        rfl⟩

variable (digest) in
/-- What the members of a unit reach: the members themselves, and what is reached from the
dependencies beside them. -/
theorem mem_contentsBelow_iff {node : GraphNode} (member : node ∈ graph.members unit)
    (pair : String × Fingerprint) :
    let message := graph.messageOf (before.foldl (graph.addUnit digest) Table.empty) unit
    pair ∈ graph.contentsBelow node.id ↔
      pair ∈ message.members.map (fun member => (member.id, member.content)) ∨
        ∃ entry ∈ message.outside, pair ∈ graph.contentsBelow entry.1 := by
  intro message
  have isNode := mem_nodes_of_mem_members member
  constructor
  · rintro ⟨target, ⟨start, isStart, sameId, reaches⟩, rfl⟩
    obtain rfl := eq_of_id_eq distinct isStart isNode sameId
    clear isStart isNode sameId
    induction reaches using Relation.ReflTransGen.head_induction_on with
    | refl => exact .inl (List.mem_map.2 ⟨target, member, rfl⟩)
    | @head source middle step rest ih =>
      rcases member_or_beside distinct digest order split member step with
        within | ⟨entry, beside, same⟩
      · exact ih within
      · exact .inr ⟨entry, beside, target, ⟨middle, step.2.1, same.symm, rest⟩, rfl⟩
  · rintro (inside | ⟨entry, beside, target, ⟨start, isStart, sameId, reaches⟩, rfl⟩)
    · obtain ⟨other, otherMember, rfl⟩ := List.mem_map.1 inside
      exact ⟨other, ⟨node, isNode, rfl, reaches_of_members distinct order split member otherMember⟩,
        rfl⟩
    · obtain ⟨issuer, isMember, dependency, same, step⟩ :=
        exists_of_beside beside
      obtain rfl := eq_of_id_eq distinct isStart step.2.1 (sameId.trans same.symm)
      have way := reaches_of_members distinct order split member isMember
      exact ⟨target, ⟨node, isNode, rfl, (way.tail step).trans reaches⟩, rfl⟩

/-- A label beside a unit is a fingerprint of a node that its members reach, in an earlier
unit. -/
theorem exists_of_mem_outside {entry : String × Fingerprint}
    (beside : entry ∈ outside (before.foldl (graph.addUnit digest) Table.empty) (graph.members unit))
    {node : GraphNode} (member : node ∈ graph.members unit) :
    ∃ first earlier second target, before = first ++ earlier :: second ∧
      target ∈ graph.members earlier ∧ target.id = entry.1 ∧
      Relation.ReflTransGen graph.Depends node target ∧
      (units.foldl (graph.addUnit digest) Table.empty).get? entry.1 = some entry.2 := by
  obtain ⟨-, -, known⟩ := (mem_outside _ _ entry).1 beside
  obtain ⟨⟨earlier, isBefore, inside⟩, -⟩ := exists_of_get?_foldl_addUnit known
  obtain ⟨target, isTarget, sameId⟩ := List.mem_map.1 inside
  obtain ⟨first, second, cut⟩ := List.append_of_mem isBefore
  obtain ⟨issuer, isMember, twin, twinId, step⟩ := exists_of_beside beside
  obtain rfl := eq_of_id_eq distinct step.2.1 (mem_nodes_of_mem_members isTarget)
    (twinId.trans sameId.symm)
  exact ⟨first, earlier, second, twin, cut, isTarget, sameId,
    (reaches_of_members distinct order split member isMember).tail step,
    get?_of_known distinct order split known⟩

end Distinct

theorem get?_of_mem_messages {digest : ByteArray → Fingerprint}
    (distinct : (graph.nodes.map GraphNode.id).Nodup) {message : UnitMessage}
    (isMessage : message ∈ graph.messages digest) (node : GraphNode) (member : node ∈ message.members) :
    (graph.fingerprints digest).get? node.id = some (message.fingerprint digest node.id) := by
  obtain ⟨before, unit, after, split, rfl⟩ := mem_messagesFrom isMessage
  exact get?_of_split distinct (unitOrder_units graph) split member

/-- The fingerprint of a node is the digest of a string that was hashed. -/
theorem exists_mem_hashed (digest : ByteArray → Fingerprint)
    (distinct : (graph.nodes.map GraphNode.id).Nodup) {node : GraphNode} (isNode : node ∈ graph.nodes) :
    ∃ content ∈ graph.hashed digest,
      (graph.fingerprints digest).get? node.id = some (digest content) := by
  obtain ⟨message, isMessage, member, found⟩ :=
    exists_message digest distinct (unitOrder_units graph) isNode
  refine ⟨if message.cyclic then message.memberBytes digest node.id else message.bytes,
    List.mem_flatMap.2 ⟨message, isMessage, ?_⟩, found.trans ?_⟩
  · unfold UnitMessage.hashed
    split
    · exact List.mem_cons_of_mem _ (List.mem_map.2 ⟨node, member, rfl⟩)
    · exact List.mem_cons_self
  · rw [UnitMessage.fingerprint]
    split <;> rfl

/-! ## Two graphs -/

/-- A graph with different identifiers, none with a zero character, and contents as long as a
fingerprint. -/
structure WellFormed (size : Nat) (graph : Graph) : Prop where
  distinct : (graph.nodes.map GraphNode.id).Nodup
  plain : ∀ node ∈ graph.nodes, '\x00' ∉ node.id.toList
  sized : ∀ node ∈ graph.nodes, node.content.bytes.size = size

theorem readable_labels {size : Nat} {digest : ByteArray → Fingerprint}
    (digestSize : ∀ content, (digest content).bytes.size = size) (well : graph.WellFormed size)
    {message : UnitMessage} (member : message ∈ graph.messages digest) :
    ∀ label ∈ message.labels, Readable size label := by
  have covers := covering well.distinct (unitOrder_units graph) member
  intro label held
  obtain ⟨node, isNode, same⟩ := covers.isNode label held
  refine ⟨same ▸ well.plain node isNode, ?_⟩
  rcases List.mem_append.1 held with inside | beside
  · obtain ⟨node, isMember, rfl⟩ := List.mem_map.1 inside
    exact well.sized node (covers.member node isMember)
  · obtain ⟨-, content, made⟩ := exists_of_get?_foldl_addUnit (covers.outside label beside)
    rw [made]
    exact digestSize content

/-- A unit of each of two graphs gives its members the same fingerprints only from the same labels
of members and the same labels beside them. -/
def SameParts (digest : ByteArray → Fingerprint) (left right : Graph)
    (leftUnits rightUnits : List (List Nat)) (top : String) : Prop :=
  ∀ {leftBefore leftUnit leftAfter rightBefore rightUnit rightAfter},
    leftUnits = leftBefore ++ leftUnit :: leftAfter →
    rightUnits = rightBefore ++ rightUnit :: rightAfter →
    ∀ node other, node ∈ left.members leftUnit → other ∈ right.members rightUnit →
      other.id = node.id → left.Below top node → right.Below top other →
      (leftUnits.foldl (left.addUnit digest) Table.empty).get? node.id =
        (rightUnits.foldl (right.addUnit digest) Table.empty).get? node.id →
      (left.members leftUnit).map (fun member => (member.id, member.content)) =
          (right.members rightUnit).map (fun member => (member.id, member.content)) ∧
        outside (leftBefore.foldl (left.addUnit digest) Table.empty) (left.members leftUnit) =
          outside (rightBefore.foldl (right.addUnit digest) Table.empty) (right.members rightUnit)

/-- Where fingerprints determine the parts of messages they determine the contents. -/
theorem contentsBelow_eq_of_parts {digest : ByteArray → Fingerprint} {left right : Graph}
    (leftDistinct : (left.nodes.map GraphNode.id).Nodup)
    (rightDistinct : (right.nodes.map GraphNode.id).Nodup) {leftUnits rightUnits : List (List Nat)}
    (leftOrder : UnitOrder left leftUnits) (rightOrder : UnitOrder right rightUnits) {top : String}
    (parts : SameParts digest left right leftUnits rightUnits top)
    {before after : List (List Nat)} {unit : List Nat} (split : leftUnits = before ++ unit :: after)
    {node other : GraphNode} (member : node ∈ left.members unit) (isOther : other ∈ right.nodes)
    (sameId : other.id = node.id) (below : left.Below top node) (otherBelow : right.Below top other)
    (same : (leftUnits.foldl (left.addUnit digest) Table.empty).get? node.id =
      (rightUnits.foldl (right.addUnit digest) Table.empty).get? node.id) :
    left.contentsBelow node.id = right.contentsBelow node.id := by
  -- The labels beside a unit are fingerprints of earlier units.
  induction position : before.length using Nat.strong_induction_on
    generalizing before unit after node other with
  | _ count ih =>
    obtain ⟨rightBefore, rightUnit, rightAfter, rightSplit, otherMember⟩ :=
      exists_split rightOrder isOther
    obtain ⟨members, outsides⟩ :=
      parts split rightSplit node other member otherMember sameId below otherBelow same
    ext pair
    have leftView := mem_contentsBelow_iff leftDistinct digest leftOrder split member pair
    have rightView := mem_contentsBelow_iff rightDistinct digest rightOrder rightSplit otherMember pair
    dsimp only [messageOf] at leftView rightView
    rw [leftView, ← sameId, rightView, members, outsides]
    refine or_congr_right (exists_congr fun entry => and_congr_right fun beside => ?_)
    obtain ⟨first, earlier, second, target, cut, isTarget, targetId, way, found⟩ :=
      exists_of_mem_outside leftDistinct leftOrder split (outsides ▸ beside) member
    obtain ⟨_, _, _, twin, -, isTwin, twinId, twinWay, twinFound⟩ :=
      exists_of_mem_outside rightDistinct rightOrder rightSplit beside otherMember
    have shorter : first.length < count := by
      rw [← position, cut, List.length_append, List.length_cons]
      omega
    have earlierSplit : leftUnits = first ++ earlier :: (second ++ unit :: after) := by
      rw [split, cut, List.append_assoc]
      rfl
    have equal := ih first.length shorter earlierSplit isTarget (mem_nodes_of_mem_members isTwin)
      (twinId.trans targetId.symm) (below.further way) (otherBelow.further twinWay)
      (by rw [targetId]; exact found.trans twinFound.symm) rfl
    rw [targetId] at equal
    rw [equal]

section TwoGraphs

variable {size : Nat} {digest : ByteArray → Fingerprint}
  (digestSize : ∀ content, (digest content).bytes.size = size) {left right : Graph}
  (leftWell : left.WellFormed size) (rightWell : right.WellFormed size)
  (apart : ∀ first ∈ left.hashed digest, ∀ second ∈ right.hashed digest,
    digest first = digest second → first = second)

/-- A content reached in the first graph is the fingerprint that the second one gives to the same
identifier, which it reaches as well. -/
def Poses (digest : ByteArray → Fingerprint) (left right : Graph) (id : String) : Prop :=
  ∃ node other, left.Below id node ∧ right.Below id other ∧ other.id = node.id ∧
    (right.fingerprints digest).get? node.id = some node.content

/-- Below an identifier, messages with the same bytes have as many members. -/
def Aligned (digest : ByteArray → Fingerprint) (left right : Graph) (id : String) : Prop :=
  ∀ leftMessage ∈ left.messages digest, ∀ rightMessage ∈ right.messages digest,
    (∃ member ∈ leftMessage.members, left.Below id member) →
    (∃ member ∈ rightMessage.members, right.Below id member) →
    leftMessage.bytes = rightMessage.bytes →
      leftMessage.members.length = rightMessage.members.length

include digestSize leftWell rightWell in
/-- Messages with the same bytes have the same labels. -/
theorem labels_eq_of_mem_messages {leftMessage rightMessage : UnitMessage}
    (leftIs : leftMessage ∈ left.messages digest) (rightIs : rightMessage ∈ right.messages digest)
    (same : leftMessage.bytes = rightMessage.bytes) : leftMessage.labels = rightMessage.labels :=
  UnitMessage.labels_eq_of_bytes_eq (readable_labels digestSize leftWell leftIs)
    (readable_labels digestSize rightWell rightIs) same

include leftWell rightWell in
/-- What one message has among its members and another one with the same bytes beside them is a
content that is a fingerprint. -/
theorem poses_of_beside {top : String} {leftBefore leftAfter rightBefore rightAfter : List (List Nat)}
    {leftUnit rightUnit : List Nat} (leftSplit : left.units = leftBefore ++ leftUnit :: leftAfter)
    (rightSplit : right.units = rightBefore ++ rightUnit :: rightAfter) {node other : GraphNode}
    (member : node ∈ left.members leftUnit) (otherMember : other ∈ right.members rightUnit)
    (below : left.Below top node) (otherBelow : right.Below top other)
    {entry : String × Fingerprint}
    (inside : entry ∈ (left.messageOf (leftBefore.foldl (left.addUnit digest) Table.empty)
      leftUnit).members.map fun member => (member.id, member.content))
    (beside : entry ∈ (right.messageOf (rightBefore.foldl (right.addUnit digest) Table.empty)
      rightUnit).outside) : Poses digest left right top := by
  obtain ⟨posing, isMember, rfl⟩ := List.mem_map.1 inside
  obtain ⟨_, _, _, target, -, -, targetId, way, found⟩ :=
    exists_of_mem_outside rightWell.distinct (unitOrder_units right) rightSplit beside otherMember
  exact ⟨posing, target,
    below.further (reaches_of_members leftWell.distinct (unitOrder_units left) leftSplit member isMember),
    otherBelow.further way, targetId, found⟩

include digestSize leftWell rightWell in
/-- If no content poses as a fingerprint, messages with the same bytes have the same members. -/
theorem aligned_of_not_poses {top : String} (leftHonest : ¬ Poses digest left right top)
    (rightHonest : ¬ Poses digest right left top) : Aligned digest left right top := by
  rintro _ leftIs _ rightIs ⟨node, member, below⟩ ⟨other, otherMember, otherBelow⟩ bytes
  have labels := labels_eq_of_mem_messages digestSize leftWell rightWell leftIs rightIs bytes
  obtain ⟨leftBefore, leftUnit, leftAfter, leftSplit, rfl⟩ := mem_messagesFrom leftIs
  obtain ⟨rightBefore, rightUnit, rightAfter, rightSplit, rfl⟩ := mem_messagesFrom rightIs
  rcases List.append_eq_append_iff.1 labels with ⟨surplus, inside, beside⟩ | ⟨surplus, inside, beside⟩
  · cases surplus with
    | nil => simpa using (congrArg List.length inside).symm
    | cons entry rest =>
      exact absurd (poses_of_beside rightWell leftWell rightSplit leftSplit otherMember member
        otherBelow below (inside ▸ List.mem_append_right _ List.mem_cons_self)
        (beside ▸ List.mem_cons_self)) rightHonest
  · cases surplus with
    | nil => simpa using congrArg List.length inside
    | cons entry rest =>
      exact absurd (poses_of_beside leftWell rightWell leftSplit rightSplit member otherMember
        below otherBelow (inside ▸ List.mem_append_right _ List.mem_cons_self)
        (beside ▸ List.mem_cons_self)) leftHonest

include leftWell rightWell in
/-- Off all cycles every message has one member. -/
theorem aligned_of_not_onCycle {top : String}
    (acyclic : ∀ node, left.Below top node → ¬ left.OnCycle node) :
    Aligned digest left right top := by
  rintro leftMessage leftIs rightMessage rightIs ⟨node, member, below⟩ - bytes
  have plain : leftMessage.cyclic = false := by
    obtain ⟨before, unit, after, split, rfl⟩ := mem_messagesFrom leftIs
    refine Bool.eq_false_iff.2 fun cyclic => acyclic node below ?_
    exact onCycle_of_isCyclic leftWell.distinct (unitOrder_units left) split member cyclic
  have alsoPlain : rightMessage.cyclic = false := by
    rw [← UnitMessage.cyclic_eq_of_bytes_eq bytes, plain]
  obtain ⟨one, leftAlone⟩ := (covering leftWell.distinct (unitOrder_units left) leftIs).alone plain
  obtain ⟨other, rightAlone⟩ :=
    (covering rightWell.distinct (unitOrder_units right) rightIs).alone alsoPlain
  rw [leftAlone, rightAlone]
  rfl

include digestSize leftWell rightWell apart

/-- Nodes with one fingerprint stand in messages with the same bytes. -/
theorem bytes_eq_of_get?_eq {leftBefore leftAfter rightBefore rightAfter : List (List Nat)}
    {leftUnit rightUnit : List Nat} (leftSplit : left.units = leftBefore ++ leftUnit :: leftAfter)
    (rightSplit : right.units = rightBefore ++ rightUnit :: rightAfter) {node other : GraphNode}
    (member : node ∈ left.members leftUnit) (otherMember : other ∈ right.members rightUnit)
    (sameId : other.id = node.id)
    (same : (left.fingerprints digest).get? node.id = (right.fingerprints digest).get? node.id) :
    (left.messageOf (leftBefore.foldl (left.addUnit digest) Table.empty) leftUnit).bytes =
      (right.messageOf (rightBefore.foldl (right.addUnit digest) Table.empty) rightUnit).bytes := by
  have leftIs := messageOf_mem digest left leftSplit
  have rightIs := messageOf_mem digest right rightSplit
  have fingerprints := same
  rw [Graph.fingerprints, get?_of_split leftWell.distinct (unitOrder_units left) leftSplit member,
    ← sameId, Graph.fingerprints,
    get?_of_split rightWell.distinct (unitOrder_units right) rightSplit otherMember, sameId,
    Option.some.injEq] at fingerprints
  refine UnitMessage.bytes_eq_of_fingerprint_eq digestSize
    (readable_labels digestSize leftWell leftIs) (readable_labels digestSize rightWell rightIs)
    ⟨node, member, rfl⟩ ⟨other, otherMember, sameId⟩ (fun first inLeft second inRight => ?_)
    fingerprints
  exact apart first (List.mem_flatMap.2 ⟨_, leftIs, inLeft⟩)
    second (List.mem_flatMap.2 ⟨_, rightIs, inRight⟩)

/-- Below aligned messages a fingerprint determines the contents. -/
theorem contentsBelow_eq_of_aligned {top : String} (aligned : Aligned digest left right top)
    {before after : List (List Nat)} {unit : List Nat} (split : left.units = before ++ unit :: after)
    {node other : GraphNode} (member : node ∈ left.members unit) (isOther : other ∈ right.nodes)
    (sameId : other.id = node.id) (below : left.Below top node) (otherBelow : right.Below top other)
    (same : (left.fingerprints digest).get? node.id = (right.fingerprints digest).get? node.id) :
    left.contentsBelow node.id = right.contentsBelow node.id := by
  refine contentsBelow_eq_of_parts leftWell.distinct rightWell.distinct (unitOrder_units left)
    (unitOrder_units right) (fun leftSplit rightSplit node other member otherMember sameId below
      otherBelow same => ?_) split member isOther sameId below otherBelow same
  have leftIs := messageOf_mem digest left leftSplit
  have rightIs := messageOf_mem digest right rightSplit
  have bytes := bytes_eq_of_get?_eq digestSize leftWell rightWell apart leftSplit rightSplit member
    otherMember sameId same
  have lengths := aligned _ leftIs _ rightIs ⟨node, member, below⟩ ⟨other, otherMember, otherBelow⟩
    bytes
  exact List.append_inj
    (labels_eq_of_mem_messages digestSize leftWell rightWell leftIs rightIs bytes) (by simpa [messageOf] using lengths)

end TwoGraphs

/-- Contents that are equal do not pose, unless a node has its own fingerprint as its content. -/
theorem not_poses_of_contentsBelow_eq {digest : ByteArray → Fingerprint} {left right : Graph}
    {id : String} (same : left.contentsBelow id = right.contentsBelow id)
    (fresh : ∀ node, right.Below id node →
      (right.fingerprints digest).get? node.id ≠ some node.content) : ¬ Poses digest left right id := by
  rintro ⟨node, -, below, -, -, found⟩
  have shared : (node.id, node.content) ∈ right.contentsBelow id := same ▸ ⟨node, below, rfl⟩
  obtain ⟨twin, twinBelow, pairs⟩ := shared
  obtain ⟨ids, contents⟩ := Prod.mk.inj pairs
  exact fresh twin twinBelow (by rw [← ids, ← contents, found])

/-- If hashing does not collide, equal fingerprints of an identifier mean that it reaches the same
identifiers and contents exactly if none of these contents poses as a fingerprint; only where
dependencies form a cycle can one. -/
theorem contentsBelow_eq {left right : Graph} (leftWell : left.WellFormed 32)
    (rightWell : right.WellFormed 32)
    (apart : ∀ first ∈ left.hashed Fingerprint.of, ∀ second ∈ right.hashed Fingerprint.of,
      Fingerprint.of first = Fingerprint.of second → first = second)
    {id : String} (inLeft : id ∈ left.nodes.map GraphNode.id)
    (inRight : id ∈ right.nodes.map GraphNode.id)
    (same : (left.fingerprints Fingerprint.of).get? id = (right.fingerprints Fingerprint.of).get? id) :
    (¬ Poses Fingerprint.of left right id → ¬ Poses Fingerprint.of right left id →
      left.contentsBelow id = right.contentsBelow id) ∧
    ((∀ node, left.Below id node → ¬ left.OnCycle node) →
      left.contentsBelow id = right.contentsBelow id) ∧
    (left.contentsBelow id = right.contentsBelow id →
      (∀ node, left.Below id node →
        (left.fingerprints Fingerprint.of).get? node.id ≠ some node.content) →
      (∀ node, right.Below id node →
        (right.fingerprints Fingerprint.of).get? node.id ≠ some node.content) →
      ¬ Poses Fingerprint.of left right id ∧ ¬ Poses Fingerprint.of right left id) := by
  have digestSize : ∀ content, (Fingerprint.of content).bytes.size = 32 := blake3_size
  obtain ⟨node, isNode, rfl⟩ := List.mem_map.1 inLeft
  obtain ⟨other, isOther, sameId⟩ := List.mem_map.1 inRight
  obtain ⟨before, unit, after, split, member⟩ := exists_split (unitOrder_units left) isNode
  have enough : Aligned Fingerprint.of left right node.id →
      left.contentsBelow node.id = right.contentsBelow node.id := fun aligned =>
    contentsBelow_eq_of_aligned digestSize leftWell rightWell apart aligned split member isOther
      sameId ⟨node, isNode, rfl, .refl⟩ ⟨other, isOther, sameId, .refl⟩ same
  refine ⟨fun leftHonest rightHonest => ?_, fun acyclic => ?_, fun contents leftFresh rightFresh => ?_⟩
  · exact enough (aligned_of_not_poses digestSize leftWell rightWell leftHonest rightHonest)
  · exact enough (aligned_of_not_onCycle leftWell rightWell acyclic)
  · exact ⟨not_poses_of_contentsBelow_eq contents rightFresh,
      not_poses_of_contentsBelow_eq contents.symm leftFresh⟩

/-! ## A content that is a fingerprint -/

def zeros : Fingerprint := ⟨⟨Array.replicate 32 0⟩⟩

/-- The node `a` depends on itself and on `b`. -/
def plainGraph : Graph := ⟨[⟨"a", zeros, ["a", "b"]⟩, ⟨"b", zeros, []⟩]⟩

/-- The nodes of `plainGraph` the other way round, and a dependency on no node. -/
def turnedGraph : Graph := ⟨[⟨"b", zeros, ["c"]⟩, ⟨"a", zeros, ["b", "a"]⟩]⟩

/-- The fingerprint of `b` in `plainGraph`. -/
def posed : Fingerprint :=
  ⟨⟨#[41, 85, 227, 175, 132, 37, 228, 150, 79, 91, 16, 225, 113, 113, 143, 72, 103, 19, 227, 202, 53,
    108, 208, 254, 206, 144, 181, 49, 13, 240, 87, 220]⟩⟩

/-- The content of `b` is its fingerprint in `plainGraph`, and it depends on `a`. -/
def posingGraph : Graph := ⟨[⟨"b", posed, ["a"]⟩, ⟨"a", zeros, ["a", "b"]⟩]⟩

theorem posed_eq : Fingerprint.of (unitBytes false [⟨"b", zeros, []⟩] []) = posed := by
  decide +kernel

theorem messages_posingGraph : posingGraph.messages Fingerprint.of =
    [⟨true, [⟨"a", zeros, ["a", "b"]⟩, ⟨"b", posed, ["a"]⟩], []⟩] := by
  have units : posingGraph.units = [[1, 0]] := by decide +kernel
  have members : posingGraph.members [1, 0] = [⟨"a", zeros, ["a", "b"]⟩, ⟨"b", posed, ["a"]⟩] :=
    List.mergeSort_of_pairwise (by decide)
  rw [messages, units]
  simp only [messagesFrom, messageOf, members]
  rfl

/-- The messages of two units with one node each. -/
theorem messages_pair {graph : Graph} {node other : GraphNode}
    (first second : Nat) (units : graph.units = [[first], [second]]) (held : graph.nodes[first]? = some node)
    (otherHeld : graph.nodes[second]? = some other) (plain : graph.isCyclic [first] = false)
    (cyclic : graph.isCyclic [second] = true) (digest : ByteArray → Fingerprint) :
    let beside := outside Table.empty [node]
    graph.messages digest = [⟨false, [node], beside⟩, ⟨true, [other],
      outside (Table.empty.insert node.id (digest (unitBytes false [node] beside))) [other]⟩] := by
  simp [messages, units, messagesFrom, messageOf, addUnit, members, held, otherHeld, plain, cyclic]

theorem messages_plainGraph : plainGraph.messages Fingerprint.of =
    [⟨false, [⟨"b", zeros, []⟩], []⟩, ⟨true, [⟨"a", zeros, ["a", "b"]⟩], [("b", posed)]⟩] := by
  rw [@messages_pair plainGraph _ _ 1 0 (by decide +kernel) rfl rfl
    (by decide +kernel) (by decide +kernel), ← posed_eq]
  rfl

theorem messages_turnedGraph : turnedGraph.messages Fingerprint.of =
    [⟨false, [⟨"b", zeros, ["c"]⟩], []⟩, ⟨true, [⟨"a", zeros, ["b", "a"]⟩], [("b", posed)]⟩] := by
  rw [@messages_pair turnedGraph _ _ 0 1 (by decide +kernel) rfl rfl
    (by decide +kernel) (by decide +kernel), ← posed_eq]
  rfl

/-- The bytes that stand for `a` and `b` in `posingGraph`. -/
def wholeBytes : ByteArray :=
  unitBytes true [⟨"a", zeros, ["a", "b"]⟩, ⟨"b", posed, ["a"]⟩] []

/-- They also stand for `a` and what it depends on in `plainGraph`. -/
theorem unitBytes_beside (dependencies : List String) :
    unitBytes true [⟨"a", zeros, dependencies⟩] [("b", posed)] = wholeBytes := by
  change unitBytes true [⟨"a", zeros, []⟩] [("b", posed)] = wholeBytes
  decide +kernel

/-- What is hashed for the graphs. -/
def hashedStrings : List ByteArray :=
  [unitBytes false [⟨"b", zeros, []⟩] [], wholeBytes,
    (Fingerprint.of wholeBytes).bytes ++ "a".toUTF8, (Fingerprint.of wholeBytes).bytes ++ "b".toUTF8]

theorem hashed_posingGraph : posingGraph.hashed Fingerprint.of = hashedStrings.tail := by
  rw [hashed, messages_posingGraph]
  rfl

theorem hashed_of_messages {graph : Graph} {few many : List String}
    (messages : graph.messages Fingerprint.of =
      [⟨false, [⟨"b", zeros, few⟩], []⟩, ⟨true, [⟨"a", zeros, many⟩], [("b", posed)]⟩]) :
    graph.hashed Fingerprint.of = hashedStrings.take 3 := by
  rw [hashed, messages]
  simp only [List.flatMap_cons, List.flatMap_nil, UnitMessage.hashed, UnitMessage.memberBytes,
    UnitMessage.bytes, unitBytes_beside]
  rfl

theorem firstByte_hashedStrings :
    hashedStrings.map (fun content => (Fingerprint.of content).bytes.data[0]?) =
      [some 41, some 182, some 117, some 242] := by
  decide +kernel

/-- None of the strings collide. -/
theorem eq_of_digest_eq {first second : ByteArray} (inFirst : first ∈ hashedStrings)
    (inSecond : second ∈ hashedStrings) (same : Fingerprint.of first = Fingerprint.of second) :
    first = second := by
  have distinct : (hashedStrings.map fun content =>
      (Fingerprint.of content).bytes.data[0]?).Nodup := by
    rw [firstByte_hashedStrings]
    decide
  exact List.inj_on_of_nodup_map distinct inFirst inSecond
    (congrArg (fun fingerprint : Fingerprint => fingerprint.bytes.data[0]?) same)

/-- None of the strings has the content of a node of `plainGraph` as its fingerprint. -/
theorem digest_ne_zeros {content : ByteArray} (inside : content ∈ hashedStrings) :
    Fingerprint.of content ≠ zeros := by
  intro same
  have member := List.mem_map_of_mem (f := fun content => (Fingerprint.of content).bytes.data[0]?)
    inside
  rw [firstByte_hashedStrings, same] at member
  revert member
  decide

theorem get?_posingGraph : (posingGraph.fingerprints Fingerprint.of).get? "a" =
    some (Fingerprint.of ((Fingerprint.of wholeBytes).bytes ++ "a".toUTF8)) := by
  have isMessage : ⟨true, [⟨"a", zeros, ["a", "b"]⟩, ⟨"b", posed, ["a"]⟩], []⟩ ∈
      posingGraph.messages Fingerprint.of := messages_posingGraph ▸ List.mem_cons_self
  exact get?_of_mem_messages (by decide) isMessage ⟨"a", zeros, ["a", "b"]⟩ List.mem_cons_self

theorem get?_of_messages {graph : Graph} {few many : List String}
    (messages : graph.messages Fingerprint.of =
      [⟨false, [⟨"b", zeros, few⟩], []⟩, ⟨true, [⟨"a", zeros, many⟩], [("b", posed)]⟩])
    (distinct : (graph.nodes.map GraphNode.id).Nodup) :
    (graph.fingerprints Fingerprint.of).get? "a" =
      some (Fingerprint.of ((Fingerprint.of wholeBytes).bytes ++ "a".toUTF8)) := by
  rw [← unitBytes_beside many]
  have isMessage : ⟨true, [⟨"a", zeros, many⟩], [("b", posed)]⟩ ∈
      graph.messages Fingerprint.of := messages ▸ List.mem_cons_of_mem _ List.mem_cons_self
  exact get?_of_mem_messages distinct isMessage ⟨"a", zeros, many⟩ List.mem_cons_self

/-- No fingerprint of a graph whose strings are these is the content of a node that holds
zeros. -/
theorem not_poses_of_zeros {left right : Graph} {id : String}
    (contents : ∀ node ∈ left.nodes, node.content = zeros)
    (distinct : (right.nodes.map GraphNode.id).Nodup)
    (strings : ∀ content ∈ right.hashed Fingerprint.of, content ∈ hashedStrings) :
    ¬ Poses Fingerprint.of left right id := by
  rintro ⟨node, other, below, otherBelow, sameId, found⟩
  obtain ⟨content, inside, made⟩ := exists_mem_hashed Fingerprint.of distinct otherBelow.mem
  rw [← sameId, made, contents node below.mem] at found
  exact digest_ne_zeros (strings content inside) (Option.some.inj found)

/-- The order of the nodes does not matter, nor a dependency on no node. -/
theorem contentsBelow_turnedGraph :
    (plainGraph.fingerprints Fingerprint.of).get? "a" =
        (turnedGraph.fingerprints Fingerprint.of).get? "a" ∧
      plainGraph.contentsBelow "a" = turnedGraph.contentsBelow "a" := by
  have plainWell : plainGraph.WellFormed 32 := ⟨by decide, by decide, by decide⟩
  have turnedWell : turnedGraph.WellFormed 32 := ⟨by decide, by decide, by decide⟩
  have plainStrings : ∀ content ∈ plainGraph.hashed Fingerprint.of, content ∈ hashedStrings :=
    fun content inside => List.mem_of_mem_take (hashed_of_messages messages_plainGraph ▸ inside)
  have turnedStrings : ∀ content ∈ turnedGraph.hashed Fingerprint.of, content ∈ hashedStrings :=
    fun content inside => List.mem_of_mem_take (hashed_of_messages messages_turnedGraph ▸ inside)
  have same := (get?_of_messages messages_plainGraph plainWell.distinct).trans
    (get?_of_messages messages_turnedGraph turnedWell.distinct).symm
  refine ⟨same, (contentsBelow_eq plainWell turnedWell ?_ (by decide) (by decide) same).1 ?_ ?_⟩
  · exact fun first inFirst second inSecond =>
      eq_of_digest_eq (plainStrings first inFirst) (turnedStrings second inSecond)
  · exact not_poses_of_zeros (by decide) turnedWell.distinct turnedStrings
  · exact not_poses_of_zeros (by decide) plainWell.distinct plainStrings

/-- The content of `b` in `posingGraph` is taken for the fingerprint of `b` in `plainGraph`, so that
`a` has one fingerprint in both although it reaches different contents. -/
theorem contentsBelow_posingGraph :
    posingGraph.WellFormed 32 ∧ plainGraph.WellFormed 32 ∧
    (∀ first ∈ posingGraph.hashed Fingerprint.of ++ plainGraph.hashed Fingerprint.of,
      ∀ second ∈ posingGraph.hashed Fingerprint.of ++ plainGraph.hashed Fingerprint.of,
        Fingerprint.of first = Fingerprint.of second → first = second) ∧
    "a" ∈ posingGraph.nodes.map GraphNode.id ∧ "a" ∈ plainGraph.nodes.map GraphNode.id ∧
    (posingGraph.fingerprints Fingerprint.of).get? "a" =
      (plainGraph.fingerprints Fingerprint.of).get? "a" ∧
    posingGraph.contentsBelow "a" ≠ plainGraph.contentsBelow "a" := by
  refine ⟨⟨by decide, by decide, by decide⟩, ⟨by decide, by decide, by decide⟩, ?_, by decide,
    by decide, ?_, fun same => ?_⟩
  · have strings : ∀ content ∈ posingGraph.hashed Fingerprint.of ++ plainGraph.hashed Fingerprint.of,
        content ∈ hashedStrings := by
      intro content inside
      rw [hashed_posingGraph, hashed_of_messages messages_plainGraph] at inside
      exact (List.mem_append.1 inside).elim List.mem_of_mem_tail List.mem_of_mem_take
    exact fun first inFirst second inSecond =>
      eq_of_digest_eq (strings first inFirst) (strings second inSecond)
  · exact get?_posingGraph.trans (get?_of_messages messages_plainGraph (by decide)).symm
  · have reached : ("b", zeros) ∈ plainGraph.contentsBelow "a" :=
      ⟨⟨"b", zeros, []⟩, ⟨⟨"a", zeros, ["a", "b"]⟩, by decide, rfl,
        .single ⟨by decide, by decide, by decide⟩⟩, rfl⟩
    rw [← same] at reached
    obtain ⟨node, below, pairs⟩ := reached
    have absent : ∀ node ∈ posingGraph.nodes, ("b", zeros) ≠ (node.id, node.content) := by decide
    exact absent node below.mem pairs

end Bundler.Graph
