import Bundler.Proofs.Fingerprint.Units
import Bundler.Proofs.Table

/-!
# What is hashed for a graph

The fingerprints of a graph with different identifiers come from one
`UnitMessage` for each unit. `exists_message` says which message the fingerprint
of a node comes from, and `Covering` what such a message holds: its identifiers
are nodes of the graph, all different, and every known dependency of a member
is among them.
-/

namespace Bundler.Graph

/-- What is hashed for a unit: whether it is cyclic, its members, and the
fingerprints that these depend on. -/
structure UnitMessage where
  cyclic : Bool
  members : List GraphNode
  outside : List (String × Fingerprint)

namespace UnitMessage

def bytes (message : UnitMessage) : ByteArray :=
  unitBytes message.cyclic message.members message.outside

/-- What is hashed for a member of a cyclic unit. -/
def memberBytes (digest : ByteArray → Fingerprint) (message : UnitMessage) (id : String) :
    ByteArray :=
  (digest message.bytes).bytes ++ id.toUTF8

def fingerprint (digest : ByteArray → Fingerprint) (message : UnitMessage) (id : String) :
    Fingerprint :=
  if message.cyclic then digest (message.memberBytes digest id) else digest message.bytes

/-- The byte strings that are hashed for a unit. -/
def hashed (digest : ByteArray → Fingerprint) (message : UnitMessage) : List ByteArray :=
  message.bytes ::
    if message.cyclic then message.members.map fun member => message.memberBytes digest member.id
    else []

/-- The identifiers in a message with what stands beside each of them. -/
def labels (message : UnitMessage) : List (String × Fingerprint) :=
  (message.members.map fun member => (member.id, member.content)) ++ message.outside

end UnitMessage

/-- The message of a unit, when the fingerprints of the units before it are known. -/
def messageOf (graph : Graph) (known : Table String Fingerprint) (unit : List Nat) : UnitMessage :=
  ⟨graph.isCyclic unit, graph.members unit, outside known (graph.members unit)⟩

/-- The messages of some units in a row. -/
def messagesFrom (digest : ByteArray → Fingerprint) (graph : Graph) :
    Table String Fingerprint → List (List Nat) → List UnitMessage
  | _, [] => []
  | known, unit :: rest =>
    graph.messageOf known unit :: messagesFrom digest graph (graph.addUnit digest known unit) rest

def messages (digest : ByteArray → Fingerprint) (graph : Graph) : List UnitMessage :=
  messagesFrom digest graph Table.empty graph.units

/-- The byte strings that are hashed for the fingerprints of a graph. -/
def hashed (digest : ByteArray → Fingerprint) (graph : Graph) : List ByteArray :=
  (graph.messages digest).flatMap (UnitMessage.hashed digest)

variable {digest : ByteArray → Fingerprint} {graph : Graph}

theorem messagesFrom_append (known : Table String Fingerprint) (first second : List (List Nat)) :
    messagesFrom digest graph known (first ++ second) =
      messagesFrom digest graph known first ++
        messagesFrom digest graph (first.foldl (graph.addUnit digest) known) second := by
  induction first generalizing known with
  | nil => rfl
  | cons unit rest ih => simp [messagesFrom, ih]

theorem mem_messagesFrom {known : Table String Fingerprint} {units : List (List Nat)}
    {message : UnitMessage} (member : message ∈ messagesFrom digest graph known units) :
    ∃ before unit after, units = before ++ unit :: after ∧
      message = graph.messageOf (before.foldl (graph.addUnit digest) known) unit := by
  induction units generalizing known with
  | nil => cases member
  | cons unit rest ih =>
    rcases List.mem_cons.1 member with rfl | member
    · exact ⟨[], unit, rest, rfl, rfl⟩
    · obtain ⟨before, other, after, rfl, rfl⟩ := ih member
      exact ⟨unit :: before, other, after, rfl, rfl⟩

/-! ## Fingerprints of units -/

/-- The members of a unit take their fingerprints from its message. -/
theorem get?_addUnit (known : Table String Fingerprint) (unit : List Nat) (id : String) :
    (graph.addUnit digest known unit).get? id =
      if id ∈ (graph.members unit).map GraphNode.id then
        some ((graph.messageOf known unit).fingerprint digest id)
      else known.get? id := by
  have fold : ∀ (members : List GraphNode) (value : String → Fingerprint)
      (table : Table String Fingerprint),
      (members.foldl (fun table member => table.insert member.id (value member.id)) table).get? id =
        if id ∈ members.map GraphNode.id then some (value id) else table.get? id := by
    intro members value table
    induction members generalizing table with
    | nil => rfl
    | cons member rest ih =>
      rw [List.foldl_cons, ih, Table.get?_insert]
      by_cases same : id = member.id
      · subst same
        simp
      · simp [same]
  exact fold (graph.members unit) ((graph.messageOf known unit).fingerprint digest) known

theorem sorted_foldl_addUnit {known : Table String Fingerprint} (sorted : known.Sorted)
    (units : List (List Nat)) : (units.foldl (graph.addUnit digest) known).Sorted := by
  refine List.foldlRecOn (motive := Table.Sorted) units _ sorted fun table sorted unit _ => ?_
  exact List.foldlRecOn (motive := Table.Sorted) (graph.members unit) _ sorted
    fun held heldSorted _ _ => heldSorted.insert _ _

/-- Units without a node of an identifier leave its fingerprint as it is. -/
theorem get?_foldl_addUnit_of_notMem {units : List (List Nat)} {id : String}
    (absent : ∀ unit ∈ units, id ∉ (graph.members unit).map GraphNode.id)
    (known : Table String Fingerprint) :
    (units.foldl (graph.addUnit digest) known).get? id = known.get? id := by
  induction units generalizing known with
  | nil => rfl
  | cons unit rest ih =>
    have apart := absent unit List.mem_cons_self
    rw [List.foldl_cons, ih fun other member => absent other (List.mem_cons_of_mem _ member),
      get?_addUnit, if_neg apart]

/-- Every fingerprint that is known is one of a node. -/
theorem exists_of_get?_foldl_addUnit {units : List (List Nat)} {id : String}
    {fingerprint : Fingerprint}
    (found : (units.foldl (graph.addUnit digest) Table.empty).get? id = some fingerprint) :
    (∃ unit ∈ units, id ∈ (graph.members unit).map GraphNode.id) ∧
      ∃ content, fingerprint = digest content := by
  induction units using List.reverseRecOn with
  | nil => cases found
  | append_singleton before unit ih =>
    rw [List.foldl_append, List.foldl_cons, List.foldl_nil, get?_addUnit] at found
    split at found
    · next inside =>
      refine ⟨⟨unit, by simp, inside⟩, ?_⟩
      rw [← Option.some.inj found, UnitMessage.fingerprint]
      split
      · exact ⟨_, rfl⟩
      · exact ⟨_, rfl⟩
    · obtain ⟨⟨other, member, inside⟩, made⟩ := ih found
      exact ⟨⟨other, List.mem_append_left _ member, inside⟩, made⟩

/-! ## Members and what they depend on -/

theorem mem_members {unit : List Nat} {node : GraphNode} :
    node ∈ graph.members unit ↔ ∃ vertex ∈ unit, graph.nodes[vertex]? = some node := by
  simp [members]

theorem mem_nodes_of_mem_members {unit : List Nat} {node : GraphNode} (member : node ∈ graph.members unit) :
    node ∈ graph.nodes := by
  obtain ⟨vertex, -, held⟩ := mem_members.1 member
  exact List.mem_of_getElem? held

private theorem sorted_known (known : Table String Fingerprint) (wanted : List String) :
    (wanted.foldl (fun table dependency =>
      match known.get? dependency with
      | some fingerprint => table.insert dependency fingerprint
      | none => table) Table.empty).Sorted := by
  refine List.foldlRecOn (motive := Table.Sorted) wanted _ Table.sorted_empty ?_
  intro table sorted dependency _
  split
  · exact sorted.insert dependency _
  · exact sorted

private theorem get?_known (known : Table String Fingerprint) (wanted : List String) (id : String) :
    (wanted.foldl (fun table dependency =>
      match known.get? dependency with
      | some fingerprint => table.insert dependency fingerprint
      | none => table) Table.empty).get? id = if id ∈ wanted then known.get? id else none := by
  induction wanted using List.reverseRecOn with
  | nil => rfl
  | append_singleton before dependency ih =>
    rw [List.foldl_append, List.foldl_cons, List.foldl_nil]
    by_cases same : id = dependency
    · subst same
      cases found : known.get? id with
      | none => simp [ih, found]
      | some fingerprint => simp
    · cases found : known.get? dependency with
      | none => simp [ih, same]
      | some fingerprint => simp [Table.get?_insert, ih, same]

/-- The fingerprints beside a unit are those of the dependencies of its members
that are known and no members. -/
theorem mem_outside (known : Table String Fingerprint) (members : List GraphNode)
    (entry : String × Fingerprint) :
    entry ∈ outside known members ↔ (∃ member ∈ members, entry.1 ∈ member.dependencies) ∧
      entry.1 ∉ members.map GraphNode.id ∧ known.get? entry.1 = some entry.2 := by
  obtain ⟨id, fingerprint⟩ := entry
  have view := (sorted_known known ((members.flatMap GraphNode.dependencies).filter
    fun dependency => !(members.any fun member => member.id == dependency))).get?_eq_some_iff
      id fingerprint
  rw [get?_known] at view
  refine view.symm.trans ?_
  by_cases wanted : (∃ member ∈ members, id ∈ member.dependencies) ∧ id ∉ members.map GraphNode.id
  · obtain ⟨⟨member, held, depends⟩, apart⟩ := wanted
    rw [if_pos]
    · exact ⟨fun found => ⟨⟨member, held, depends⟩, apart, found⟩, fun facts => facts.2.2⟩
    · refine List.mem_filter.2 ⟨List.mem_flatMap.2 ⟨member, held, depends⟩, ?_⟩
      simpa using apart
  · rw [if_neg]
    · simp only [reduceCtorEq, false_iff]
      rintro ⟨depends, apart, -⟩
      exact wanted ⟨depends, apart⟩
    · intro inside
      obtain ⟨depends, apart⟩ := List.mem_filter.1 inside
      exact wanted ⟨List.mem_flatMap.1 depends, by simpa using apart⟩

theorem sorted_outside (known : Table String Fingerprint) (members : List GraphNode) :
    (Table.mk (outside known members)).Sorted :=
  sorted_known known _

theorem nodup_outside (known : Table String Fingerprint) (members : List GraphNode) :
    ((outside known members).map Prod.fst).Nodup :=
  (sorted_outside known members).nodup_keys

section Distinct

variable (distinct : (graph.nodes.map GraphNode.id).Nodup)

include distinct

/-- In a graph with different identifiers every vertex is the one that its
identifier leads to. -/
theorem vertex?_of_node {vertex : Nat} {node : GraphNode}
    (held : graph.nodes[vertex]? = some node) : graph.vertex? node.id = some vertex := by
  obtain ⟨found, same⟩ := Option.isSome_iff_exists.1 (isSome_vertex? (List.mem_of_getElem? held))
  obtain ⟨other, otherHeld, sameId⟩ := node_of_vertex? same
  have bound := (List.getElem?_eq_some_iff.1 held).1
  have equal : vertex = found := by
    refine (List.getElem?_inj (by simpa using bound) distinct).1 ?_
    simp [held, otherHeld, sameId]
  rw [same, equal]

theorem eq_of_id_eq {left right : GraphNode} (leftMember : left ∈ graph.nodes)
    (rightMember : right ∈ graph.nodes) (same : left.id = right.id) : left = right := by
  obtain ⟨vertex, held⟩ := List.mem_iff_getElem?.1 leftMember
  obtain ⟨other, otherHeld⟩ := List.mem_iff_getElem?.1 rightMember
  have first := vertex?_of_node distinct held
  rw [same, vertex?_of_node distinct otherHeld] at first
  obtain rfl := Option.some.inj first
  exact Option.some.inj (held.symm.trans otherHeld)

/-- The members of a unit without repetition have different identifiers. -/
theorem nodup_members {unit : List Nat} (unitDistinct : unit.Nodup) :
    ((graph.members unit).map GraphNode.id).Nodup := by
  have sorted : ((graph.members unit).map GraphNode.id).Perm
      ((unit.filterMap fun vertex => graph.nodes[vertex]?).map GraphNode.id) :=
    (List.mergeSort_perm _ _).map _
  rw [sorted.nodup_iff, List.map_filterMap]
  refine unitDistinct.filterMap fun left right id leftHeld rightHeld => ?_
  obtain ⟨node, held, rfl⟩ := Option.map_eq_some_iff.1 leftHeld
  obtain ⟨other, otherHeld, same⟩ := Option.map_eq_some_iff.1 rightHeld
  have first := vertex?_of_node distinct held
  rw [← same, vertex?_of_node distinct otherHeld] at first
  exact (Option.some.inj first).symm

/-! ## Every message covers its members -/

/-- What a message says about a graph whose fingerprints are in `table`. -/
structure Covering (graph : Graph) (table : Table String Fingerprint) (message : UnitMessage) :
    Prop where
  isNode : ∀ label ∈ message.labels, ∃ node ∈ graph.nodes, node.id = label.1
  distinct : (message.labels.map Prod.fst).Nodup
  member : ∀ node ∈ message.members, node ∈ graph.nodes
  /-- Known dependencies of members are in the message. -/
  depends : ∀ node ∈ message.members, ∀ dependency ∈ node.dependencies,
    (∃ target ∈ graph.nodes, target.id = dependency) →
      ∃ label ∈ message.labels, label.1 = dependency
  outside : ∀ entry ∈ message.outside, table.get? entry.1 = some entry.2
  /-- Only cyclic units have several members. -/
  alone : message.cyclic = false → ∃ node, message.members = [node]

variable {units : List (List Nat)} (order : UnitOrder graph units)

include order

/-- An identifier stands in one unit only. -/
theorem notMem_of_split {before after : List (List Nat)} {unit : List Nat}
    (split : units = before ++ unit :: after) {node : GraphNode}
    (member : node ∈ graph.members unit) :
    ∀ other ∈ before ++ after, node.id ∉ (graph.members other).map GraphNode.id := by
  intro other held inside
  obtain ⟨twin, twinMember, same⟩ := List.mem_map.1 inside
  obtain ⟨vertex, vertexIn, vertexHeld⟩ := mem_members.1 member
  obtain ⟨position, positionIn, positionHeld⟩ := mem_members.1 twinMember
  have first := vertex?_of_node distinct vertexHeld
  rw [← same, vertex?_of_node distinct positionHeld] at first
  obtain rfl := Option.some.inj first
  have unique := order.perm.nodup_iff.2 List.nodup_range
  have moved : (unit :: (before ++ after)).flatten.Nodup := by
    rw [split] at unique
    exact (List.perm_middle.flatten.nodup_iff).1 unique
  rw [List.flatten_cons, List.nodup_append] at moved
  exact moved.2.2 position vertexIn position (List.mem_flatten.2 ⟨other, held, positionIn⟩) rfl

/-- The final table holds what the message of a unit gives to its members. -/
theorem get?_of_split {before after : List (List Nat)} {unit : List Nat}
    (split : units = before ++ unit :: after) {node : GraphNode}
    (member : node ∈ graph.members unit) :
    (units.foldl (graph.addUnit digest) Table.empty).get? node.id =
      some ((graph.messageOf (before.foldl (graph.addUnit digest) Table.empty) unit).fingerprint
        digest node.id) := by
  have apart := notMem_of_split distinct order split member
  rw [split, List.foldl_append, List.foldl_cons,
    get?_foldl_addUnit_of_notMem fun other held => apart other (List.mem_append_right _ held),
    get?_addUnit, if_pos (List.mem_map_of_mem member)]

/-- What is known before a unit stays as it is. -/
theorem get?_of_known {before after : List (List Nat)} (split : units = before ++ after)
    {id : String} {fingerprint : Fingerprint}
    (known : (before.foldl (graph.addUnit digest) Table.empty).get? id = some fingerprint) :
    (units.foldl (graph.addUnit digest) Table.empty).get? id = some fingerprint := by
  obtain ⟨⟨unit, held, inside⟩, -⟩ := exists_of_get?_foldl_addUnit known
  obtain ⟨node, member, rfl⟩ := List.mem_map.1 inside
  obtain ⟨first, second, rfl⟩ := List.append_of_mem held
  have apart := notMem_of_split distinct order (by rw [split, List.append_assoc]; rfl) member
  rw [split, List.foldl_append, get?_foldl_addUnit_of_notMem ?_, known]
  intro other later
  exact apart other (by simp [later])

/-- Known dependencies of a unit's members are members or known before. -/
theorem known_of_dependency {before after : List (List Nat)} {unit : List Nat}
    (split : units = before ++ unit :: after) {node : GraphNode}
    (member : node ∈ graph.members unit) {target : GraphNode}
    (depends : target.id ∈ node.dependencies) (isNode : target ∈ graph.nodes) :
    target ∈ graph.members unit ∨
      ((before.foldl (graph.addUnit digest) Table.empty).get? target.id).isSome = true := by
  obtain ⟨vertex, inside, held⟩ := mem_members.1 member
  obtain ⟨position, targetHeld⟩ := List.mem_iff_getElem?.1 isNode
  have edge := mem_successors held (vertex?_of_node distinct held) depends
    (vertex?_of_node distinct targetHeld)
  rcases order.earlier before unit after split vertex inside position edge with
    within | ⟨other, isBefore, within⟩
  · exact .inl (mem_members.2 ⟨position, within, targetHeld⟩)
  · right
    have targetMember := mem_members.2 ⟨position, within, targetHeld⟩
    obtain ⟨first, second, rfl⟩ := List.append_of_mem isBefore
    have apart := notMem_of_split distinct order (by rw [split, List.append_assoc]; rfl) targetMember
    rw [List.foldl_append, List.foldl_cons, get?_foldl_addUnit_of_notMem ?_, get?_addUnit,
      if_pos (List.mem_map_of_mem targetMember)]
    · rfl
    · intro later held
      exact apart later (by simp [held])

theorem covering {message : UnitMessage}
    (member : message ∈ messagesFrom digest graph Table.empty units) :
    Covering graph (units.foldl (graph.addUnit digest) Table.empty) message := by
  obtain ⟨before, unit, after, split, rfl⟩ := mem_messagesFrom member
  have unitDistinct : unit.Nodup := by
    have unique := order.perm.nodup_iff.2 List.nodup_range
    exact (List.nodup_flatten.1 unique).1 unit (by simp [split])
  refine ⟨fun label held => ?_, ?_, fun node held => ?_, fun node held dependency depends known => ?_,
    fun entry held => ?_, fun acyclic => ?_⟩
  · rcases List.mem_append.1 held with inside | beside
    · obtain ⟨node, nodeMember, rfl⟩ := List.mem_map.1 inside
      obtain ⟨vertex, -, found⟩ := mem_members.1 nodeMember
      exact ⟨node, List.mem_of_getElem? found, rfl⟩
    · obtain ⟨-, -, known⟩ := (mem_outside _ _ label).1 beside
      obtain ⟨⟨other, -, inside⟩, -⟩ := exists_of_get?_foldl_addUnit known
      obtain ⟨node, nodeMember, same⟩ := List.mem_map.1 inside
      obtain ⟨vertex, -, found⟩ := mem_members.1 nodeMember
      exact ⟨node, List.mem_of_getElem? found, same⟩
  · rw [UnitMessage.labels, List.map_append, List.map_map, List.nodup_append]
    refine ⟨nodup_members distinct unitDistinct, nodup_outside _ _, ?_⟩
    rintro id inside other beside rfl
    obtain ⟨entry, held, rfl⟩ := List.mem_map.1 beside
    exact ((mem_outside _ _ entry).1 held).2.1 inside
  · obtain ⟨vertex, -, found⟩ := mem_members.1 held
    exact List.mem_of_getElem? found
  · obtain ⟨target, isNode, rfl⟩ := known
    by_cases inside : target.id ∈ (graph.members unit).map GraphNode.id
    · obtain ⟨twin, twinMember, same⟩ := List.mem_map.1 inside
      refine ⟨(twin.id, twin.content), List.mem_append_left _ ?_, same⟩
      exact List.mem_map.2 ⟨twin, twinMember, rfl⟩
    · rcases known_of_dependency distinct order split held depends isNode with within | known
      · exact absurd (List.mem_map_of_mem within) inside
      · obtain ⟨fingerprint, found⟩ := Option.isSome_iff_exists.1 known
        refine ⟨(target.id, fingerprint), List.mem_append_right _ ?_, rfl⟩
        exact (mem_outside _ _ _).2 ⟨⟨node, held, depends⟩, inside, found⟩
  · obtain ⟨-, -, known⟩ := (mem_outside _ _ entry).1 held
    exact get?_of_known distinct order split known
  · change graph.isCyclic unit = false at acyclic
    unfold isCyclic at acyclic
    split at acyclic
    · next vertex =>
      have inside : vertex ∈ units.flatten := by simp [split]
      have bound := List.mem_range.1 (order.perm.mem_iff.1 inside)
      exact ⟨graph.nodes[vertex], by simp [messageOf, members, bound]⟩
    · cases acyclic

omit distinct in
/-- Every node stands in a unit. -/
theorem exists_split {node : GraphNode} (isNode : node ∈ graph.nodes) :
    ∃ before unit after, units = before ++ unit :: after ∧ node ∈ graph.members unit := by
  obtain ⟨vertex, held⟩ := List.mem_iff_getElem?.1 isNode
  have bound := (List.getElem?_eq_some_iff.1 held).1
  obtain ⟨unit, unitMember, inside⟩ :=
    List.mem_flatten.1 (order.perm.mem_iff.2 (List.mem_range.2 bound))
  obtain ⟨before, after, split⟩ := List.append_of_mem unitMember
  exact ⟨before, unit, after, split, mem_members.2 ⟨vertex, inside, held⟩⟩

variable (digest graph) in
omit distinct order in
theorem messageOf_mem {before after : List (List Nat)} {unit : List Nat}
    (split : units = before ++ unit :: after) :
    graph.messageOf (before.foldl (graph.addUnit digest) Table.empty) unit ∈
      messagesFrom digest graph Table.empty units := by
  rw [split, messagesFrom_append]
  exact List.mem_append_right _ List.mem_cons_self

variable (digest) in
/-- The fingerprint of a node comes from a message that it is a member of. -/
theorem exists_message {node : GraphNode} (isNode : node ∈ graph.nodes) :
    ∃ message ∈ messagesFrom digest graph Table.empty units, node ∈ message.members ∧
      (units.foldl (graph.addUnit digest) Table.empty).get? node.id =
        some (message.fingerprint digest node.id) := by
  obtain ⟨before, unit, after, split, member⟩ := exists_split order isNode
  exact ⟨_, messageOf_mem digest graph split, member, get?_of_split distinct order split member⟩

end Distinct

end Bundler.Graph
