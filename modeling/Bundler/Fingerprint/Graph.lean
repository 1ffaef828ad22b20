import Bundler.Fingerprint
import Bundler.Table
import Std.Data.TreeSet

/-!
# Fingerprints of a module graph

The fingerprint of a node covers its own content and, through the fingerprints
of its dependencies, everything it reaches. Nodes that reach each other are
hashed as one unit, of which each member's fingerprint is then derived.
`Graph.units` lists these units, each after the units that it points to, and
`Graph.fingerprints` folds over that list.

A dependency that names no node adds nothing. Where several nodes have one
identifier, dependencies lead to the last of them, which also takes over the
edges of the others.
-/

namespace Bundler

/-- A module as its fingerprint sees it. -/
structure GraphNode where
  id : String
  content : Fingerprint
  dependencies : List String
  deriving DecidableEq, Inhabited

/-- The nodes of a module graph; a vertex is a position in this list. -/
structure Graph where
  nodes : List GraphNode

namespace Graph

/-- The last vertex with this identifier. -/
def vertex? (graph : Graph) (id : String) : Option Nat :=
  ((graph.nodes.zipIdx.filter fun entry => entry.1.id == id).getLast?).map Prod.snd

/-- The vertices that a vertex points to, the latest edge first. -/
def successors (graph : Graph) (vertex : Nat) : List Nat :=
  match graph.nodes[vertex]? with
  | none => []
  | some node =>
    if graph.vertex? node.id = some vertex then
      let targets := (graph.nodes.filter fun other => other.id == node.id).flatMap fun other =>
        other.dependencies.filterMap graph.vertex?
      (targets.foldl (fun found target => if target ∈ found then found else target :: found) [])
    else []

/-- The successors of every vertex. -/
def edges (graph : Graph) : Array (List Nat) :=
  (Array.range graph.nodes.length).map graph.successors

/-- A depth-first search under way. -/
structure Search where
  seen : Std.TreeSet Nat := {}
  /-- The vertices whose successors are all seen, the latest first. -/
  finished : List Nat := []

/-- Search from a vertex on; `fuel` bounds the depth. -/
def visit (edges : Array (List Nat)) : Nat → Search → Nat → Search
  | 0, search, _ => search
  | fuel + 1, search, vertex =>
    if vertex ∈ search.seen then search
    else
      let search := (edges[vertex]?.getD []).foldl (visit edges fuel)
        { search with seen := search.seen.insert vertex }
      { search with finished := vertex :: search.finished }

/-- All vertices in the order in which depth-first search finishes them. -/
def finishOrder (edges : Array (List Nat)) : List Nat :=
  ((List.range edges.size).foldl (visit edges (edges.size + 1)) {}).finished.reverse

/-- The vertices that can be reached from `vertex`, itself included. -/
def reach (edges : Array (List Nat)) (vertex : Nat) : Std.TreeSet Nat :=
  (visit edges (edges.size + 1) {} vertex).seen

/-- Pick the units out of a finish order. A unit is complete with the last of
its members. -/
def unitsIn (together : Nat → Nat → Bool) : List Nat → List Nat → List (List Nat)
  | _, [] => []
  | passed, vertex :: rest =>
    if rest.any (together vertex) then unitsIn together (passed ++ [vertex]) rest
    else (passed.filter (together vertex) ++ [vertex]) :: unitsIn together (passed ++ [vertex]) rest

/-- The classes of vertices that reach each other, each class after those it
points to. -/
def units (graph : Graph) : List (List Nat) :=
  let edges := graph.edges
  let reaches := (Array.range edges.size).map (reach edges)
  let leads (source target : Nat) : Bool := reaches[source]?.any fun reached => target ∈ reached
  unitsIn (fun left right => leads left right && leads right left) [] (finishOrder edges)

/-- An identifier, a zero byte and a fingerprint. -/
def labelled (id : String) (fingerprint : Fingerprint) : ByteArray :=
  id.toUTF8 ++ ⟨#[0]⟩ ++ fingerprint.bytes

def concat (parts : List ByteArray) : ByteArray := parts.foldl (· ++ ·) ByteArray.empty

/-- The bytes hashed for a unit: its members, then the fingerprints that it
depends on. -/
def unitBytes (cyclic : Bool) (members : List GraphNode) (outside : List (String × Fingerprint)) :
    ByteArray :=
  (if cyclic then "scc" else "mod").toUTF8 ++
    concat (members.map fun member => labelled member.id member.content) ++
    concat (outside.map fun entry => labelled entry.1 entry.2)

/-- The known fingerprints that the members of a unit depend on, by identifier. -/
def outside (known : Table String Fingerprint) (members : List GraphNode) :
    List (String × Fingerprint) :=
  let wanted := (members.flatMap GraphNode.dependencies).filter fun dependency =>
    !(members.any fun member => member.id == dependency)
  (wanted.foldl (fun table dependency =>
    match known.get? dependency with
    | some fingerprint => table.insert dependency fingerprint
    | none => table) (Table.empty : Table String Fingerprint)).entries

/-- Members of a unit in the order of their identifiers. -/
def members (graph : Graph) (unit : List Nat) : List GraphNode :=
  (unit.filterMap fun vertex => graph.nodes[vertex]?).mergeSort fun left right => left.id ≤ right.id

/-- A unit is cyclic if it has several members or its member points to itself. -/
def isCyclic (graph : Graph) (unit : List Nat) : Bool :=
  match unit with
  | [vertex] => (graph.successors vertex).contains vertex
  | _ => true

/-- Add the fingerprints of one unit. -/
def addUnit (digest : ByteArray → Fingerprint) (graph : Graph)
    (known : Table String Fingerprint) (unit : List Nat) : Table String Fingerprint :=
  let members := graph.members unit
  let cyclic := graph.isCyclic unit
  let whole := digest (unitBytes cyclic members (outside known members))
  members.foldl (fun table member =>
    table.insert member.id
      (if cyclic then digest (whole.bytes ++ member.id.toUTF8) else whole)) known

/-- The fingerprint of every identifier, for a given hash. -/
def fingerprints (digest : ByteArray → Fingerprint) (graph : Graph) : Table String Fingerprint :=
  graph.units.foldl (addUnit digest graph) Table.empty

end Graph

end Bundler
