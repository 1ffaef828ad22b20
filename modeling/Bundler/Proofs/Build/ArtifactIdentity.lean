import Bundler.Build.Bundle
import Bundler.Proofs.Build.ScanGraph
import Bundler.Proofs.Fingerprint.Encoding

/-!
# Fingerprints and artifacts

A fingerprint does not say which request led to which dependency. All the same
`render_eq_of_fingerprint_eq` holds: if hashing does not collide, a module that
has one fingerprint in two views is rendered to one artifact. Equal
fingerprints come from messages with the same labels, so both views have all
files that either build found for the module, and the first of several
candidates is then the same in both.
-/

namespace Bundler

namespace Resolution

/-- Two views in which the found candidate of the one is a file of the other
find the same. -/
theorem find?_eq_of_shared {left right : Path → Bool} {paths : List Path}
    (leftShared : ∀ path, paths.find? left = some path → right path = true)
    (rightShared : ∀ path, paths.find? right = some path → left path = true) :
    paths.find? left = paths.find? right := by
  induction paths with
  | nil => rfl
  | cons path rest ih =>
    simp only [List.find?_cons] at leftShared rightShared ⊢
    cases inLeft : left path with
    | true =>
      simp [inLeft] at leftShared
      simp [leftShared]
    | false =>
      cases inRight : right path with
      | true => simp [inRight, inLeft] at rightShared
      | false =>
        simp only [inLeft, inRight] at leftShared rightShared ⊢
        exact ih leftShared rightShared

end Resolution

namespace Build

/-- The fingerprint under which a module is looked up. -/
def fingerprintOf (digest : ByteArray → Fingerprint) (modules : Table String ScannedModule)
    (id : String) (module : ScannedModule) : Fingerprint :=
  (((graphOf digest modules).fingerprints digest).get? id).getD (digest module.source.toUTF8)

/-- The byte strings that are hashed to render scanned modules. -/
def hashedFor (digest : ByteArray → Fingerprint) (modules : Table String ScannedModule) :
    List ByteArray :=
  modules.values.map (fun module => module.source.toUTF8) ++ (graphOf digest modules).hashed digest

/-- All files that a view shows have plain paths. -/
def PlainFiles (view : FileView) : Prop := ∀ path, view.isFile path = true → path.Plain

section Graph

variable {digest : ByteArray → Fingerprint} {size : Nat}
  (digestSize : ∀ content, (digest content).bytes.size = size)
  {view : FileView} {context : Path} {modules : Table String ScannedModule}
  (scanned : Scanned view context modules)

theorem mem_nodes_graphOf {node : GraphNode} :
    node ∈ (graphOf digest modules).nodes ↔ ∃ id module, (id, module) ∈ modules.entries ∧
      node = ⟨id, digest module.source.toUTF8, module.dependencies⟩ := by
  simp only [graphOf, List.mem_map, Prod.exists, eq_comm]

include scanned in
theorem nodup_graphOf (digest : ByteArray → Fingerprint) :
    ((graphOf digest modules).nodes.map GraphNode.id).Nodup := by
  have distinct := scanned.sorted.nodup_keys
  rw [graphOf, List.map_map]
  exact distinct

include scanned in
/-- The labels of a message are identifiers of scanned files. -/
theorem file_of_label {message : Graph.UnitMessage} {table : Table String Fingerprint}
    (covering : Graph.Covering (graphOf digest modules) table message)
    {label : String × Fingerprint} (member : label ∈ message.labels) :
    ∃ path, label.1 = moduleId context path ∧ path.Canonical ∧ view.isFile path = true := by
  obtain ⟨node, isNode, same⟩ := covering.isNode label member
  obtain ⟨id, module, held, rfl⟩ := mem_nodes_graphOf.1 isNode
  have faithful := scanned.faithful id module held
  exact ⟨module.path, same.symm.trans faithful.id_eq, faithful.canonical, faithful.isFile⟩

include digestSize scanned in
theorem readable_of_label (absolute : context.isAbsolute = true) (plain : PlainFiles view)
    {message : Graph.UnitMessage}
    (member : message ∈ (graphOf digest modules).messages digest) :
    ∀ label ∈ message.labels, Graph.Readable size label := by
  have covering := Graph.covering (nodup_graphOf scanned digest)
    (Graph.unitOrder_units (graphOf digest modules)) member
  intro label held
  obtain ⟨path, same, canonical, isFile⟩ := file_of_label scanned covering held
  refine ⟨?_, ?_⟩
  · rw [same]
    exact zero_notMem_moduleId absolute canonical (plain path isFile)
  · rcases List.mem_append.1 held with inside | beside
    · obtain ⟨node, nodeMember, rfl⟩ := List.mem_map.1 inside
      obtain ⟨id, module, -, rfl⟩ := mem_nodes_graphOf.1 (covering.member node nodeMember)
      exact digestSize _
    · obtain ⟨-, content, made⟩ := Graph.exists_of_get?_foldl_addUnit (covering.outside label beside)
      rw [made]
      exact digestSize content

/-- The message that the fingerprint of a scanned module comes from. -/
structure MessageOf (digest : ByteArray → Fingerprint) (context : Path) (view : FileView)
    (modules : Table String ScannedModule) (id : String) (module : ScannedModule)
    (message : Graph.UnitMessage) : Prop where
  hashed : ∀ content ∈ message.hashed digest, content ∈ hashedFor digest modules
  member : ∃ node ∈ message.members, node.id = id
  fingerprint : fingerprintOf digest modules id module = message.fingerprint digest id
  distinct : (message.labels.map Prod.fst).Nodup
  content : (id, digest module.source.toUTF8) ∈ message.labels
  depends : ∀ dependency ∈ module.dependencies, ∃ label ∈ message.labels, label.1 = dependency
  files : ∀ label ∈ message.labels,
    ∃ path, label.1 = moduleId context path ∧ path.Canonical ∧ view.isFile path = true

include scanned in
theorem exists_messageOf (digest : ByteArray → Fingerprint) {id : String} {module : ScannedModule}
    (held : (id, module) ∈ modules.entries) :
    ∃ message ∈ (graphOf digest modules).messages digest,
      MessageOf digest context view modules id module message := by
  have isNode : (⟨id, digest module.source.toUTF8, module.dependencies⟩ : GraphNode) ∈
      (graphOf digest modules).nodes := mem_nodes_graphOf.2 ⟨id, module, held, rfl⟩
  have distinct := nodup_graphOf scanned digest
  have order := Graph.unitOrder_units (graphOf digest modules)
  obtain ⟨message, member, inside, found⟩ :=
    @Graph.exists_message digest _ distinct _ order _ isNode
  have covering := Graph.covering distinct order member
  refine ⟨message, member, ?_, ⟨_, inside, rfl⟩, ?_, covering.distinct, ?_, ?_, ?_⟩
  · intro content hashed
    exact List.mem_append_right _ (List.mem_flatMap.2 ⟨message, member, hashed⟩)
  · change (((graphOf digest modules).fingerprints digest).get? id).getD _ = _
    rw [Graph.fingerprints, found, Option.getD_some]
  · exact List.mem_append_left _ (List.mem_map.2 ⟨_, inside, rfl⟩)
  · intro dependency depends
    obtain ⟨target, targetHeld⟩ := scanned.closed id module held dependency depends
    exact covering.depends _ inside dependency depends
      ⟨_, mem_nodes_graphOf.2 ⟨dependency, target, targetHeld, rfl⟩, rfl⟩
  · intro label labelMember
    exact file_of_label scanned covering labelMember

end Graph

section TwoViews

variable {digest : ByteArray → Fingerprint} {size : Nat} {context : Path} {left right : FileView}
  {leftModules rightModules : Table String ScannedModule} {id : String}
  {leftModule rightModule : ScannedModule} {leftMessage rightMessage : Graph.UnitMessage}

/-- What a module requires in one view is a file in both views, if its messages
have the same labels. -/
theorem MessageOf.shared (absolute : context.isAbsolute = true) (leftPlain : PlainFiles left)
    (rightPlain : PlainFiles right)
    (leftOf : MessageOf digest context left leftModules id leftModule leftMessage)
    (rightOf : MessageOf digest context right rightModules id rightModule rightMessage)
    (same : leftMessage.labels = rightMessage.labels) {path : Path} (canonical : path.Canonical)
    (isFile : left.isFile path = true)
    (depends : moduleId context path ∈ leftModule.dependencies) : right.isFile path = true := by
  obtain ⟨label, member, labelId⟩ := leftOf.depends _ depends
  obtain ⟨twin, twinId, twinCanonical, twinFile⟩ := rightOf.files label (same ▸ member)
  have equal := moduleId_inj absolute canonical (leftPlain path isFile) twinCanonical
    (rightPlain twin twinFile) (labelId.symm.trans twinId)
  rwa [equal]

/-- The request of a faithful module that leads to a file makes the file one of
its dependencies. -/
theorem ScannedModule.Faithful.depends {view : FileView} {module : ScannedModule}
    (faithful : module.Faithful view context id) {request : String}
    (asked : request ∈ Source.requests module.source) {path : Path}
    (found : (resolve (module.directory context) request).answer view = .found path) :
    moduleId context path ∈ module.dependencies := by
  refine List.mem_filterMap.2 ⟨(request, some (moduleId context path)), ?_, rfl⟩
  rw [faithful.requests_eq]
  refine List.mem_map.2 ⟨request, asked, ?_⟩
  rw [linkOf, found]

/-- The directory of a faithful module is absolute. -/
theorem ScannedModule.Faithful.isAbsolute_directory {view : FileView} {module : ScannedModule}
    (faithful : module.Faithful view context id) (absolute : context.isAbsolute = true) :
    (module.directory context).isAbsolute = true := by
  unfold directory
  cases parent : module.path.parent? with
  | none => exact absolute
  | some above => exact Path.isAbsolute_parent faithful.canonical.isAbsolute parent

/-- If nothing that is hashed collides, a fingerprint identifies the artifact of
a module, whatever files the two views have. -/
theorem render_eq_of_fingerprint_eq
    (digestSize : ∀ content, (digest content).bytes.size = size)
    (absolute : context.isAbsolute = true) (leftPlain : PlainFiles left)
    (rightPlain : PlainFiles right) (leftScanned : Scanned left context leftModules)
    (rightScanned : Scanned right context rightModules)
    (apart : ∀ first ∈ hashedFor digest leftModules, ∀ second ∈ hashedFor digest rightModules,
      digest first = digest second → first = second)
    (leftHeld : (id, leftModule) ∈ leftModules.entries)
    (rightHeld : (id, rightModule) ∈ rightModules.entries)
    (same : fingerprintOf digest leftModules id leftModule =
      fingerprintOf digest rightModules id rightModule) :
    leftModule.render id = rightModule.render id := by
  obtain ⟨leftMessage, leftMember, leftOf⟩ := exists_messageOf leftScanned digest leftHeld
  obtain ⟨rightMessage, rightMember, rightOf⟩ := exists_messageOf rightScanned digest rightHeld
  have leftFaithful := leftScanned.faithful id leftModule leftHeld
  have rightFaithful := rightScanned.faithful id rightModule rightHeld
  have labels : leftMessage.labels = rightMessage.labels := by
    have leftReadable := readable_of_label digestSize leftScanned absolute leftPlain leftMember
    have rightReadable := readable_of_label digestSize rightScanned absolute rightPlain rightMember
    refine Graph.UnitMessage.labels_eq_of_bytes_eq leftReadable rightReadable ?_
    refine Graph.UnitMessage.bytes_eq_of_fingerprint_eq digestSize leftReadable rightReadable
      leftOf.member rightOf.member (fun first inLeft second inRight => ?_) ?_
    · exact apart first (leftOf.hashed first inLeft) second (rightOf.hashed second inRight)
    · rw [← leftOf.fingerprint, ← rightOf.fingerprint, same]
  -- Both messages hold the module's own source under its identifier.
  have source : leftModule.source = rightModule.source := by
    have contents : digest leftModule.source.toUTF8 = digest rightModule.source.toUTF8 := by
      have moved : (id, digest leftModule.source.toUTF8) ∈ rightMessage.labels := by
        rw [← labels]
        exact leftOf.content
      exact congrArg Prod.snd
        (List.inj_on_of_nodup_map rightOf.distinct moved rightOf.content rfl)
    refine toUTF8_inj (apart _ (List.mem_append_left _ ?_) _ (List.mem_append_left _ ?_) contents)
    · exact List.mem_map.2 ⟨leftModule, List.mem_map.2 ⟨_, leftHeld, rfl⟩, rfl⟩
    · exact List.mem_map.2 ⟨rightModule, List.mem_map.2 ⟨_, rightHeld, rfl⟩, rfl⟩
  have path : leftModule.path = rightModule.path :=
    moduleId_inj absolute leftFaithful.canonical (leftPlain _ leftFaithful.isFile)
      rightFaithful.canonical (rightPlain _ rightFaithful.isFile)
      (leftFaithful.id_eq.symm.trans rightFaithful.id_eq)
  have directory : leftModule.directory context = rightModule.directory context := by
    rw [ScannedModule.directory, path, ScannedModule.directory]
  have links : ∀ request ∈ Source.requests leftModule.source,
      linkOf left context (leftModule.directory context) request =
        linkOf right context (rightModule.directory context) request := by
    intro request asked
    have canonical : ∀ {path}, path ∈ Resolution.candidates (leftModule.directory context) request →
        path.Canonical := fun member =>
      Resolution.canonical_of_mem_candidates (leftFaithful.isAbsolute_directory absolute) member
    have search : (Resolution.candidates (leftModule.directory context) request).find? left.isFile =
        (Resolution.candidates (leftModule.directory context) request).find? right.isFile := by
      refine Resolution.find?_eq_of_shared (fun path found => ?_) fun path found => ?_
      · have answered : (resolve (leftModule.directory context) request).answer left =
            .found path := by
          rw [Resolution.answer_resolve, Resolution.first, found]
        exact leftOf.shared absolute leftPlain rightPlain rightOf labels
          (canonical (List.mem_of_find?_eq_some found)) (List.find?_some found)
          (leftFaithful.depends asked answered)
      · have answered : (resolve (rightModule.directory context) request).answer right =
            .found path := by
          rw [← directory, Resolution.answer_resolve, Resolution.first, found]
        exact rightOf.shared absolute rightPlain leftPlain leftOf labels.symm
          (canonical (List.mem_of_find?_eq_some found)) (List.find?_some found)
          (rightFaithful.depends (source ▸ asked) answered)
    rw [← directory, linkOf, linkOf, Resolution.answer_resolve, Resolution.answer_resolve,
      Resolution.first, Resolution.first, search]
  have requests : leftModule.requests = rightModule.requests := by
    rw [leftFaithful.requests_eq, rightFaithful.requests_eq, ← source]
    exact List.map_congr_left fun request asked => by rw [links request asked]
  have module : leftModule = rightModule := by
    cases leftModule
    cases rightModule
    cases path
    cases source
    cases requests
    rfl
  rw [module]

end TwoViews

end Build

end Bundler
