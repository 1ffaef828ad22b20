import Bundler.Proofs.Fingerprint.Messages

/-!
# Messages and their bytes

The bytes of a message determine its labels as long as no identifier holds a
zero character and all fingerprints have one length: identifiers end at the
first zero byte. The bytes do not tell where members end and dependencies begin.
`bytes_eq_of_fingerprint_eq` puts this together for two graphs: if hashing does
not collide, equal fingerprints come from messages with the same bytes.
-/

namespace Bundler

theorem zero_notMem_utf8EncodeChar {c : Char} (nonzero : c ≠ '\x00') :
    (0 : UInt8) ∉ String.utf8EncodeChar c := by
  have positive : c.val.toNat ≠ 0 := by
    intro zero
    exact nonzero (Char.ext (UInt32.toNat_inj.1 zero))
  unfold String.utf8EncodeChar
  dsimp only
  generalize c.val.toNat = code at positive ⊢
  split
  · simp [← UInt8.toNat_inj]
    omega
  · split
    · simp [← UInt8.toNat_inj]
      omega
    · split
      · simp [← UInt8.toNat_inj]
        omega
      · simp [← UInt8.toNat_inj]
        omega

/-- A text without zero characters has no zero bytes. -/
theorem zero_notMem_toUTF8 {text : String} (nonzero : '\x00' ∉ text.toList) :
    (0 : UInt8) ∉ text.toUTF8.data.toList := by
  rw [String.toUTF8_eq_toByteArray, ← String.utf8Encode_toList, List.utf8Encode,
    List.toList_data_toByteArray]
  intro member
  obtain ⟨c, inside, zero⟩ := List.mem_flatMap.1 member
  exact zero_notMem_utf8EncodeChar (fun same => nonzero (same ▸ inside)) zero

theorem toUTF8_inj {left right : String} (same : left.toUTF8 = right.toUTF8) : left = right := by
  rw [String.toUTF8_eq_toByteArray, String.toUTF8_eq_toByteArray] at same
  exact String.toByteArray_inj.1 same

namespace Graph

/-- What stands before the first zero byte is determined. -/
theorem eq_of_append_zero_eq {first second rest other : List UInt8} (firstPlain : 0 ∉ first)
    (secondPlain : 0 ∉ second) (same : first ++ 0 :: rest = second ++ 0 :: other) :
    first = second ∧ rest = other := by
  rcases List.append_eq_append_iff.1 same with ⟨more, rfl, tail⟩ | ⟨more, rfl, tail⟩
  · cases more with
    | nil => exact ⟨by simp, (List.cons.inj tail).2⟩
    | cons byte more =>
      obtain ⟨rfl, -⟩ := List.cons.inj tail
      simp at secondPlain
  · cases more with
    | nil => exact ⟨by simp, ((List.cons.inj tail).2).symm⟩
    | cons byte more =>
      obtain ⟨rfl, -⟩ := List.cons.inj tail
      simp at firstPlain

/-- The bytes of an identifier with a fingerprint. -/
def labelBytes (label : String × Fingerprint) : List UInt8 :=
  (labelled label.1 label.2).data.toList

theorem labelBytes_eq (label : String × Fingerprint) :
    labelBytes label = label.1.toUTF8.data.toList ++ 0 :: label.2.bytes.data.toList := by
  simp [labelBytes, labelled]

/-- A label can be read back: its identifier has no zero character and its
fingerprint the common length. -/
def Readable (size : Nat) (label : String × Fingerprint) : Prop :=
  '\x00' ∉ label.1.toList ∧ label.2.bytes.size = size

/-- Readable labels are determined by their bytes. -/
theorem eq_of_flatMap_labelBytes_eq {size : Nat} {left right : List (String × Fingerprint)}
    (leftReadable : ∀ label ∈ left, Readable size label)
    (rightReadable : ∀ label ∈ right, Readable size label)
    (same : left.flatMap labelBytes = right.flatMap labelBytes) : left = right := by
  induction left generalizing right with
  | nil =>
    cases right with
    | nil => rfl
    | cons label rest => simp [labelBytes_eq] at same
  | cons label rest ih =>
    cases right with
    | nil => simp [labelBytes_eq] at same
    | cons other others =>
      obtain ⟨labelPlain, labelSize⟩ := leftReadable label List.mem_cons_self
      obtain ⟨otherPlain, otherSize⟩ := rightReadable other List.mem_cons_self
      rw [List.flatMap_cons, List.flatMap_cons, labelBytes_eq, labelBytes_eq, List.append_assoc,
        List.append_assoc, List.cons_append, List.cons_append] at same
      obtain ⟨ids, rests⟩ := eq_of_append_zero_eq (zero_notMem_toUTF8 labelPlain)
        (zero_notMem_toUTF8 otherPlain) same
      have lengths : label.2.bytes.data.toList.length = other.2.bytes.data.toList.length := by
        rw [Array.length_toList, Array.length_toList]
        exact labelSize.trans otherSize.symm
      obtain ⟨fingerprints, tails⟩ := List.append_inj rests lengths
      have sameId : label.1 = other.1 := by
        refine toUTF8_inj (ByteArray.ext (Array.toList_inj.1 ids))
      have sameFingerprint : label.2 = other.2 := by
        exact congrArg Fingerprint.mk (ByteArray.ext (Array.toList_inj.1 fingerprints))
      rw [Prod.ext sameId sameFingerprint, ih
        (fun label member => leftReadable label (List.mem_cons_of_mem _ member))
        (fun label member => rightReadable label (List.mem_cons_of_mem _ member)) tails]

/-- Labels with the same identifiers, with fingerprints of one length, are determined by their bytes. -/
theorem eq_of_flatMap_labelBytes_eq_of_ids_eq {size : Nat} {left right : List (String × Fingerprint)}
    (ids : left.map Prod.fst = right.map Prod.fst)
    (leftSized : ∀ label ∈ left, label.2.bytes.size = size)
    (rightSized : ∀ label ∈ right, label.2.bytes.size = size)
    (same : left.flatMap labelBytes = right.flatMap labelBytes) : left = right := by
  induction left generalizing right with
  | nil => simp_all
  | cons label rest ih =>
    cases right with
    | nil => cases ids
    | cons other others =>
      obtain ⟨sameId, tailIds⟩ := List.cons.inj ids
      have sizes : label.2.bytes.size = other.2.bytes.size :=
        (leftSized label List.mem_cons_self).trans (rightSized other List.mem_cons_self).symm
      rw [List.flatMap_cons, List.flatMap_cons, labelBytes_eq, labelBytes_eq, sameId] at same
      have lengths : label.2.bytes.data.toList.length = other.2.bytes.data.toList.length := by
        rw [Array.length_toList, Array.length_toList]
        exact sizes
      obtain ⟨heads, tails⟩ := List.append_inj same (by simp [lengths])
      have contents := (List.cons.inj (List.append_cancel_left heads)).2
      have sameContent : label.2 = other.2 :=
        congrArg Fingerprint.mk (ByteArray.ext (Array.toList_inj.1 contents))
      rw [Prod.ext sameId sameContent, ih tailIds
        (fun label held => leftSized label (List.mem_cons_of_mem _ held))
        (fun label held => rightSized label (List.mem_cons_of_mem _ held)) tails]

theorem toList_concat (parts : List ByteArray) :
    (concat parts).data.toList = parts.flatMap fun part => part.data.toList := by
  unfold concat
  induction parts using List.reverseRecOn with
  | nil => rfl
  | append_singleton parts part ih => simp [ih]

namespace UnitMessage

theorem toList_bytes (message : UnitMessage) :
    message.bytes.data.toList = (if message.cyclic then "scc" else "mod").toUTF8.data.toList ++
      message.labels.flatMap labelBytes := by
  simp only [bytes, unitBytes, labels, ByteArray.data_append, Array.toList_append, toList_concat,
    List.flatMap_map, List.flatMap_append, List.append_assoc]
  rfl

theorem size_kind (cyclic : Bool) :
    (if cyclic then "scc" else "mod").toUTF8.data.toList.length = 3 := by
  cases cyclic <;> rfl

/-- Messages with the same bytes are of one kind. -/
theorem cyclic_eq_of_bytes_eq {left right : UnitMessage} (same : left.bytes = right.bytes) :
    left.cyclic = right.cyclic := by
  have lists := congrArg (fun bytes : ByteArray => bytes.data.toList) same
  simp only [toList_bytes] at lists
  have kinds := (List.append_inj lists (by rw [size_kind, size_kind])).1
  have apart : "scc".toUTF8.data.toList ≠ "mod".toUTF8.data.toList := by decide
  cases leftKind : left.cyclic <;> cases rightKind : right.cyclic <;>
    rw [leftKind, rightKind] at kinds
  · exact absurd kinds.symm apart
  · exact absurd kinds apart

/-- Messages with the same bytes have the same labels. -/
theorem labels_eq_of_bytes_eq {size : Nat} {left right : UnitMessage}
    (leftReadable : ∀ label ∈ left.labels, Readable size label)
    (rightReadable : ∀ label ∈ right.labels, Readable size label)
    (same : left.bytes = right.bytes) : left.labels = right.labels := by
  have lists := congrArg (fun bytes : ByteArray => bytes.data.toList) same
  simp only [toList_bytes] at lists
  have tails := (List.append_inj lists (by rw [size_kind, size_kind])).2
  exact eq_of_flatMap_labelBytes_eq leftReadable rightReadable tails

theorem bytes_eq_of_labels_eq {left right : UnitMessage} (kinds : left.cyclic = right.cyclic)
    (labels : left.labels = right.labels) : left.bytes = right.bytes :=
  ByteArray.ext (Array.toList_inj.1 (by rw [toList_bytes, toList_bytes, kinds, labels]))

/-- The labels of a message leave nothing else to its fingerprints. -/
theorem fingerprint_eq_of_labels_eq (digest : ByteArray → Fingerprint) {left right : UnitMessage}
    (kinds : left.cyclic = right.cyclic) (labels : left.labels = right.labels) (id : String) :
    left.fingerprint digest id = right.fingerprint digest id := by
  unfold fingerprint memberBytes
  rw [bytes_eq_of_labels_eq kinds labels, kinds]

theorem ids_labels (message : UnitMessage) : message.labels.map Prod.fst =
    message.members.map GraphNode.id ++ message.outside.map Prod.fst := by
  rw [labels, List.map_append, List.map_map]
  rfl

/-- Messages with the same bytes and the same identifiers have the same labels. -/
theorem labels_eq_of_ids_eq {size : Nat} {left right : UnitMessage}
    (ids : left.labels.map Prod.fst = right.labels.map Prod.fst)
    (leftSized : ∀ label ∈ left.labels, label.2.bytes.size = size)
    (rightSized : ∀ label ∈ right.labels, label.2.bytes.size = size)
    (same : left.bytes = right.bytes) : left.labels = right.labels := by
  have lists := congrArg (fun bytes : ByteArray => bytes.data.toList) same
  simp only [toList_bytes] at lists
  have tails := (List.append_inj lists (by rw [size_kind, size_kind])).2
  exact eq_of_flatMap_labelBytes_eq_of_ids_eq ids leftSized rightSized tails

/-- What is hashed for a member of a cyclic unit is shorter than the message of
any unit that the member stands in. -/
theorem size_memberBytes_lt {size : Nat} {digest : ByteArray → Fingerprint}
    (digestSize : ∀ content, (digest content).bytes.size = size) (left : UnitMessage)
    {right : UnitMessage} (readable : ∀ label ∈ right.labels, Readable size label)
    {member : GraphNode} (held : member ∈ right.members) :
    (left.memberBytes digest member.id).size < right.bytes.size := by
  have label : (member.id, member.content) ∈ right.labels :=
    List.mem_append_left _ (List.mem_map.2 ⟨member, held, rfl⟩)
  have contentSize : member.content.bytes.size = size := (readable _ label).2
  have long : (labelBytes (member.id, member.content)).length ≤
      (right.labels.flatMap labelBytes).length :=
    (List.sublist_flatten_of_mem (List.mem_map_of_mem label)).length_le
  have total := congrArg List.length right.toList_bytes
  rw [List.length_append, size_kind, Array.length_toList] at total
  rw [labelBytes_eq, List.length_append, List.length_cons, Array.length_toList,
    Array.length_toList] at long
  have first := digestSize left.bytes
  rw [memberBytes, ByteArray.size_append, first]
  change member.id.toUTF8.size + (member.content.bytes.size + 1) ≤ _ at long
  change right.bytes.size = _ at total
  omega

theorem memberBytes_mem_hashed (digest : ByteArray → Fingerprint) {message : UnitMessage}
    (cyclic : message.cyclic = true) {id : String} (member : ∃ member ∈ message.members, member.id = id) :
    message.memberBytes digest id ∈ message.hashed digest := by
  obtain ⟨node, inside, rfl⟩ := member
  rw [hashed, cyclic, if_pos rfl]
  exact List.mem_cons_of_mem _ (List.mem_map.2 ⟨node, inside, rfl⟩)

/-- If nothing that is hashed for two messages of one kind collides, a fingerprint that both give to
one identifier tells that they have the same bytes. -/
theorem bytes_eq_of_cyclic_eq {digest : ByteArray → Fingerprint} {left right : UnitMessage}
    (kinds : left.cyclic = right.cyclic) {id : String}
    (leftMember : ∃ member ∈ left.members, member.id = id)
    (rightMember : ∃ member ∈ right.members, member.id = id)
    (apart : ∀ first ∈ left.hashed digest, ∀ second ∈ right.hashed digest,
      digest first = digest second → first = second)
    (same : left.fingerprint digest id = right.fingerprint digest id) :
    left.bytes = right.bytes := by
  have wholes : digest left.bytes = digest right.bytes → left.bytes = right.bytes :=
    apart _ List.mem_cons_self _ List.mem_cons_self
  unfold fingerprint at same
  rw [← kinds] at same
  split at same
  · next cyclic =>
    have equal := apart _ (memberBytes_mem_hashed digest cyclic leftMember) _
      (memberBytes_mem_hashed digest (kinds ▸ cyclic) rightMember) same
    exact wholes (congrArg Fingerprint.mk (ByteArray.append_left_inj _ |>.1 equal))
  · exact wholes same

/-- If nothing that is hashed for two messages collides, a fingerprint that both
give to one identifier tells that they have the same bytes. -/
theorem bytes_eq_of_fingerprint_eq {size : Nat} {digest : ByteArray → Fingerprint}
    (digestSize : ∀ content, (digest content).bytes.size = size) {left right : UnitMessage}
    (leftReadable : ∀ label ∈ left.labels, Readable size label)
    (rightReadable : ∀ label ∈ right.labels, Readable size label) {id : String}
    (leftMember : ∃ member ∈ left.members, member.id = id)
    (rightMember : ∃ member ∈ right.members, member.id = id)
    (apart : ∀ first ∈ left.hashed digest, ∀ second ∈ right.hashed digest,
      digest first = digest second → first = second)
    (same : left.fingerprint digest id = right.fingerprint digest id) :
    left.bytes = right.bytes := by
  by_cases kinds : left.cyclic = right.cyclic
  · exact bytes_eq_of_cyclic_eq kinds leftMember rightMember apart same
  -- What is hashed for a member is too short to be a message that the member stands in.
  · cases leftCyclic : left.cyclic with
    | false =>
      have rightCyclic : right.cyclic = true := by simpa [leftCyclic] using kinds
      simp only [fingerprint, leftCyclic, rightCyclic, Bool.false_eq_true, if_true, if_false] at same
      have equal := apart _ List.mem_cons_self _
        (memberBytes_mem_hashed digest rightCyclic rightMember) same
      obtain ⟨member, held, rfl⟩ := leftMember
      have shorter := size_memberBytes_lt digestSize right leftReadable held
      rw [equal] at shorter
      omega
    | true =>
      have rightCyclic : right.cyclic = false := by simpa [leftCyclic] using kinds
      simp only [fingerprint, leftCyclic, rightCyclic, Bool.false_eq_true, if_true, if_false] at same
      have equal := apart _ (memberBytes_mem_hashed digest leftCyclic leftMember) _
        List.mem_cons_self same
      obtain ⟨member, held, rfl⟩ := rightMember
      have shorter := size_memberBytes_lt digestSize left rightReadable held
      rw [equal] at shorter
      omega

end UnitMessage

end Graph

end Bundler
