/-!
# BLAKE3

The 256-bit hash of a byte string. The input is cut into chunks of 1024 bytes,
each a chain of 64-byte blocks; chunk values are joined two by two in a tree
whose left side holds the largest power of two of chunks that leaves some for
the right. `blake3_size` says that every hash has 32 bytes.
-/

namespace Bundler.Blake3

abbrev Words := Vector UInt32 16
abbrev Chain := Vector UInt32 8

def initial : Chain :=
  #v[0x6a09e667, 0xbb67ae85, 0x3c6ef372, 0xa54ff53a, 0x510e527f, 0x9b05688c, 0x1f83d9ab, 0x5be0cd19]

/-- Where each message word of the next round comes from. -/
def schedule : Vector (Fin 16) 16 := #v[2, 6, 3, 10, 7, 0, 4, 13, 1, 11, 12, 5, 9, 14, 15, 8]

def chunkStart : UInt32 := 1
def chunkEnd : UInt32 := 2
def parentNode : UInt32 := 4
def rootNode : UInt32 := 8

def rotate (word : UInt32) (count : UInt32) : UInt32 :=
  (word >>> count) ||| (word <<< (32 - count))

/-- Mix two message words into a column or diagonal of the state. -/
def mix (state : Words) (a b c d : Fin 16) (x y : UInt32) : Words :=
  let state := state.set a (state[a] + state[b] + x)
  let state := state.set d (rotate (state[d] ^^^ state[a]) 16)
  let state := state.set c (state[c] + state[d])
  let state := state.set b (rotate (state[b] ^^^ state[c]) 12)
  let state := state.set a (state[a] + state[b] + y)
  let state := state.set d (rotate (state[d] ^^^ state[a]) 8)
  let state := state.set c (state[c] + state[d])
  state.set b (rotate (state[b] ^^^ state[c]) 7)

def round (state message : Words) : Words :=
  let state := mix state 0 4 8 12 message[0] message[1]
  let state := mix state 1 5 9 13 message[2] message[3]
  let state := mix state 2 6 10 14 message[4] message[5]
  let state := mix state 3 7 11 15 message[6] message[7]
  let state := mix state 0 5 10 15 message[8] message[9]
  let state := mix state 1 6 11 12 message[10] message[11]
  let state := mix state 2 7 8 13 message[12] message[13]
  mix state 3 4 9 14 message[14] message[15]

def rounds : Nat → Words → Words → Words
  | 0, state, _ => state
  | left + 1, state, message =>
    rounds left (round state message) (schedule.map fun source => message[source])

/-- A node of the tree before it is compressed. -/
structure Node where
  chain : Chain
  block : Words
  counter : Nat
  length : UInt32
  flags : UInt32

def Node.compress (node : Node) (flags : UInt32) (counter : Nat) : Chain :=
  let start : Words := node.chain ++ #v[initial[0], initial[1], initial[2], initial[3],
    UInt32.ofNat counter, UInt32.ofNat (counter >>> 32), node.length, node.flags ||| flags]
  let state := rounds 7 start node.block
  Vector.ofFn fun index : Fin 8 => state[index.val] ^^^ state[index.val + 8]

def Node.chaining (node : Node) : Chain := node.compress 0 node.counter

/-- Four bytes, least significant first. -/
def word (bytes : List UInt8) : UInt32 :=
  bytes.foldr (fun byte high => high <<< 8 ||| byte.toUInt32) 0

/-- A block of at most 64 bytes, padded with zeros. -/
def blockWords (bytes : List UInt8) : Words :=
  Vector.ofFn fun index : Fin 16 => word ((bytes.drop (index.val * 4)).take 4)

/-- The last block of a chunk as a node, after chaining the blocks before it. -/
def chunkNode (counter : Nat) (chain : Chain) (flags : UInt32) (bytes : List UInt8) : Node :=
  if 64 < bytes.length then
    let node : Node := ⟨chain, blockWords (bytes.take 64), counter, 64, flags⟩
    chunkNode counter node.chaining 0 (bytes.drop 64)
  else
    ⟨chain, blockWords bytes, counter, UInt32.ofNat bytes.length, flags ||| chunkEnd⟩
termination_by bytes.length
decreasing_by simp only [List.length_drop]; omega

/-- The largest power of two below `size`, for `size` above one. -/
def leftSize (size : Nat) : Nat := 1 <<< Nat.log2 (size - 1)

theorem leftSize_lt {size : Nat} (big : 1 < size) : leftSize size < size := by
  have bound : 1 <<< Nat.log2 (size - 1) ≤ size - 1 :=
    (Nat.one_shiftLeft _).symm ▸ Nat.log2_self_le (by omega)
  unfold leftSize
  omega

theorem leftSize_pos (size : Nat) : 0 < leftSize size := by
  rw [leftSize, Nat.one_shiftLeft]
  exact Nat.two_pow_pos _

/-- The node of all bytes from the chunk numbered `counter` on. -/
def treeNode (counter : Nat) (bytes : List UInt8) : Node :=
  if 1024 < bytes.length then
    let left := 1024 * leftSize ((bytes.length + 1023) / 1024)
    let leftNode := treeNode counter (bytes.take left)
    let rightNode := treeNode (counter + left / 1024) (bytes.drop left)
    ⟨initial, leftNode.chaining ++ rightNode.chaining, 0, 64, parentNode⟩
  else chunkNode counter initial chunkStart bytes
termination_by bytes.length
decreasing_by
  · rename_i big
    have below : leftSize ((bytes.length + 1023) / 1024) < (bytes.length + 1023) / 1024 :=
      leftSize_lt (by omega)
    simp only [List.length_take]
    omega
  · have positive := leftSize_pos ((bytes.length + 1023) / 1024)
    simp only [List.length_drop]
    omega

def wordBytes (value : UInt32) : List UInt8 :=
  [value.toUInt8, (value >>> 8).toUInt8, (value >>> 16).toUInt8, (value >>> 24).toUInt8]

end Blake3

/-- The BLAKE3 hash of `bytes`. -/
def blake3 (bytes : ByteArray) : ByteArray :=
  let root := (Blake3.treeNode 0 bytes.toList).compress Blake3.rootNode 0
  ⟨(root.toList.flatMap Blake3.wordBytes).toArray⟩

theorem blake3_size (bytes : ByteArray) : (blake3 bytes).size = 32 := by
  have sum : ∀ words : List UInt32, (words.flatMap Blake3.wordBytes).length = 4 * words.length := by
    intro words
    induction words with
    | nil => rfl
    | cons head rest ih => simp [Blake3.wordBytes, ih]; omega
  simp [blake3, ByteArray.size, sum]

end Bundler
