/-!
# Decoding UTF-8

Bytes are cut into pieces: characters and faults. A fault is the longest start
of a well-formed sequence that its next byte breaks, or that the end of the
input cuts off. `decode` replaces every fault by U+FFFD and reports the first
one. `decode_fault_eq_none_iff` says that only ill-formed bytes have a fault.
-/

namespace Bundler.Text

/-- Byte arrays are equal if their bytes are. -/
instance decidableEqBytes : DecidableEq ByteArray := ByteArray.instDecidableEq

/-- The place and extent of ill-formed bytes. -/
structure Utf8Fault where
  /-- Number of well-formed bytes before the fault. -/
  offset : Nat
  /-- Number of bytes in the fault; `none` if the input ends inside it. -/
  length? : Option Nat
  deriving DecidableEq, Repr

def Utf8Fault.message (fault : Utf8Fault) : String :=
  match fault.length? with
  | some length => s!"invalid utf-8 sequence of {length} bytes from index {fault.offset}"
  | none => s!"incomplete utf-8 byte sequence from index {fault.offset}"

/-- A well-formed character or a fault, with the number of bytes it takes. -/
inductive Piece where
  | char (c : Char) (width : Nat)
  | fault (width : Nat) (truncated : Bool)

def Piece.width : Piece → Nat
  | .char _ width => width
  | .fault width _ => width

def Piece.toChar : Piece → Char
  | .char c _ => c
  | .fault _ _ => '\uFFFD'

def isContinuation (byte : UInt8) : Bool := 0x80 ≤ byte && byte ≤ 0xbf

/-- The second bytes that may follow a first byte. They rule out overlong forms,
surrogates and numbers past the last code point. -/
def secondRange (first : UInt8) : UInt8 × UInt8 :=
  if first = 0xe0 then (0xa0, 0xbf)
  else if first = 0xed then (0x80, 0x9f)
  else if first = 0xf0 then (0x90, 0xbf)
  else if first = 0xf4 then (0x80, 0x8f)
  else (0x80, 0xbf)

/-- Number of bytes that a first byte announces; zero if it announces none. -/
def announced (first : UInt8) : Nat :=
  if first < 0x80 then 1
  else if first < 0xc2 then 0
  else if first < 0xe0 then 2
  else if first < 0xf0 then 3
  else if first < 0xf5 then 4
  else 0

/-- Six more bits of a code point. -/
def extend (bits : Nat) (byte : UInt8) : Nat := bits * 64 + byte.toNat % 64

/-- Read the rest of a character after its second byte. -/
def readTail (total width bits : Nat) : Nat → List UInt8 → Piece
  | 0, _ => .char (Char.ofNat bits) total
  | _ + 1, [] => .fault width true
  | missing + 1, byte :: rest =>
    if isContinuation byte then readTail total (width + 1) (extend bits byte) missing rest
    else .fault width false

/-- The piece at the start of non-empty bytes. -/
def firstPiece (first : UInt8) (rest : List UInt8) : Piece :=
  match announced first with
  | 0 => .fault 1 false
  | 1 => .char (Char.ofNat first.toNat) 1
  | total =>
    match rest with
    | [] => .fault 1 true
    | second :: rest =>
      let range := secondRange first
      if range.1 ≤ second && second ≤ range.2 then
        let bits := first.toNat % (if total = 2 then 32 else if total = 3 then 16 else 8)
        readTail total 2 (extend bits second) (total - 2) rest
      else .fault 1 false

/-- All pieces in order. -/
def pieces : List UInt8 → List Piece
  | [] => []
  | first :: rest =>
    let piece := firstPiece first rest
    piece :: pieces (rest.drop (piece.width - 1))
termination_by bytes => bytes.length
decreasing_by simp only [List.length_drop, List.length_cons]; omega

/-- The first fault among pieces that begin at `offset`. -/
def firstFault? (offset : Nat) : List Piece → Option Utf8Fault
  | [] => none
  | .char _ width :: rest => firstFault? (offset + width) rest
  | .fault width truncated :: _ => some ⟨offset, if truncated then none else some width⟩

/-- Decoded bytes: the text with faults replaced, and the first fault. -/
structure Decoded where
  text : String
  fault : Option Utf8Fault

def decode (bytes : ByteArray) : Decoded :=
  match String.fromUTF8? bytes with
  | some text => ⟨text, none⟩
  | none =>
    let found := pieces bytes.toList
    ⟨String.ofList (found.map Piece.toChar), some ((firstFault? 0 found).getD ⟨0, none⟩)⟩

/-- Decoding finds no fault exactly in well-formed bytes. -/
theorem decode_fault_eq_none_iff (bytes : ByteArray) :
    (decode bytes).fault = none ↔ (String.fromUTF8? bytes).isSome = true := by
  unfold decode
  cases String.fromUTF8? bytes <;> simp

end Bundler.Text
