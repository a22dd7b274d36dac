/-
Inflating. A zlib stream is a two-byte preamble, blocks of stored bytes or of codewords for literals
and copies, and the Adler-32 of what they decode to. `Inflater.step` reads the preamble, one block
header, one stored byte, one literal or copy, or the trailer.
-/
import FlashVolume.Zlib.Decoder
import FlashVolume.Zlib.Huffman

namespace FlashVolume.Zlib

/-! ## Tables of the format -/

/-- Base and count of extra bits of the copy lengths, from symbol 257 on. -/
def lengthTable : List (Nat × Nat) :=
  [(3, 0), (4, 0), (5, 0), (6, 0), (7, 0), (8, 0), (9, 0), (10, 0), (11, 1), (13, 1), (15, 1),
    (17, 1), (19, 2), (23, 2), (27, 2), (31, 2), (35, 3), (43, 3), (51, 3), (59, 3), (67, 4), (83, 4),
    (99, 4), (115, 4), (131, 5), (163, 5), (195, 5), (227, 5), (258, 0)]

/-- Base and count of extra bits of the copy distances. -/
def distanceTable : List (Nat × Nat) :=
  [(1, 0), (2, 0), (3, 0), (4, 0), (5, 1), (7, 1), (9, 2), (13, 2), (17, 3), (25, 3), (33, 4),
    (49, 4), (65, 5), (97, 5), (129, 6), (193, 6), (257, 7), (385, 7), (513, 8), (769, 8), (1025, 9),
    (1537, 9), (2049, 10), (3073, 10), (4097, 11), (6145, 11), (8193, 12), (12289, 12), (16385, 13),
    (24577, 13)]

/-- The order in which a block lists the lengths of the code for its code lengths. -/
def codeLengthOrder : List Nat :=
  [16, 17, 18, 0, 8, 7, 9, 6, 10, 5, 11, 4, 12, 3, 13, 2, 14, 1, 15]

/-- Literals and copy lengths of a block without tables of its own. -/
def fixedLiterals : HuffmanTree :=
  .ofLengths (List.replicate 144 8 ++ List.replicate 112 9 ++ List.replicate 24 7 ++
    List.replicate 8 8)

/-- Copy distances of a block without tables of its own. -/
def fixedDistances : HuffmanTree := .ofLengths (List.replicate 32 5)

/-! ## State -/

/-- What comes next in a stream. -/
inductive Stage
  | preamble
  | header
  | stored (last : Bool) (left : Nat)
  | coded (last : Bool) (literals distances : HuffmanTree)
  | trailer

/-- A stream partly read and what it decoded to so far. -/
structure Inflater where
  input : BitStream
  output : Array UInt8
  stage : Stage

/-- The start of a stream. -/
def Inflater.ofBytes (payload : List UInt8) : Inflater := ⟨.ofBytes payload, #[], .preamble⟩

/-- What follows a block. -/
def Stage.afterBlock (last : Bool) : Stage := if last then .trailer else .header

/-- The Adler-32 of some bytes. -/
def adler32 (bytes : Array UInt8) : Nat :=
  let (a, b) := bytes.foldl
    (fun (a, b) byte => let a := (a + byte.toNat) % 65521; (a, (b + a) % 65521)) (1, 0)
  b * 65536 + a

/-- Repeat `length` bytes from `distance` bytes back; what lies before the start counts as zero. -/
def copyBack (output : Array UInt8) (distance : Nat) : (length : Nat) → Array UInt8
  | 0 => output
  | length + 1 =>
    let byte := if distance ≤ output.size then output.getD (output.size - distance) 0 else 0
    copyBack (output.push byte) distance length

/-! ## Block tables -/

/-- The lengths of the code for the code lengths: `count` of them in the order of the format. -/
def readCodeLengths (s : BitStream) : (order : List Nat) → (lengths : Array Nat) →
    Except Fault (Array Nat × BitStream)
  | [], lengths => .ok (lengths, s)
  | symbol :: order, lengths =>
    match s.bits 3 with
    | .error fault => .error fault
    | .ok (length, s) => readCodeLengths s order (lengths.setIfInBounds symbol length)

/-- Code lengths up to `total` of them, runs expanded; a run that overshoots the total, or repeats a
length before there is one, is corrupt. -/
def readLengths (tree : HuffmanTree) (total : Nat) (s : BitStream) (lengths : Array Nat) :
    Except Fault (List Nat × BitStream) :=
  if total ≤ lengths.size then
    if lengths.size = total then .ok (lengths.toList, s) else .error .corrupt
  else
    match tree.decode s with
    | .error fault => .error fault
    | .ok (symbol, s) =>
      -- Below 16 a symbol is a length; above, it says how a run goes on.
      if symbol < 16 then readLengths tree total s (lengths.push symbol)
      else if symbol = 16 ∧ lengths.size = 0 then .error .corrupt
      else
        let (extra, base) := if symbol = 16 then (2, 3) else if symbol = 17 then (3, 3) else (7, 11)
        let value := if symbol = 16 then lengths.getD (lengths.size - 1) 0 else 0
        match s.bits extra with
        | .error fault => .error fault
        | .ok (count, s) =>
          readLengths tree total s (lengths ++ Array.replicate (base + count - 1) value |>.push value)
termination_by total - lengths.size
decreasing_by all_goals simp [Array.size_push]; omega

/-- A code that literals or distances may have: a complete one, or one that leaves half of the space
of codewords to its only symbol or has no symbol at all. -/
def isUsable (lengths : List Nat) : Bool :=
  HuffmanTree.isComplete lengths ||
    match lengths.filter (· != 0) with
    | [] => true
    | [length] => length == 1
    | _ => false

/-- The trees of a block with tables of its own. The code for the code lengths has to be complete. -/
def readTables (s : BitStream) : Except Fault (HuffmanTree × HuffmanTree × BitStream) := do
  let (literalCount, s) ← s.bits 5
  let (distanceCount, s) ← s.bits 5
  let (codeCount, s) ← s.bits 4
  let literalCount := literalCount + 257
  let distanceCount := distanceCount + 1
  if 286 < literalCount || 30 < distanceCount then throw .corrupt
  let (lengths, s) ← readCodeLengths s (codeLengthOrder.take (codeCount + 4)) (Array.replicate 19 0)
  if !HuffmanTree.isComplete lengths.toList then throw .corrupt
  let (lengths, s) ←
    readLengths (.ofLengths lengths.toList) (literalCount + distanceCount) s #[]
  let literals := lengths.take literalCount
  let distances := lengths.drop literalCount
  if !isUsable literals || !isUsable distances then throw .corrupt
  return (.ofLengths literals, .ofLengths distances, s)

/-! ## Steps -/

/-- Read the preamble: deflate, a window of at most 32 KiB, no preset dictionary, and a multiple of
31 as a whole. -/
def Inflater.readPreamble (state : Inflater) : Except Fault (Progress Inflater) := do
  let (method, s) ← state.input.bits 8
  let (flags, s) ← s.bits 8
  if method % 16 ≠ 8 ∨ 7 < method / 16 ∨ flags.testBit 5 ∨ (method * 256 + flags) % 31 ≠ 0 then
    throw .corrupt
  return .more { state with input := s, stage := .header }

/-- Read a block header. -/
def Inflater.readHeader (state : Inflater) : Except Fault (Progress Inflater) := do
  let (last, s) ← state.input.bit
  let (kind, s) ← s.bits 2
  match kind with
  | 0 =>
    let (length, s) ← s.align.bits 16
    let (complement, s) ← s.bits 16
    if length + complement ≠ 65535 then throw .corrupt
    let stage := if length = 0 then Stage.afterBlock last else .stored last length
    return .more { state with input := s, stage }
  | 1 => return .more { state with input := s, stage := .coded last fixedLiterals fixedDistances }
  | 2 =>
    let (literals, distances, s) ← readTables s
    return .more { state with input := s, stage := .coded last literals distances }
  | _ => throw .corrupt

/-- Read a literal, a copy or the end of a coded block. -/
def Inflater.readSymbol (state : Inflater) (last : Bool) (literals distances : HuffmanTree) :
    Except Fault (Progress Inflater) := do
  let (symbol, s) ← literals.decode state.input
  if symbol < 256 then
    return .more { state with input := s, output := state.output.push symbol.toUInt8 }
  if symbol = 256 then
    return .more { state with input := s, stage := Stage.afterBlock last }
  let some (base, extra) := lengthTable[symbol - 257]? | throw .corrupt
  let (more, s) ← s.bits extra
  let length := base + more
  -- A copy: how long it is was first, how far back it starts comes second.
  let (symbol, s) ← distances.decode s
  let some (base, extra) := distanceTable[symbol]? | throw .corrupt
  let (more, s) ← s.bits extra
  return .more { state with input := s, output := copyBack state.output (base + more) length }

/-- Read the trailer: the Adler-32 of the output, its high byte first. -/
def Inflater.readTrailer (state : Inflater) : Except Fault (Progress Inflater) := do
  let (b3, s) ← state.input.align.bits 8
  let (b2, s) ← s.bits 8
  let (b1, s) ← s.bits 8
  let (b0, s) ← s.bits 8
  if ((b3 * 256 + b2) * 256 + b1) * 256 + b0 = adler32 state.output then
    return .finished { state with input := s }
  throw .corrupt

/-- Read what comes next. -/
def Inflater.step (state : Inflater) : Except Fault (Progress Inflater) :=
  match state.stage with
  | .preamble => state.readPreamble
  | .header => state.readHeader
  | .stored last left => do
    let (byte, s) ← state.input.bits 8
    let stage := if left ≤ 1 then Stage.afterBlock last else .stored last (left - 1)
    return .more { input := s, output := state.output.push byte.toUInt8, stage }
  | .coded last literals distances => state.readSymbol last literals distances
  | .trailer => state.readTrailer

/-! ## Streams -/

/-- The decoder of zlib streams. -/
def inflater : Decoder Inflater where
  start := .ofBytes
  step := Inflater.step
  output := Inflater.output
  remaining state := state.input.remaining

/-- All a stream decodes to; what follows its trailer is ignored. -/
def inflate (payload : List UInt8) : Except Fault (List UInt8) := inflater.decode payload

/-- The first `count` bytes a stream decodes to, or all of them if it ends before. -/
def inflateAtMost (count : Nat) (payload : List UInt8) : Except Fault (List UInt8) :=
  inflater.decodeAtMost count payload

end FlashVolume.Zlib
