/-
Canonical prefix codes. A code is given by the length of each symbol's codeword; shorter codewords
come first and equal lengths go by symbol. It is kept as a tree that is walked bit by bit, so a
string of bits that begins no codeword is found out at the first bit that leads nowhere.
-/
import FlashVolume.Zlib.BitStream

namespace FlashVolume.Zlib

/-- A binary tree of symbols, possibly with missing branches. -/
inductive HuffmanTree
  | empty
  | leaf (symbol : Nat)
  | node (zero one : HuffmanTree)

namespace HuffmanTree

/-- The longest codeword. -/
def maxLength : Nat := 15

/-- Hang a symbol under a codeword, the first bit at the root. -/
def insert (symbol : Nat) : (codeword : List Bool) → HuffmanTree → HuffmanTree
  | [], _ => leaf symbol
  | false :: rest, node zero one => node (zero.insert symbol rest) one
  | true :: rest, node zero one => node zero (one.insert symbol rest)
  | false :: rest, _ => node (empty.insert symbol rest) empty
  | true :: rest, _ => node empty (empty.insert symbol rest)

/-- The low `length` bits of a number, the high one first. -/
def codeword (value : Nat) : (length : Nat) → List Bool
  | 0 => []
  | length + 1 => value.testBit length :: codeword value length

/-- How many symbols have codewords of this length. -/
def count (lengths : List Nat) (length : Nat) : Nat := lengths.count length

/-- The smallest codeword of a length, as a number. -/
def firstCode (lengths : List Nat) : (length : Nat) → Nat
  | 0 => 0
  | 1 => 0
  | length + 2 => 2 * (firstCode lengths (length + 1) + count lengths (length + 1))

/-- The tree of the code with these lengths; a length of zero leaves its symbol out. -/
def ofLengths (lengths : List Nat) : HuffmanTree :=
  let first := (List.range (maxLength + 1)).map (firstCode lengths)
  let grow (state : HuffmanTree × Array Nat) (entry : Nat × Nat) : HuffmanTree × Array Nat :=
    let (tree, next) := state
    let (length, symbol) := entry
    if length = 0 then state
    else
      let code := next.getD length 0
      (tree.insert symbol (codeword code length), next.setIfInBounds length (code + 1))
  (lengths.zipIdx.foldl grow (node empty empty, first.toArray)).1

/-- How much of the space of codewords is taken, in units of the longest codeword. -/
def taken (lengths : List Nat) : Nat :=
  (lengths.filter (· != 0)).foldr (fun length n => 1 <<< (maxLength - length) + n) 0

/-- Every sufficiently long string of bits begins with exactly one codeword. -/
def isComplete (lengths : List Nat) : Bool := taken lengths == 1 <<< maxLength

/-- The symbol of the codeword that comes next. -/
def decode : HuffmanTree → BitStream → Except Fault (Nat × BitStream)
  | empty, _ => .error .corrupt
  | leaf symbol, s => .ok (symbol, s)
  | node zero one, s =>
    match s.bit with
    | .error fault => .error fault
    | .ok (bit, s) => if bit then one.decode s else zero.decode s

end HuffmanTree

end FlashVolume.Zlib
