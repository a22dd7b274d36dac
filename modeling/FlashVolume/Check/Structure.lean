/-
The structures a check inspects, in the order it inspects them, and sets of them. The first four are
critical: without them a volume cannot be mounted. The others are trees whose roots the volume state
records.
-/
import FlashVolume.Record.Footer

namespace FlashVolume

/-- What a check inspects. -/
inductive Structure
  | baseSnapshot
  | superblock
  | segmentBitmap
  | mappingTable
  | inodesTree
  | snapshotsTree
  | invalidExtentsTree
  | sharedDictionaryTree
deriving DecidableEq

namespace Structure

/-- All structures in inspection order. -/
def all : List Structure :=
  [baseSnapshot, superblock, segmentBitmap, mappingTable, inodesTree, snapshotsTree,
    invalidExtentsTree, sharedDictionaryTree]

/-- The structure in running text. -/
def name : Structure → String
  | baseSnapshot => "initial snapshot"
  | superblock => "superblock"
  | segmentBitmap => "segment bitmap"
  | mappingTable => "mapping table"
  | inodesTree => "inodes b-tree"
  | snapshotsTree => "snapshots b-tree"
  | invalidExtentsTree => "invalidated extents b-tree"
  | sharedDictionaryTree => "shared dictionary b-tree"

/-- The identifier of the structure in reports. -/
def identifier : Structure → String
  | baseSnapshot => "BaseSnapshot"
  | superblock => "Superblock"
  | segmentBitmap => "SegmentBitmap"
  | mappingTable => "MappingTable"
  | inodesTree => "InodesBtree"
  | snapshotsTree => "SnapshotsBtree"
  | invalidExtentsTree => "InvextBtree"
  | sharedDictionaryTree => "SharedDictBtree"

/-- The identifier of the structure as a member of a set. -/
def flagName : Structure → String
  | baseSnapshot => "BASE_SNAPSHOT"
  | superblock => "SUPERBLOCK"
  | segmentBitmap => "SEGBMAP"
  | mappingTable => "MAPTBL"
  | inodesTree => "INODES_BTREE"
  | snapshotsTree => "SNAPSHOTS_BTREE"
  | invalidExtentsTree => "INVEXT_BTREE"
  | sharedDictionaryTree => "SHARED_DICT_BTREE"

/-- The place of the structure in inspection order, and its bit in a set. -/
def index : Structure → Nat
  | baseSnapshot => 0
  | superblock => 1
  | segmentBitmap => 2
  | mappingTable => 3
  | inodesTree => 4
  | snapshotsTree => 5
  | invalidExtentsTree => 6
  | sharedDictionaryTree => 7

/-- Without this structure the volume cannot be mounted. -/
def isCritical : Structure → Bool
  | baseSnapshot | superblock | segmentBitmap | mappingTable => true
  | _ => false

/-- The root of a tree in a volume state, and the key it is signed with. -/
def treeRoot? (s : Structure) (state : VolumeState) : Option (TreeRoot × UInt16) :=
  match s with
  | inodesTree => some (state.inodesTree, Key.inodesTree)
  | snapshotsTree => some (state.snapshotsTree, Key.snapshotsTree)
  | invalidExtentsTree => some (state.invalidExtentsTree, Key.invalidExtentsTree)
  | sharedDictionaryTree => some (state.sharedDictionaryTree, Key.sharedDictionaryTree)
  | _ => none

theorem mem_all (s : Structure) : s ∈ all := by cases s <;> decide

end Structure

/-- A set of corrupted structures. -/
structure Damage where
  has : Structure → Bool

namespace Damage

def none : Damage := ⟨fun _ => false⟩

/-- One structure alone. -/
def ofStructure (s : Structure) : Damage := ⟨fun t => t == s⟩

/-- What either of the two holds. -/
def union (a b : Damage) : Damage := ⟨fun s => a.has s || b.has s⟩

/-- The set whose members are the bits of a number. -/
def ofBits (bits : Nat) : Damage := ⟨fun s => bits.testBit s.index⟩

/-- The members in inspection order. -/
def toList (d : Damage) : List Structure := Structure.all.filter d.has

/-- The number whose bits are the members. -/
def bits (d : Damage) : Nat := d.toList.foldr (fun s bits => bits ||| 1 <<< s.index) 0

def isEmpty (d : Damage) : Bool := d.toList.isEmpty

/-- How many critical structures are corrupted. -/
def criticalCount (d : Damage) : Nat := (d.toList.filter (·.isCritical)).length

/-- The identifiers of the members as one text. -/
def text (d : Damage) : String := " | ".intercalate (d.toList.map (·.flagName))

end Damage

end FlashVolume
