/-
The kinds of segments. A header declares its kind by a 16-bit tag; tags above the last kind name
nothing. Four kinds hold the metadata a volume is mounted from.
-/

namespace FlashVolume

/-- What a segment holds. -/
inductive SegmentKind
  | unknown
  | superblock
  | initialSnapshot
  | segmentBitmap
  | mappingTable
  | leafNode
  | hybridNode
  | indexNode
  | userData
deriving DecidableEq, Repr

namespace SegmentKind

/-- All kinds in the order of their tags. -/
def all : List SegmentKind :=
  [unknown, superblock, initialSnapshot, segmentBitmap, mappingTable, leafNode, hybridNode, indexNode,
    userData]

/-- The tag a header declares the kind by. -/
def tag : SegmentKind → UInt16
  | unknown => 0
  | superblock => 1
  | initialSnapshot => 2
  | segmentBitmap => 3
  | mappingTable => 4
  | leafNode => 5
  | hybridNode => 6
  | indexNode => 7
  | userData => 8

/-- The kind with this tag. -/
def ofTag? (tag : UInt16) : Option SegmentKind := all.find? (·.tag == tag)

/-- The metadata kinds a volume is mounted from. -/
def isMetadata : SegmentKind → Bool
  | superblock | initialSnapshot | segmentBitmap | mappingTable => true
  | _ => false

/-- The identifier of the kind in reports. -/
def name : SegmentKind → String
  | unknown => "Unknown"
  | superblock => "Superblock"
  | initialSnapshot => "InitialSnapshot"
  | segmentBitmap => "SegmentBitmap"
  | mappingTable => "MappingTable"
  | leafNode => "LeafNode"
  | hybridNode => "HybridNode"
  | indexNode => "IndexNode"
  | userData => "UserData"

/-- The kind in running text. -/
def text : SegmentKind → String
  | unknown => "unknown"
  | superblock => "superblock"
  | initialSnapshot => "initial snapshot"
  | segmentBitmap => "segment bitmap"
  | mappingTable => "mapping table"
  | leafNode => "leaf node"
  | hybridNode => "hybrid node"
  | indexNode => "index node"
  | userData => "user data"

theorem ofTag?_tag (kind : SegmentKind) : ofTag? kind.tag = some kind := by
  cases kind <;> decide

theorem tag_of_ofTag? {tag : UInt16} {kind : SegmentKind} (h : ofTag? tag = some kind) :
    kind.tag = tag := by
  simpa using List.find?_some h

end SegmentKind

end FlashVolume
