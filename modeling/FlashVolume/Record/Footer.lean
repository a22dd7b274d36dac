/-
Log footers. A footer closes a log, says how many bytes the log wrote, and carries the state of the
volume at that moment: its identity, whether it is mounted, and the roots of its trees.
-/
import FlashVolume.Record.Seal
import FlashVolume.Text.Hex
import FlashVolume.Text.Utf8

namespace FlashVolume

/-- The root descriptor of a tree. -/
structure TreeRoot where
  signature : Signature
  flags : UInt16
  kind : UInt8
  logNodeSize : UInt8
  pagesPerNode : UInt8
  nodePointerSize : UInt8
  indexSize : UInt16
  itemSize : UInt16
  indexAreaMinSize : UInt16
  rootNodeId : UInt32
  reserved : Vector UInt8 8
deriving DecidableEq

namespace TreeRoot

def format : Format TreeRoot :=
  (Format.pair Signature.format <| .pair .u16 <| .pair .u8 <| .pair .u8 <| .pair .u8 <| .pair .u8 <|
    .pair .u16 <| .pair .u16 <| .pair .u16 <| .pair .u32 (.bytes 8)).map
    (fun (a, b, c, d, e, f, g, h, i, j, k) => ⟨a, b, c, d, e, f, g, h, i, j, k⟩)
    (fun t => (t.signature, t.flags, t.kind, t.logNodeSize, t.pagesPerNode, t.nodePointerSize,
      t.indexSize, t.itemSize, t.indexAreaMinSize, t.rootNodeId, t.reserved))

theorem exact_format : format.Exact :=
  have b := Format.exact_u8
  have w := Format.exact_u16
  (Signature.exact_format.pair <| w.pair <| b.pair <| b.pair <| b.pair <| b.pair <| w.pair <|
    w.pair <| w.pair <| Format.exact_u32.pair (Format.exact_bytes 8)).map
    (fun _ => rfl) (fun _ => rfl)

/-- A root signed with `key` for nodes of `2 ^ logNodeSize` bytes. -/
def fresh (key : UInt16) (logNodeSize : UInt8) : TreeRoot :=
  ⟨.ofKey key, 0, 0, logNodeSize, 0, 0, 0, 0, 0, 0, Vector.replicate 8 0⟩

def isValid (root : TreeRoot) (key : UInt16) : Bool := root.signature.isValid key

end TreeRoot

/-! ## State of a volume -/

namespace MountState

def mounted : UInt16 := 0
def unmounted : UInt16 := 1
def failed : UInt16 := 2

end MountState

/-- The volume as its last log left it. -/
structure VolumeState where
  signature : Signature
  check : Check
  segmentsCount : UInt64
  freePages : UInt64
  timestamp : UInt64
  checkpoint : UInt64
  flags : UInt32
  state : UInt16
  errors : UInt16
  featuresCompatible : UInt64
  featuresReadOnly : UInt64
  featuresIncompatible : UInt64
  uuid : Vector UInt8 16
  label : Vector UInt8 16
  currentSegments : Vector UInt64 6
  migrationThreshold : UInt16
  reserved1 : UInt16
  openZones : UInt32
  inodesTree : TreeRoot
  sharedExtentsTree : TreeRoot
  sharedDictionaryTree : TreeRoot
  snapshotsTree : TreeRoot
  invalidExtentsTree : TreeRoot
  reserved : Vector UInt8 184
deriving DecidableEq

namespace VolumeState

def format : Format VolumeState :=
  (Format.pair Signature.format <| .pair Check.format <| .pair .u64 <| .pair .u64 <| .pair .u64 <|
    .pair .u64 <| .pair .u32 <| .pair .u16 <| .pair .u16 <| .pair .u64 <| .pair .u64 <| .pair .u64 <|
    .pair (.bytes 16) <| .pair (.bytes 16) <| .pair (Format.u64.vector 6) <| .pair .u16 <|
    .pair .u16 <| .pair .u32 <| .pair TreeRoot.format <| .pair TreeRoot.format <|
    .pair TreeRoot.format <| .pair TreeRoot.format <| .pair TreeRoot.format (.bytes 184)).map
    (fun (a, b, c, d, e, f, g, h, i, j, k, l, m, n, o, p, q, r, s, t, u, v, w, x) =>
      ⟨a, b, c, d, e, f, g, h, i, j, k, l, m, n, o, p, q, r, s, t, u, v, w, x⟩)
    (fun v => (v.signature, v.check, v.segmentsCount, v.freePages, v.timestamp, v.checkpoint, v.flags,
      v.state, v.errors, v.featuresCompatible, v.featuresReadOnly, v.featuresIncompatible, v.uuid,
      v.label, v.currentSegments, v.migrationThreshold, v.reserved1, v.openZones, v.inodesTree,
      v.sharedExtentsTree, v.sharedDictionaryTree, v.snapshotsTree, v.invalidExtentsTree, v.reserved))

theorem exact_format : format.Exact :=
  have w := Format.exact_u16
  have d := Format.exact_u32
  have q := Format.exact_u64
  have t := TreeRoot.exact_format
  (Signature.exact_format.pair <| Check.exact_format.pair <| q.pair <| q.pair <| q.pair <| q.pair <|
    d.pair <| w.pair <| w.pair <| q.pair <| q.pair <| q.pair <| (Format.exact_bytes 16).pair <|
    (Format.exact_bytes 16).pair <| (q.vector 6).pair <| w.pair <| w.pair <| d.pair <| t.pair <|
    t.pair <| t.pair <| t.pair <| t.pair (Format.exact_bytes 184)).map (fun _ => rfl) (fun _ => rfl)

/-- The identity of the volume as text. -/
def uuidText (v : VolumeState) : String := Text.Hex.uuid v.uuid.toList

/-- The label without the NUL characters that fill it up. -/
def labelText (v : VolumeState) : String :=
  let chars := Text.Utf8.decodeFrom none v.label.toList
  String.ofList (chars.reverse.dropWhile (· == Char.ofNat 0)).reverse

/-- The volume was not unmounted cleanly. -/
def isMounted (v : VolumeState) : Bool := v.state == MountState.mounted

def hasErrors (v : VolumeState) : Bool := v.state == MountState.failed

end VolumeState

/-! ## The footer -/

/-- What closes a log; `logBytes` is what the log wrote. -/
structure LogFooter where
  volume : VolumeState
  timestamp : UInt64
  checkpoint : UInt64
  logBytes : UInt32
  flags : UInt32
  pebCreateTime : UInt64
  reserved : Vector UInt8 224
deriving DecidableEq

namespace LogFooter

def format : Format LogFooter :=
  (Format.pair VolumeState.format <| .pair .u64 <| .pair .u64 <| .pair .u32 <| .pair .u32 <|
    .pair .u64 (.bytes 224)).map
    (fun (a, b, c, d, e, f, g) => ⟨a, b, c, d, e, f, g⟩)
    (fun f => (f.volume, f.timestamp, f.checkpoint, f.logBytes, f.flags, f.pebCreateTime,
      f.reserved))

theorem exact_format : format.Exact :=
  have d := Format.exact_u32
  have q := Format.exact_u64
  (VolumeState.exact_format.pair <| q.pair <| q.pair <| d.pair <| d.pair <| q.pair
    (Format.exact_bytes 224)).map (fun _ => rfl) (fun _ => rfl)

theorem size_format : format.size = 768 := by decide

instance : Sealed LogFooter where
  title := "log footer"
  key := Key.footer
  format := format
  signature f := f.volume.signature
  check f := f.volume.check
  withCheck f check := { f with volume := { f.volume with check } }

/-- The footer of a cleanly unmounted volume whose trees have nodes of 8 KiB. -/
def fresh (logBytes : UInt32) (timestamp : UInt64) : LogFooter where
  volume :=
    { signature := .ofKey Key.footer
      check := default
      segmentsCount := 0
      freePages := 0
      timestamp
      checkpoint := 0
      flags := 0
      state := MountState.unmounted
      errors := 0
      featuresCompatible := 0
      featuresReadOnly := 0
      featuresIncompatible := 0
      uuid := Vector.replicate 16 0
      label := Vector.replicate 16 0
      currentSegments := Vector.replicate 6 0
      migrationThreshold := 0
      reserved1 := 0
      openZones := 0
      inodesTree := .fresh Key.inodesTree 13
      sharedExtentsTree := .fresh Key.sharedExtentsTree 13
      sharedDictionaryTree := .fresh Key.sharedDictionaryTree 13
      snapshotsTree := .fresh Key.snapshotsTree 13
      invalidExtentsTree := .fresh Key.invalidExtentsTree 13
      reserved := Vector.replicate 184 0 }
  timestamp
  checkpoint := 0
  logBytes
  flags := 0
  pebCreateTime := timestamp
  reserved := Vector.replicate 224 0

end LogFooter

end FlashVolume
