/-
What detection found, as JSON documents: the summary that a report carries, and the full account of a
creation point with every log it rests on.
-/
import FlashVolume.Detection.Report
import FlashVolume.Text.Json

namespace FlashVolume

open Text (Json)

/-! ## Summaries -/

def Geometry.toJson (g : Geometry) : Json :=
  .object [("page_size", .number g.pageSize), ("erase_size", .number g.eraseSize),
    ("seg_size", .number g.segmentSize), ("pebs_per_seg", .number g.pebsPerSegment)]

def LogLocation.toJson (l : LogLocation) : Json :=
  .object [("peb_id", .number l.peb), ("page", .number l.page), ("cno", .number l.checkpoint.toNat),
    ("partial", .bool l.isPartial)]

def PointSummary.toJson (p : PointSummary) : Json :=
  .object [("timestamp", .number p.createTime.toNat),
    ("found", .string p.found.text),
    ("geometry", .ofOption Geometry.toJson p.geometry),
    ("uuid", .ofOption .string p.uuid),
    ("label", .ofOption .string p.label),
    ("base_snapshot", .ofOption LogLocation.toJson p.baseSnapshot),
    ("superblock", .list (p.superblock.map LogLocation.toJson)),
    ("maptbl_cache_items", .ofOption .number p.cachedItems),
    ("segbmap", .list (p.segmentBitmap.map LogLocation.toJson)),
    ("maptbl", .list (p.mappingTable.map LogLocation.toJson)),
    ("scanned", .object (p.scanned.map fun (kind, count) => (kind.name, .number count)))]

def DetectionSummary.toJson (d : DetectionSummary) : Json :=
  .object [("state", .string d.state.name),
    ("geometry", .ofOption Geometry.toJson d.geometry),
    ("failure", .ofOption .string d.failure),
    ("creation_points", .list (d.points.map PointSummary.toJson))]

/-! ## Logs -/

/-- Offset and size of an area. -/
def AreaDescriptor.toJson (d : AreaDescriptor) : Json :=
  .list [.number d.offset.toNat, .number d.size.toNat]

/-- A header with one entry for each area, and one more for the areas there are no descriptors of. -/
def LogHeader.toJson (h : LogHeader) : Json :=
  .object [("partial", .bool h.isPartial),
    ("log_pages", .number h.logPages.toNat),
    ("seg_type", .ofOption (.string ·.name) h.kind?),
    ("timestamp", .number h.timestamp.toNat),
    ("cno", .number h.checkpoint.toNat),
    ("flags", .number h.flags.toNat),
    ("create_time", .number h.createTime.toNat),
    ("areas_end", .number h.areas.stop),
    ("areas", .list ((List.range 10).map fun i =>
      .ofOption AreaDescriptor.toJson (h.areas.present? i)))]

/-- What a volume state says in words, and which of its trees have a properly signed root. -/
def VolumeState.toJson (v : VolumeState) : Json :=
  .object [("uuid", .string v.uuidText),
    ("label", .string v.labelText),
    ("mounted", .bool v.isMounted),
    ("has_errors", .bool v.hasErrors),
    ("btrees", .list [
      .bool (v.inodesTree.isValid Key.inodesTree),
      .bool (v.sharedExtentsTree.isValid Key.sharedExtentsTree),
      .bool (v.sharedDictionaryTree.isValid Key.sharedDictionaryTree),
      .bool (v.snapshotsTree.isValid Key.snapshotsTree),
      .bool (v.invalidExtentsTree.isValid Key.invalidExtentsTree)])]

def LogFooter.toJson (f : LogFooter) : Json :=
  .object [("cno", .number f.checkpoint.toNat), ("log_bytes", .number f.logBytes.toNat),
    ("view", f.volume.toJson)]

def FoundLog.toJson (l : FoundLog) : Json :=
  .object [("peb_id", .number l.peb),
    ("start_page", .number l.page),
    ("cno", .number l.checkpoint.toNat),
    ("create_time", .number l.createTime.toNat),
    ("header", l.header.toJson),
    ("location", l.location.toJson),
    ("footer", .ofOption LogFooter.toJson l.footer),
    ("segment", .object [("cno", .number l.segment.checkpoint.toNat),
      ("log_pages", .number l.segment.logPages.toNat),
      ("timestamp", .number l.segment.timestamp.toNat)])]

/-- Where both instances are, and the erase block of the one that counts. -/
def LogPair.toJson (p : LogPair) : Json :=
  .object [("main", .ofOption (·.location.toJson) p.main),
    ("copy", .ofOption (·.location.toJson) p.copy),
    ("found", .bool p.isPresent),
    ("latest", .ofOption (.number ·.peb) p.preferred),
    ("count", .number p.toList.length)]

/-! ## Mapping cache -/

/-- The physical blocks of some logical ones. -/
def MappingCache.answers (lookups : List UInt64) (peb? : UInt64 → Option Nat) : Json :=
  .list (lookups.map fun leb => .ofOption .number (peb? leb))

/-- The cache, and what its fragments and the whole of it answer for some logical blocks. -/
def MappingCache.toJson (c : MappingCache) (lookups : List UInt64) : Json :=
  .object [("empty", .bool c.isEmpty),
    ("items_count", .number c.itemsCount),
    ("fragments", .list (c.fragments.map fun f =>
      .object [("sequence_id", .number f.sequenceId.toNat),
        ("start_leb", .number f.start.toNat),
        ("end_leb", .number f.stop.toNat),
        ("items_count", .number f.pairs.length),
        ("lookups", answers lookups f.peb?)])),
    ("lookups", answers lookups c.peb?)]

/-! ## Creation points -/

def ScannedSegment.toJson (s : ScannedSegment) : Json :=
  .object [("seg_id", .number s.segmentId.toNat),
    ("leb_id", .number s.lebId.toNat),
    ("peb_id", .number s.peb),
    ("seg_type", .string s.kind.name),
    ("peb_create_time", .number s.pebCreateTime.toNat),
    ("volume_create_time", .number s.volumeCreateTime.toNat)]

/-- The scanned segments by kind. -/
def CreationPoint.scannedJson (p : CreationPoint) : Json :=
  .object (p.buckets.map fun (kind, items) => (kind.name, .list (items.map ScannedSegment.toJson)))

def CreationPoint.toJson (p : CreationPoint) : Json :=
  .object [("summary", p.summary.toJson),
    ("base_snapshot", .ofOption FoundLog.toJson p.baseSnapshot),
    ("superblock", .list [.ofOption FoundLog.toJson p.superblock.main,
      .ofOption FoundLog.toJson p.superblock.copy]),
    ("latest_superblock", .ofOption (.number ·.peb) p.latestSuperblock?),
    ("cache", .ofOption (·.toJson []) p.cache),
    ("segbmap", .list (p.segmentBitmap.map LogPair.toJson)),
    ("maptbl", .list (p.mappingTable.map LogPair.toJson)),
    ("map", p.scannedJson)]

end FlashVolume
