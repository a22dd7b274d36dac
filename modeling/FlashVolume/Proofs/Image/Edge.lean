/-
Devices on which logs lie at the edge. On one, pages are so small that the header of the first log lies on
another page than the log, and a partial log takes the last bytes of the device. Another one ends within the erase
block of an initial snapshot whose footer lies beyond. On the last two, the first header that is found lies at the
very start of the device, and 8 MiB into a much larger erase block.
-/
import FlashVolume.Detection.Report
import FlashVolume.Proofs.Image.Compact
import FlashVolume.Proofs.Outcome

namespace FlashVolume.EdgeVolume

open CompactVolume (sealed zeros)

/-! ## The devices -/

/-- Pages of half a kilobyte. -/
def geometry : Geometry := ⟨512, 4096, 4096, 1⟩

/-- The header of the first log of a volume, which takes two pages. -/
def opening : SegmentHeader := .fresh geometry .initialSnapshot 2 7

/-- The header of a partial log that wrote a page. -/
def ending : PartialHeader := .fresh geometry .initialSnapshot 2 512 7

def narrowBytes : List UInt8 := [zeros 1024, sealed opening, zeros 256, sealed ending].flatten

/-- The first log of a volume, and two pages behind its header a partial log that ends the device. -/
def narrow : Volume := ⟨.ofBytes ⟨narrowBytes.toArray⟩, geometry⟩

/-- The header of an initial snapshot with a footer further behind. -/
def snapshot : SegmentHeader :=
  let header := SegmentHeader.fresh geometry .initialSnapshot 8 7
  { header with areas := header.areas.setIfInBounds 8 (.ofRange 2048 768) }

def cutBytes : List UInt8 := [zeros 1024, sealed snapshot, zeros 256].flatten

theorem length_cutBytes : cutBytes.length = 2048 :=
  CompactVolume.length_segment_block snapshot (show 1024 ≤ 1280 by decide)

/-- An initial snapshot on a device that ends before its footer does. -/
def cut : Device := .ofBytes ⟨cutBytes.toArray⟩

def leadingBytes : List UInt8 := [sealed opening, zeros 1280].flatten

/-- A header where the boot record should be. -/
def leading : Volume := ⟨.ofBytes ⟨leadingBytes.toArray⟩, geometry⟩

/-- Erase blocks of 16 MiB. -/
def wideGeometry : Geometry := ⟨65536, 16777216, 16777216, 1⟩

def wideHeader : SegmentHeader := .fresh wideGeometry .userData 8 7

/-- A single header, 8 MiB into the device. -/
def wide : Handle := .sparse 8392704 [⟨8388608, ⟨(sealed wideHeader).toArray⟩⟩]

/-! ## What is found on them -/

/-- Which headers are read for a log: a segment header, a partial one, either of them. -/
def readers (v : Volume) (peb page : Nat) : Option (Bool × Bool × Bool) := do
  let segment ← (v.segmentHeader? peb page).toOption
  let partialLog ← (v.partialHeader? peb page).toOption
  let log ← (v.logHeader? peb page).toOption
  return (segment.isSome, partialLog.isSome, log.isSome)

theorem exists_readers {v : Volume} {peb page : Nat} {found : Bool × Bool × Bool}
    (h : readers v peb page = some found) :
    ∃ segment partialLog log, v.segmentHeader? peb page = .ok segment ∧ v.partialHeader? peb page = .ok partialLog ∧
      v.logHeader? peb page = .ok log ∧ (segment.isSome, partialLog.isSome, log.isSome) = found := by
  obtain ⟨segment, hsegment, h⟩ := Option.bind_eq_some_iff.1 h
  obtain ⟨partialLog, hpartial, h⟩ := Option.bind_eq_some_iff.1 h
  obtain ⟨log, hlog, h⟩ := Option.bind_eq_some_iff.1 h
  exact ⟨segment, partialLog, log, Outcome.toOption_eq_some.1 hsegment, Outcome.toOption_eq_some.1 hpartial,
    Outcome.toOption_eq_some.1 hlog, Option.some.inj h⟩

/-- The page that the walk over the full logs of the first erase block comes to, and whether the header there is
that of the first log. -/
def lastFull (v : Volume) : Option (Nat × Bool) := do
  let header ← (v.segmentHeader? 0 0).toOption.join
  let (page, last) ← (v.walkFull 0 0 header).toOption
  return (page, last = header)

theorem exists_lastFull {v : Volume} {page : Nat} (h : lastFull v = some (page, true)) :
    ∃ header, v.segmentHeader? 0 0 = .ok (some header) ∧ v.walkFull 0 0 header = .ok (page, header) := by
  obtain ⟨header, hheader, h⟩ := Option.bind_eq_some_iff.1 h
  obtain ⟨⟨page, last⟩, hwalk, h⟩ := Option.bind_eq_some_iff.1 h
  obtain ⟨rfl, hsame⟩ := Prod.mk.inj (Option.some.inj h)
  rw [Option.join_eq_some_iff, Outcome.toOption_eq_some] at hheader
  rw [Outcome.toOption_eq_some, of_decide_eq_true hsame] at hwalk
  exact ⟨header, hheader, hwalk⟩

/-- Options that ask for nothing. -/
def options : DetectOptions := ⟨false, 1, none, none, none⟩

/-- Why detection fails. -/
def failure (device : Device) : Option Fault :=
  match device.tryDetect options with
  | .error (.fault cause) => some cause
  | _ => none

theorem tryDetect_of_failure {device : Device} {cause : Fault} (h : failure device = some cause) :
    device.tryDetect options = .error (.fault cause) := by
  unfold failure at h
  split at h
  · cases h
    assumption
  · cases h

/-- Where the first header is found, and whether it declares this geometry. -/
def bootstrap (handle : Handle) (geometry : Geometry) : Option (Nat × Bool) :=
  (Bootstrap.find? handle options.scanEraseSize).toOption.join.map fun b =>
    (b.offset, b.header.volume.geometry? = some geometry)

theorem exists_bootstrap {handle : Handle} {geometry : Geometry} {offset : Nat}
    (h : bootstrap handle geometry = some (offset, true)) :
    ∃ b, Bootstrap.find? handle options.scanEraseSize = .ok (some b) ∧ b.offset = offset ∧
      b.header.volume.geometry? = some geometry := by
  obtain ⟨b, hfind, h⟩ := Option.map_eq_some_iff.1 h
  obtain ⟨hoffset, hdeclared⟩ := Prod.mk.inj h
  rw [Option.join_eq_some_iff, Outcome.toOption_eq_some] at hfind
  exact ⟨b, hfind, hoffset, of_decide_eq_true hdeclared⟩

-- One evaluation for all: separate ones would wait for one another.
set_option maxRecDepth 100000 in
theorem outcomes :
    (readers narrow 0 0 = some (true, false, true) ∧ readers narrow 0 4 = some (false, true, false)) ∧
      lastFull narrow = some (2, true) ∧ failure cut = some (.read 0 2048 (.pastEnd 2048 768 2048)) ∧
      bootstrap leading.handle geometry = some (0, true) ∧ bootstrap wide wideGeometry = some (8388608, true) := by
  unfold narrow cut leading Device.ofBytes
  rw [Handle.ofBytes_toArray, Handle.ofBytes_toArray, Handle.ofBytes_toArray]
  decide +kernel

end FlashVolume.EdgeVolume
