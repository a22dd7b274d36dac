/-
The physical geometry of a volume: pages, erase blocks and segments, and where a log lies. The very
first log of a volume sits behind the boot record, so its header is 1024 bytes into its erase block;
every other header is at the start of its page.
-/

namespace FlashVolume

/-- Sizes in bytes, and the erase blocks of a segment. -/
structure Geometry where
  pageSize : Nat
  eraseSize : Nat
  segmentSize : Nat
  pebsPerSegment : Nat
deriving DecidableEq

/-- Bytes kept for the boot record in front of the first log of the volume. -/
def bootRecordSize : Nat := 1024

/-- The place of the lowest bit set in a word of `limit` bits, `limit` if there is none. -/
def trailingZeros (n limit : Nat) : Nat :=
  ((List.range limit).find? n.testBit).getD limit

namespace Geometry

/-- The geometry with these binary logarithms, if a volume may have it: pages of 512 bytes to 64 KiB,
erase blocks up to 2 GiB and no smaller than a page, segments up to 1 TiB of whole erase blocks. -/
def ofLogs? (page erase segment pebs : Nat) : Option Geometry :=
  if 9 ≤ page ∧ page ≤ 16 ∧ page ≤ erase ∧ erase ≤ 31 ∧ erase ≤ segment ∧ segment ≤ 40 ∧
      pebs = segment - erase then
    some ⟨1 <<< page, 1 <<< erase, 1 <<< segment, 1 <<< pebs⟩
  else
    none

/-- The binary logarithms a header declares the geometry by: page, erase block, segment, erase blocks
of a segment. -/
def logs (g : Geometry) : Nat × Nat × Nat × Nat :=
  (trailingZeros g.pageSize 32, trailingZeros g.eraseSize 32, trailingZeros g.segmentSize 64,
    trailingZeros g.pebsPerSegment 32)

/-- Whole pages of an erase block. -/
def pagesPerPeb (g : Geometry) : Nat := g.eraseSize / g.pageSize

/-- Whole pages of an erase block, where a page has a size. -/
def pagesPerPeb? (g : Geometry) : Option Nat :=
  if g.pageSize = 0 then none else some g.pagesPerPeb

/-- Where the log at `page` of `peb` starts. -/
def logOffset (g : Geometry) (peb page : Nat) : Nat := peb * g.eraseSize + page * g.pageSize

/-- Where the header of the log at `page` of `peb` lies. -/
def headerOffset (g : Geometry) (peb page : Nat) : Nat :=
  if peb = 0 ∧ page = 0 then g.logOffset peb page + bootRecordSize else g.logOffset peb page

/-- Bytes from the start of `page` to the end of its erase block, none for a page beyond. -/
def logSpan (g : Geometry) (page : Nat) : Nat := g.eraseSize - page * g.pageSize

theorem ofLogs?_eq_some_iff {page erase segment pebs : Nat} {g : Geometry} :
    ofLogs? page erase segment pebs = some g ↔
      (9 ≤ page ∧ page ≤ 16 ∧ page ≤ erase ∧ erase ≤ 31 ∧ erase ≤ segment ∧ segment ≤ 40 ∧
        pebs = segment - erase) ∧ g = ⟨1 <<< page, 1 <<< erase, 1 <<< segment, 1 <<< pebs⟩ := by
  unfold ofLogs?
  split
  · rename_i h
    simp only [Option.some.injEq]
    exact ⟨fun e => ⟨h, e.symm⟩, fun e => e.2.symm⟩
  · rename_i h
    simp only [reduceCtorEq, false_iff]
    exact fun e => h e.1

end Geometry

end FlashVolume
