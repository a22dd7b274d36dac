/-
Walking the logs of an erase block. Full logs follow one another, each as long as its header says;
the last of them may go on in partial logs, each of which says how many bytes it wrote. The walk hops
over the full logs and then over the partial logs of the last one, and returns the newest log.
-/
import FlashVolume.Log
import FlashVolume.Volume.Record

namespace FlashVolume

namespace Volume

/-- The size of a full log in pages: not zero, not all ones, and no more than an erase block has. -/
def validLogPages (logPages : UInt16) (pagesPerPeb : Nat) : Except Fault Nat :=
  if logPages = 0 ∨ logPages = 0xFFFF ∨ pagesPerPeb < logPages.toNat then
    .error (.logSize logPages.toNat pagesPerPeb)
  else
    .ok logPages.toNat

theorem pos_of_validLogPages {logPages : UInt16} {pagesPerPeb pages : Nat}
    (h : validLogPages logPages pagesPerPeb = .ok pages) : 0 < pages := by
  unfold validLogPages at h
  split at h
  · cases h
  · rename_i hn
    cases h
    have : logPages.toNat ≠ 0 := fun e => hn (.inl (UInt16.toNat_inj.1 e))
    omega

/-! ## Full logs -/

/-- A header continues the segment of another one: same volume, same kind. -/
def continues (header current : SegmentHeader) : Bool :=
  header.createTime == current.createTime && header.kindTag == current.kindTag

/-- The last of the full logs that begin with `current` at `page`, in an erase block of
`pagesPerPeb` pages. -/
def walkFullFrom (v : Volume) (pagesPerPeb peb page : Nat) (current : SegmentHeader) :
    Outcome (Nat × SegmentHeader) :=
  match _hp : validLogPages current.logPages pagesPerPeb with
  | .error cause => .error (.fault cause)
  | .ok pages =>
    match _hn : word32 (page + pages) with
    | .error stop => .error stop
    | .ok next =>
      if next < pagesPerPeb then
        match v.segmentHeader? peb next with
        | .error stop => .error stop
        | .ok none => .ok (page, current)
        | .ok (some header) =>
          if continues header current then walkFullFrom v pagesPerPeb peb next header
          else .ok (page, current)
      else
        .ok (page, current)
termination_by pagesPerPeb - page
decreasing_by
  have := pos_of_validLogPages _hp
  have := (word32_eq_ok.1 _hn).2
  omega

/-- The last of the full logs that begin with `first` at `page`. -/
def walkFull (v : Volume) (peb page : Nat) (first : SegmentHeader) :
    Outcome (Nat × SegmentHeader) :=
  match v.pagesPerPeb with
  | .error stop => .error stop
  | .ok pagesPerPeb => v.walkFullFrom pagesPerPeb peb page first

/-! ## Partial logs -/

/-- Bytes of the log a segment header opens: its footer knows, else its areas tell. -/
def segmentLogBytes (segment : SegmentHeader) (footer : Option LogFooter) : Nat :=
  match footer with
  | some footer => footer.logBytes.toNat
  | none => segment.areas.stop

/-- The page at which a partial log may follow a log of `logBytes` bytes at `page`. -/
def pageAfter (v : Volume) (page logBytes : Nat) : Nat :=
  page + max 1 (logBytes / v.geometry.pageSize)

/-- The footer of a partial log, which has one only if its header says so. -/
def partialFooter? (v : Volume) (peb page : Nat) (header : PartialHeader) :
    Outcome (Option LogFooter) :=
  if header.hasFlag LogFlag.hasFooter then v.footerOf? peb page (.ofPartial header) else .ok none

/-- Bytes used of the full log at page `start` once its log at `page` has written `logBytes` bytes. -/
def consumed (v : Volume) (start page logBytes : Nat) : Outcome Nat :=
  if page < start then .error (.crash .overflow)
  else word64 ((page - start) * v.geometry.pageSize + logBytes)

/-- The last of the partial logs behind `log`, which wrote `logBytes` bytes. The full log starts at
page `start`, spans `fullBytes` bytes and ends before page `upper`. -/
def walkPartialFrom (v : Volume) (start upper fullBytes : Nat) (log : FoundLog) (logBytes : Nat) :
    Outcome FoundLog :=
  match v.consumed start log.page logBytes with
  | .error stop => .error stop
  | .ok used =>
    let next := v.pageAfter log.page logBytes
    -- There is another log only while the full one is not used up.
    if _hn : used < fullBytes ∧ next < upper then
      match v.partialHeader? log.peb next with
      | .error stop => .error stop
      | .ok none => .ok log
      | .ok (some header) =>
        if header.createTime = log.segment.createTime then
          match v.partialFooter? log.peb next header with
          | .error stop => .error stop
          | .ok footer =>
            walkPartialFrom v start upper fullBytes
              { log with page := next, header := .ofPartial header, footer }
              header.logBytes.toNat
        else
          .ok log
    else
      .ok log
termination_by upper - log.page
decreasing_by
  have : log.page < next := by simp only [next, pageAfter]; omega
  omega

/-- The newest log of the full log that `segment` opens at `page`. -/
def walkPartial (v : Volume) (peb page : Nat) (segment : SegmentHeader) : Outcome FoundLog :=
  match v.pagesPerPeb with
  | .error stop => .error stop
  | .ok pagesPerPeb =>
    match validLogPages segment.logPages pagesPerPeb with
    | .error cause => .error (.fault cause)
    | .ok pages =>
      match word32 (page + pages) with
      | .error stop => .error stop
      | .ok stop =>
        match v.footerOf? peb page (.ofSegment segment) with
        | .error stop => .error stop
        | .ok footer =>
          v.walkPartialFrom page (min stop pagesPerPeb) (pages * v.geometry.pageSize)
            ⟨peb, page, .ofSegment segment, footer, segment⟩ (segmentLogBytes segment footer)

/-- The newest log of an erase block, starting from the full log `first` opens at `page`. -/
def walk (v : Volume) (peb page : Nat) (first : SegmentHeader) : Outcome FoundLog :=
  match v.walkFull peb page first with
  | .error stop => .error stop
  | .ok (page, segment) => v.walkPartial peb page segment

end Volume

end FlashVolume
