/-
Logs found on a volume: where the newest log of an erase block starts, the header that opens it, its
footer if it has one that holds up, and the segment header of the full log it belongs to.
-/
import FlashVolume.Duplex
import FlashVolume.Record.Footer
import FlashVolume.Record.LogHeader

namespace FlashVolume

/-- The most recent log of an erase block. -/
structure FoundLog where
  peb : Nat
  page : Nat
  header : LogHeader
  footer : Option LogFooter
  segment : SegmentHeader
deriving DecidableEq

/-- The main instance and the copy of a structure, as far as they were found. -/
abbrev LogPair := Duplex (Option FoundLog)

/-- Where a log lies and which checkpoint it carries. -/
structure LogLocation where
  peb : Nat
  page : Nat
  checkpoint : UInt64
  isPartial : Bool
deriving DecidableEq

namespace FoundLog

/-- When the volume this log was written for was created. -/
def createTime (log : FoundLog) : UInt64 := log.header.createTime

def checkpoint (log : FoundLog) : UInt64 := log.header.checkpoint

def location (log : FoundLog) : LogLocation :=
  ⟨log.peb, log.page, log.checkpoint, log.header.isPartial⟩

end FoundLog

/-- Neither instance found. -/
def LogPair.none : LogPair := Duplex.both Option.none

end FlashVolume
