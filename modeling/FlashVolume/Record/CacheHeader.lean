/-
The header of a mapping cache fragment: its place in the run of fragments, how many pairs it holds,
how many payload bytes follow it, and which logical blocks it covers.
-/
import FlashVolume.Record.VolumeHeader

namespace FlashVolume

/-- What precedes the payload of a cache fragment. -/
structure CacheHeader where
  signature : Signature
  sequenceId : UInt16
  flags : UInt16
  itemsCount : UInt16
  bytesCount : UInt16
  startLeb : UInt64
  endLeb : UInt64
deriving DecidableEq

namespace CacheHeader

def format : Format CacheHeader :=
  (Format.pair Signature.format <| .pair .u16 <| .pair .u16 <| .pair .u16 <| .pair .u16 <|
    .pair .u64 .u64).map
    (fun (a, b, c, d, e, f, g) => ⟨a, b, c, d, e, f, g⟩)
    (fun h => (h.signature, h.sequenceId, h.flags, h.itemsCount, h.bytesCount, h.startLeb, h.endLeb))

theorem exact_format : format.Exact :=
  have w := Format.exact_u16
  (Signature.exact_format.pair <| w.pair <| w.pair <| w.pair <| w.pair <|
    Format.exact_u64.pair Format.exact_u64).map (fun _ => rfl) (fun _ => rfl)

theorem size_format : format.size = 32 := by decide

def fresh (sequenceId flags itemsCount bytesCount : UInt16) (startLeb endLeb : UInt64) :
    CacheHeader :=
  ⟨.ofKey Key.mappingCache, sequenceId, flags, itemsCount, bytesCount, startLeb, endLeb⟩

def isValid (h : CacheHeader) : Bool := h.signature.isValid Key.mappingCache

/-- Bytes the payload decodes to: 16 for each pair. -/
def decodedSize (h : CacheHeader) : Nat := h.itemsCount.toNat * LebPeb.format.size

def isZlib (h : CacheHeader) : Bool := h.flags &&& 1 != 0

def isLzo (h : CacheHeader) : Bool := h.flags &&& 2 != 0

end CacheHeader

end FlashVolume
