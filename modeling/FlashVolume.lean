import FlashVolume.Main
import FlashVolume.Image.Sample
import FlashVolume.Proofs.Check.Destroyed
import FlashVolume.Proofs.Check.Missed
import FlashVolume.Proofs.Degraded.Check
import FlashVolume.Proofs.Detection.Forced
import FlashVolume.Proofs.MappingCache.Layout
import FlashVolume.Proofs.Crc32
import FlashVolume.Proofs.Record.Inverse
import FlashVolume.Proofs.MappingCache.Untrusted
import FlashVolume.Proofs.Record.Seal
import FlashVolume.Proofs.Record.Trust
import FlashVolume.Proofs.Recovery.Standard
import FlashVolume.Proofs.Log.Adjoining
import FlashVolume.Proofs.Log.Segment
import FlashVolume.Proofs.Log.Checkpoints
import FlashVolume.Proofs.Trail.Pointers
import FlashVolume.Proofs.Bootstrap
import FlashVolume.Proofs.Detection.Truncated
import FlashVolume.Proofs.Log.Apart
import FlashVolume.Proofs.Volume.Headers
import FlashVolume.Proofs.Volume.Areas
import FlashVolume.Proofs.History.Merge
import FlashVolume.Proofs.Bootstrap.Probes
import FlashVolume.Proofs.MappingCache.Payload
import FlashVolume.Proofs.MappingCache.Lookup
import FlashVolume.Proofs.Geometry.Resolution
import FlashVolume.Proofs.Image.Puts
