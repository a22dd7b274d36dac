/-
Check reports as JSON documents.
-/
import FlashVolume.Check.Report
import FlashVolume.Detection.Json

namespace FlashVolume

open Text (Json)

def Finding.toJson (f : Finding) : Json :=
  .object [("structure", .string f.target.identifier), ("problem", .string f.problem)]

def CheckReport.toJson (r : CheckReport) : Json :=
  .object [("state", .string r.state.name),
    ("corruptions", .string r.damage.text),
    ("findings", .list (r.findings.map Finding.toJson)),
    ("failure", .ofOption .string r.failure),
    ("mounted", .bool r.mounted),
    ("detection", r.detection.toJson)]

end FlashVolume
