/-
What the command prints and how it exits: 0 for a volume that can be mounted as it is, 1 for a damaged
one and for one that cannot be checked, 2 for arguments that make no sense, 101 for a crash.
-/
import FlashVolume.Check.Json
import FlashVolume.CommandLine.Arguments
import FlashVolume.Recovery

namespace FlashVolume.CommandLine

/-- The text on standard output and the exit code. -/
structure Output where
  stdout : String
  code : Nat
deriving DecidableEq

/-- Every line followed by a line break. -/
def lines (texts : List String) : String := String.join (texts.map (· ++ "\n"))

/-- The name and version of the command. -/
def versionText : String := lines ["fsck.ssdfs 0.1.0"]

def helpText : String := lines
  ["Check an SSDFS volume",
    "",
    "Usage: fsck.ssdfs [OPTIONS] <DEVICE>",
    "",
    "Arguments:",
    "  <DEVICE>  Device or volume image to check",
    "",
    "Options:",
    "  -B, --page-size <PAGE_SIZE>    Page size in bytes, overriding the volume header",
    "  -e, --erase-size <ERASE_SIZE>  Erase block size in bytes",
    "  -s, --seg-size <SEG_SIZE>      Segment size in bytes",
    "  -f, --force                    Scan every erase block even when the volume pointers lead " ++
      "everywhere",
    "  -j, --threads <THREADS>        Worker threads for the full scan",
    "  -n, --no-change                Open the device read-only and never repair",
    "  -p, --auto-repair              Repair automatically",
    "  -y, --yes                      Answer yes to every repair",
    "  -v, --verbose                  ",
    "      --json                     Print the report as JSON",
    "  -h, --help                     Print help",
    "  -V, --version                  Print version"]

/-- A report for people: the state, what the newest volume is called, and what is wrong. -/
def reportText (device : String) (report : CheckReport) : String :=
  let point := report.detection.points.getLast?
  let uuid := (point.bind (·.uuid)).map fun uuid => s!"  uuid:  {uuid}"
  let label := (point.bind (·.label)).map fun label => s!"  label: {label}"
  let mounted := if report.mounted then ["  volume was not unmounted cleanly"] else []
  let findings := report.findings.map fun f => s!"  {f.target.name}: {f.problem}"
  lines ([s!"{device}: {report.state.text}"] ++ uuid.toList ++ label.toList ++ mounted ++ findings)

/-- What was recovered. -/
def recoveryText (fixes : List Fix) : String :=
  lines (fixes.flatMap fun fix => [fix.explanation, s!"  {fix.summary}"])

/-- Check an open device, and recover it if that is asked for. -/
def checkDevice (device : Device) (name : String) (config : Config) : Output :=
  match device.check config.detectOptions with
  | .error _ => ⟨"", 101⟩
  | .ok (detection, report) =>
    let text := if config.json then lines [report.toJson.pretty] else reportText name report
    -- A failed check is never followed by a recovery.
    if report.failure.isSome then ⟨text, 1⟩
    else if report.state.isClean then ⟨text, 0⟩
    else if config.wantsRepair then
      match (report.recover device.handle detection RecoveryAction.standard config.noChange :
          ExceptT RecoveryError Id (List Fix)).run with
      | .error _ => ⟨text, 1⟩
      | .ok fixes => ⟨text ++ recoveryText fixes, 1⟩
    else ⟨text, 1⟩

/-- Run the command where `open?` tells which device a name stands for. -/
def run (open? : String → Except ReadError Device) (arguments : List String) : Output :=
  match parse? arguments with
  | none => ⟨"", 2⟩
  | some .version => ⟨versionText, 0⟩
  | some .help => ⟨helpText, 0⟩
  | some (.check name config) =>
    match open? name with
    | .error _ => ⟨"", 1⟩
    | .ok device => checkDevice device name config

end FlashVolume.CommandLine
