/-
Inspections. Each looks at one structure of the newest creation point and either accepts it or says
what is wrong with it, unless it fails for a reason that the report names. A structure is accepted only
if it was found where the volume's own pointers lead, with every instance it should have.
-/
import FlashVolume.Check.Structure
import FlashVolume.Detection.Report

namespace FlashVolume

/-- What is inspected: a volume and what detection found on it. -/
structure Subject where
  volume : Volume
  detection : Detection

namespace Subject

/-- A device with its detection; nothing to inspect if no geometry was established. -/
def of? (handle : Handle) (detection : Detection) : Option Subject :=
  detection.geometry.map fun geometry => ⟨⟨handle, geometry⟩, detection⟩

/-- The newest creation point. -/
def point? (s : Subject) : Option CreationPoint := s.detection.history.latest?

/-- The newest volume state. -/
def state? (s : Subject) : Option VolumeState := (s.point?.bind (·.footer?)).map (·.volume)

end Subject

/-! ## Outcomes -/

/-- Why inspecting or recovering a structure fails. -/
inductive CheckError
  | unsupported (what : String)
  | fault (cause : Fault)
  | detectionFailed (failure : String)
  | cannotOpen (path : String) (cause : ReadError)
deriving DecidableEq

/-- The text of a failure in a report. -/
def CheckError.message : CheckError → String
  | unsupported what => s!"recovery of the {what} is not supported"
  | fault cause => cause.message
  | detectionFailed failure => s!"detection failed: {failure}"
  | cannotOpen path _ => s!"cannot open {path}"

/-- Why an inspection comes to no verdict. -/
inductive InspectionStop
  | failure (cause : CheckError)
  | crash (cause : Crash)
deriving DecidableEq

/-- What stops an operation on the volume stops the inspection that needs it. -/
def InspectionStop.ofStop : Stop → InspectionStop
  | .fault cause => .failure (.fault cause)
  | .crash cause => .crash cause

/-- The result of an inspection that could complete. -/
inductive Verdict
  | sound
  | corrupted (problem : String)
deriving DecidableEq

/-- An inspection of one structure. -/
structure Inspector where
  target : Structure
  inspect : Subject → Except InspectionStop Verdict

namespace Inspector

/-! ## Initial snapshot -/

/-- The initial snapshot was found. -/
def baseSnapshot : Inspector where
  target := .baseSnapshot
  inspect subject :=
    .ok <|
      if subject.point?.any (·.found.baseSnapshot) then .sound
      else .corrupted "no initial snapshot segment"

/-! ## Superblock -/

/-- What is wrong with how a superblock was found, or the log to look at. -/
def superblockLog (point : CreationPoint) : Except String FoundLog :=
  match point.superblock.main, point.superblock.copy with
  | none, none =>
    let scanned := (point.bucket .superblock).length
    if scanned < 2 then .error s!"{scanned} superblock segment left on the volume"
    else .error "superblock segments are not reachable from the volume header"
  | none, some copy => .error s!"main superblock lost, only the copy in PEB {copy.peb} remains"
  | some main, none => .error s!"superblock in PEB {main.peb} has no copy"
  | some main, some _ =>
    if main.footer.isSome then .ok main
    else .error s!"superblock log in PEB {main.peb} has no valid footer"

/-- Both instances of the superblock are there, the log that counts has a footer and properly signed
area headers, and the mapping cache was read. -/
def superblockVerdict (subject : Subject) : Outcome Verdict := do
  let some point := subject.point?.filter (·.found.superblock)
    | return .corrupted "no superblock segment"
  match superblockLog point with
  | .error problem => return .corrupted problem
  | .ok log =>
    let bitmap ← subject.volume.blockBitmapHeader? log.peb log.page log.header
    if bitmap.any (!·.isValid) then
      return .corrupted s!"block bitmap of PEB {log.peb} has a bad signature"
    let table ← subject.volume.offsetsTableHeader? log.peb log.page log.header
    if table.any (!·.isValid) then
      return .corrupted s!"offsets table of PEB {log.peb} has a bad signature"
    if point.cache.isNone then return .corrupted "mapping table cache is missing"
    return .sound

/-- The superblock was found whole. -/
def superblock : Inspector where
  target := .superblock
  inspect subject := (superblockVerdict subject).mapError .ofStop

/-! ## Segment bitmap and mapping table -/

/-- The instance a pair should have and has not. -/
def missingInstance? (index : Nat) (pair : LogPair) (hasCopy : Bool) : Option String :=
  match pair.main, pair.copy with
  | none, none => some s!"PEB {index} has neither instance"
  | none, some copy => some s!"PEB {index} lost its main instance, copy in PEB {copy.peb}"
  | some main, none => if hasCopy then some s!"PEB {main.peb} has no copy" else none
  | some _, some _ => none

/-- The first instance that one of the pairs should have and has not. -/
def firstMissing? (pairs : List LogPair) (hasCopy : Bool) : Option String :=
  pairs.zipIdx.findSome? fun (pair, index) => missingInstance? index pair hasCopy

/-- Accept pairs of which no instance is missing. -/
def ofPairs (pairs : List LogPair) (hasCopy : Bool) : Verdict :=
  match firstMissing? pairs hasCopy with
  | some problem => .corrupted problem
  | none => .sound

/-- Every erase block of the segment bitmap was found, with its copy if there should be one. -/
def segmentBitmap : Inspector where
  target := .segmentBitmap
  inspect subject :=
    .ok <|
      match subject.point?.filter (·.found.segmentBitmap) with
      | none => .corrupted "segment bitmap not found"
      | some point =>
        ofPairs point.segmentBitmap (point.volumeHeader?.any (·.segmentBitmap.hasCopy))

/-- Every logical block of the mapping table was found, with its copy if there should be one. -/
def mappingTable : Inspector where
  target := .mappingTable
  inspect subject :=
    .ok <|
      match subject.point?.filter (·.found.mappingTable) with
      | none => .corrupted "mapping table not found"
      | some point =>
        ofPairs point.mappingTable (point.volumeHeader?.any (·.mappingTable.hasCopy))

/-! ## Trees -/

/-- The volume state records a properly signed root of the tree. -/
def treeRoot (target : Structure) : Inspector where
  target
  inspect subject :=
    .ok <|
      match subject.state? with
      | none => .corrupted "no volume state to read the root from"
      | some state =>
        match target.treeRoot? state with
        | some (root, key) =>
          if root.isValid key then .sound else .corrupted "root descriptor has a bad signature"
        | none => .corrupted "not a b-tree"

/-- The inspections of a full check, in the order they run. -/
def standard : List Inspector :=
  [baseSnapshot, superblock, segmentBitmap, mappingTable, treeRoot .inodesTree,
    treeRoot .snapshotsTree, treeRoot .invalidExtentsTree, treeRoot .sharedDictionaryTree]

end Inspector

end FlashVolume
