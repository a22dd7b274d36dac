/-
Devices with something left over. On one, a compact volume is followed by an erase block that a newer
superblock opens; on another, a newer user data segment lies over the first erase block of the volume; and
on a third, a single superblock opens an erase block that no probe for a bootstrap header reaches.
-/
import FlashVolume.Proofs.Detection.Sighting
import FlashVolume.Proofs.Geometry

namespace FlashVolume.CompactVolume

/-! ## The devices -/

/-- The header of a segment of a newer volume. -/
def newer (kind : SegmentKind) : SegmentHeader := .fresh geometry kind 4 8

/-- An erase block that a newer segment opens, `boot` bytes behind its start. -/
def newerBlock (kind : SegmentKind) (boot : Nat) : List UInt8 :=
  [zeros boot, sealed (newer kind), zeros (1280 - boot)].flatten

/-- A whole volume, and a newer superblock segment behind it. -/
def followedBlocks : List (List UInt8) := whole.blocks ++ [newerBlock .superblock 0]

/-- A whole volume whose first erase block a newer user data segment took. -/
def overwrittenBlocks : List (List UInt8) := newerBlock .userData 1024 :: whole.blocks.tail

/-- Two erased blocks, and a superblock segment behind them. -/
def unprobedBlocks : List (List UInt8) := [zeros 2048, zeros 2048, newerBlock .superblock 0]

def followed : Device := .ofBytes ⟨followedBlocks.flatten.toArray⟩

def overwritten : Device := .ofBytes ⟨overwrittenBlocks.flatten.toArray⟩

def unprobed : Device := .ofBytes ⟨unprobedBlocks.flatten.toArray⟩

theorem readable_ofBytes (bytes : ByteArray) (offset length : Nat) (h : offset + length ≤ bytes.size) :
    ∃ read, (Handle.ofBytes bytes).read offset length = .ok read :=
  ⟨_, if_pos h⟩

theorem length_of_mem_followedBlocks : ∀ block ∈ followedBlocks, block.length = 2048 := by
  intro block hblock
  rcases List.mem_append.1 hblock with h | h
  · exact length_of_mem_blocks _ block h
  · rw [List.mem_singleton.1 h]
    exact length_segment_block _ (by decide)

theorem length_of_mem_overwrittenBlocks : ∀ block ∈ overwrittenBlocks, block.length = 2048 := by
  intro block hblock
  rcases List.mem_cons.1 hblock with rfl | h
  · exact length_segment_block _ (by decide)
  · exact length_of_mem_blocks _ block (List.mem_of_mem_tail h)

theorem length_of_mem_unprobedBlocks : ∀ block ∈ unprobedBlocks, block.length = 2048 := by
  simp only [unprobedBlocks, List.forall_mem_cons, zeros, List.length_replicate, true_and]
  exact ⟨length_segment_block _ (by decide), List.forall_mem_nil _⟩

theorem followed_eq : followed = .ofHandle (.ofBlocks 2048 followedBlocks) :=
  Device.ofBytes_flatten (by decide) length_of_mem_followedBlocks

theorem overwritten_eq : overwritten = .ofHandle (.ofBlocks 2048 overwrittenBlocks) :=
  Device.ofBytes_flatten (by decide) length_of_mem_overwrittenBlocks

theorem unprobed_eq : unprobed = .ofHandle (.ofBlocks 2048 unprobedBlocks) :=
  Device.ofBytes_flatten (by decide) length_of_mem_unprobedBlocks

/-! ## Detection -/

/-- What a detection run comes to: the verdict, what was found of the newest volume, and when the volumes
were created. -/
def verdict (device : Device) (options : DetectOptions) :
    Option (DetectionState × Inventory × List UInt64) :=
  match device.detect options with
  | .ok d => some (d.state, d.found, d.history.points.map (·.createTime))
  | .error _ => none

theorem exists_detect {device : Device} {options : DetectOptions} {state : DetectionState}
    {found : Inventory} {times : List UInt64} (h : verdict device options = some (state, found, times)) :
    ∃ d, device.detect options = .ok d ∧ d.state = state ∧ d.found = found ∧
      d.history.points.map (·.createTime) = times := by
  unfold verdict at h
  rcases hdetect : device.detect options with cause | d <;> rw [hdetect] at h
  · cases h
  · cases h
    exact ⟨d, rfl, rfl, rfl, rfl⟩

/-- The settings to read a compact volume by, whatever is declared. -/
def config (force : Bool) : Config :=
  { Config.default with force, pageSize := some 512, eraseSize := some 2048, segmentSize := some 2048 }

def options (force : Bool) : DetectOptions := (config force).detectOptions

theorem resolveGeometry_options (force : Bool) (declared : Option Geometry) :
    (options force).resolveGeometry declared = .ok geometry := by
  have hpage : DetectOptions.exactLog "page size" 512 = .ok 9 := DetectOptions.exactLog_eq_ok_iff.2 rfl
  have herase : DetectOptions.exactLog "erase size" 2048 = .ok 11 := DetectOptions.exactLog_eq_ok_iff.2 rfl
  have hsegment : DetectOptions.exactLog "segment size" 2048 = .ok 11 :=
    DetectOptions.exactLog_eq_ok_iff.2 rfl
  have hgeometry : Geometry.ofLogs? 9 11 11 0 = some geometry := by decide
  unfold DetectOptions.resolveGeometry
  simp only [options, config, Config.detectOptions, Option.some_or, Option.getD_some, hpage, herase,
    hsegment, bind, Except.bind, Nat.le_refl, if_true, Nat.sub_self, hgeometry, pure, Except.pure]

-- One evaluation for all four: separate ones would wait for one another.
set_option maxRecDepth 100000 in
theorem verdicts :
    verdict followed (options false) = some (.hasFilesystem, .complete, [7]) ∧
      verdict followed (options true) = some (.hasSomeMetadata, .ofKind .superblock, [7, 8]) ∧
      verdict overwritten (options true) = some (.noFilesystem, .empty, [7, 8]) ∧
      verdict unprobed (options true) = some (.noFilesystem, .empty, []) := by
  rw [followed_eq, overwritten_eq, unprobed_eq]
  decide +kernel

theorem verdict_followed : verdict followed (options false) = some (.hasFilesystem, .complete, [7]) :=
  verdicts.1

theorem verdict_followed_forced : verdict followed (options true) =
    some (.hasSomeMetadata, .ofKind .superblock, [7, 8]) :=
  verdicts.2.1

theorem verdict_overwritten :
    verdict overwritten (options true) = some (.noFilesystem, .empty, [7, 8]) :=
  verdicts.2.2.1

theorem verdict_unprobed : verdict unprobed (options true) = some (.noFilesystem, .empty, []) :=
  verdicts.2.2.2

/-- What a forced check comes to: what detection found, and why the check failed, if it did. -/
def forcedCheck (device : Device) : Option (DetectionState × Option String) :=
  (device.check (options true)).toOption.map fun (d, report) => (d.state, report.failure)

theorem exists_forcedCheck {device : Device} {state : DetectionState} {failure : Option String}
    (h : forcedCheck device = some (state, failure)) :
    ∃ d report, device.check (options true) = .ok (d, report) ∧ d.state = state ∧
      report.failure = failure := by
  obtain ⟨⟨d, report⟩, hcheck, heq⟩ := Option.map_eq_some_iff.1 h
  rcases hrun : device.check (options true) with cause | result <;> rw [hrun] at hcheck <;> cases hcheck
  cases heq
  exact ⟨d, report, rfl, rfl, rfl⟩

set_option maxRecDepth 100000 in
theorem forcedCheck_followed : forcedCheck followed = some (.hasSomeMetadata, none) := by
  rw [followed_eq]
  decide +kernel

/-- A segment is noted for an erase block of the device. -/
def isNoted (device : Device) (peb : Nat) : Bool :=
  ((Volume.mk device.handle geometry).scanPeb peb).toOption.join.isSome

theorem exists_opensWith {device : Device} {peb : Nat} (h : isNoted device peb = true) :
    ∃ header kind, Volume.OpensWith ⟨device.handle, geometry⟩ peb header kind := by
  unfold isNoted at h
  rcases hscan : (Volume.mk device.handle geometry).scanPeb peb with stop | _ | item <;> rw [hscan] at h
  · cases h
  · cases h
  · obtain ⟨header, kind, hopen, -⟩ := Volume.scanPeb_eq_some.1 hscan
    exact ⟨header, kind, hopen⟩

set_option maxRecDepth 100000 in
theorem noted : isNoted overwritten 1 = true ∧ isNoted unprobed 2 = true := by
  rw [overwritten_eq, unprobed_eq]
  decide +kernel

theorem isNoted_overwritten : isNoted overwritten 1 = true := noted.1

theorem isNoted_unprobed : isNoted unprobed 2 = true := noted.2

end FlashVolume.CompactVolume
