/-
How a detection run ends: at a fault, without a bootstrap header, or with the point its trail left,
to which a census may have added what it saw.
-/
import FlashVolume.Check.Report
import FlashVolume.Proofs.Trail.Steps

namespace FlashVolume

/-- The point the trail starts from. -/
def Trailhead.origin (t : Trailhead) : CreationPoint :=
  { CreationPoint.fresh t.bootstrap.header.createTime with geometry := some t.volume.geometry }

/-- The detection that a history comes to, read by a geometry. -/
def History.detection (h : History) (geometry : Geometry) : Detection :=
  ⟨.classify ((h.latest?.map (·.found)).getD .empty), some geometry, h, none⟩

theorem History.found_detection {h : History} {point : CreationPoint} (hpoint : h.latest? = some point)
    (geometry : Geometry) : (h.detection geometry).found = point.found := by
  unfold Detection.found detection
  rw [hpoint]
  rfl

namespace Device

variable {device : Device} {options : DetectOptions} {d : Detection} {t : Trailhead}

/-- An exploration concludes from the point of the trail, or from what merging a census made of it. -/
theorem explore_cases (h : device.explore options t = .ok d) :
    ∃ point search, t.follow t.origin = (point, .ok search) ∧
      ((options.force = false ∧ search = .found ∧
          d = History.detection ⟨[point]⟩ t.volume.geometry) ∨
        ∃ shards, (options.force = true ∨ search = .notFound) ∧
          t.volume.scan device.reopened options.workers = .ok shards ∧
          d = (History.merge ⟨[point]⟩ t.volume.geometry shards).detection t.volume.geometry) := by
  unfold explore at h
  simp only at h
  split at h
  · cases h
  · rename_i point search hfollow
    refine ⟨point, search, hfollow, ?_⟩
    split at h
    · rename_i hcensus
      rw [Bool.or_eq_true, beq_iff_eq] at hcensus
      rcases hscan : t.volume.scan device.reopened options.workers with stop | shards <;>
        rw [hscan] at h <;> cases h
      exact .inr ⟨shards, hcensus, rfl, rfl⟩
    · rename_i hcensus
      rw [Bool.or_eq_true, beq_iff_eq, not_or, Bool.not_eq_true] at hcensus
      cases h
      refine .inl ⟨hcensus.1, ?_, rfl⟩
      rcases search with _ | _
      · rfl
      · exact absurd rfl hcensus.2

theorem geometry_of_explore (h : device.explore options t = .ok d) :
    d.geometry = some t.volume.geometry := by
  obtain ⟨point, search, -, ⟨-, -, rfl⟩ | ⟨shards, -, -, rfl⟩⟩ := explore_cases h <;> rfl

/-- A detection run reports a fault, finds no volume at all, or explores one from a bootstrap header,
by a well-formed geometry. -/
theorem detect_cases (h : device.detect options = .ok d) :
    (∃ cause, device.tryDetect options = .error (.fault cause) ∧ d = .ofFault cause) ∨
      Bootstrap.find? device.handle options.scanEraseSize = .ok none ∧ d = .nothing ∨
      ∃ bootstrap geometry located,
        Bootstrap.find? device.handle options.scanEraseSize = .ok (some bootstrap) ∧
        options.resolveGeometry bootstrap.header.volume.geometry? = .ok geometry ∧
        bootstrap.relocate geometry = .ok located ∧
        device.explore options ⟨⟨device.handle, geometry⟩, located⟩ = .ok d := by
  unfold detect at h
  rcases htry : device.tryDetect options with (cause | cause) | detection <;> rw [htry] at h <;> cases h
  · exact .inl ⟨cause, rfl, rfl⟩
  refine .inr ?_
  unfold tryDetect at htry
  rcases hfind : Bootstrap.find? device.handle options.scanEraseSize with stop | _ | bootstrap <;>
    simp only [hfind] at htry
  · cases htry
  · cases htry
    exact .inl ⟨rfl, rfl⟩
  rcases hgeometry : options.resolveGeometry bootstrap.header.volume.geometry? with cause | geometry <;>
    simp only [hgeometry] at htry
  · cases htry
  rcases hlocated : bootstrap.relocate geometry with stop | located <;> simp only [hlocated] at htry
  · cases htry
  exact .inr ⟨bootstrap, geometry, located, rfl, hgeometry, hlocated, htry⟩

/-- Where a run starts its trail: at a bootstrap header, on a volume of the geometry it settles on. There
is no such place on a device without a trusted header. -/
def trailhead? (device : Device) (options : DetectOptions) : Outcome (Option Trailhead) :=
  match Bootstrap.find? device.handle options.scanEraseSize with
  | .error stop => .error stop
  | .ok none => .ok none
  | .ok (some bootstrap) =>
    match options.resolveGeometry bootstrap.header.volume.geometry? with
    | .error cause => .error (.fault cause)
    | .ok geometry =>
      match bootstrap.relocate geometry with
      | .error stop => .error stop
      | .ok located => .ok (some ⟨⟨device.handle, geometry⟩, located⟩)

/-- A trailhead is reached from a bootstrap header, by a geometry the options accept. -/
theorem trailhead?_eq_some (h : device.trailhead? options = .ok (some t)) :
    ∃ bootstrap geometry located,
      Bootstrap.find? device.handle options.scanEraseSize = .ok (some bootstrap) ∧
      options.resolveGeometry bootstrap.header.volume.geometry? = .ok geometry ∧
      bootstrap.relocate geometry = .ok located ∧ t = ⟨⟨device.handle, geometry⟩, located⟩ := by
  unfold trailhead? at h
  rcases hfind : Bootstrap.find? device.handle options.scanEraseSize with stop | _ | bootstrap <;>
    simp only [hfind] at h
  · cases h
  · cases h
  rcases hgeometry : options.resolveGeometry bootstrap.header.volume.geometry? with cause | geometry <;>
    simp only [hgeometry] at h
  · cases h
  rcases hlocated : bootstrap.relocate geometry with stop | located <;> simp only [hlocated] at h
  · cases h
  cases h
  exact ⟨bootstrap, geometry, located, rfl, hgeometry, hlocated, rfl⟩

/-- A trail is followed on the device itself. -/
theorem handle_of_trailhead? (h : device.trailhead? options = .ok (some t)) :
    t.volume.handle = device.handle := by
  obtain ⟨_, _, _, -, -, -, rfl⟩ := trailhead?_eq_some h
  rfl

/-- A detection run that does not fail explores a volume from its trailhead, or there is none. -/
theorem explore_of_detect (h : device.detect options = .ok d) (hstate : d.state ≠ .failed) :
    device.trailhead? options = .ok none ∧ d = .nothing ∨
      ∃ t, device.trailhead? options = .ok (some t) ∧ device.explore options t = .ok d := by
  rcases detect_cases h with ⟨cause, -, rfl⟩ | ⟨hfind, rfl⟩ |
    ⟨bootstrap, geometry, located, hfind, hgeometry, hlocated, hexplore⟩
  · exact absurd rfl hstate
  · refine .inl ⟨?_, rfl⟩
    unfold trailhead?
    rw [hfind]
  · refine .inr ⟨_, ?_, hexplore⟩
    unfold trailhead?
    simp only [hfind, hgeometry, hlocated]

/-- A run that found something explored a volume from its trailhead. -/
theorem explore_of_found (h : device.detect options = .ok d)
    (hstate : d.state = .hasFilesystem ∨ d.state = .hasSomeMetadata) :
    ∃ t, device.trailhead? options = .ok (some t) ∧ device.explore options t = .ok d := by
  have hfailed : d.state ≠ .failed := by rcases hstate with e | e <;> rw [e] <;> nofun
  rcases explore_of_detect h hfailed with ⟨-, rfl⟩ | ht
  · rcases hstate with e | e <;> cases e
  · exact ht

/-- A check checks what detection reports. -/
theorem detect_of_check {report : CheckReport} (h : device.check options = .ok (d, report)) :
    device.detect options = .ok d ∧ d.check device.handle Inspector.standard = .ok report := by
  unfold Device.check at h
  rcases hdetect : device.detect options with cause | detection <;> simp only [hdetect] at h
  · cases h
  rcases hcheck : detection.check device.handle Inspector.standard with cause | checked <;>
    simp only [hcheck] at h
  · cases h
  cases h
  exact ⟨rfl, hcheck⟩

end Device

end FlashVolume
