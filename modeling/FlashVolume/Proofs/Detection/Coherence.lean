/-
Coherent reports. A detection that failed reports nothing else; any other reports points in ascending
order of creation time, each coherent by itself, and judges by the newest of them.
-/
import FlashVolume.Proofs.Bootstrap
import FlashVolume.Proofs.Detection.Run
import FlashVolume.Proofs.History
import FlashVolume.Proofs.Image.Compact
import FlashVolume.Proofs.Trail.Coherence

namespace FlashVolume

/-- What a detection report says fits together: a fault comes with nothing else, the points are in
order and hold nothing of another volume, and the state is that of the newest of them. -/
structure Detection.Coherent (d : Detection) : Prop where
  failure_iff : d.failure.isSome ↔ d.state = .failed
  of_failed : d.state = .failed → d.history.points = [] ∧ d.geometry = none
  ordered : d.history.Ordered
  judged : d.history.points ≠ [] → ∃ newest ∈ d.history.points,
    (∀ point ∈ d.history.points, point.createTime ≤ newest.createTime) ∧
      d.state = .classify newest.found
  points : ∀ point ∈ d.history.points, ∃ geometry, d.geometry = some geometry ∧
    point.Coherent geometry.pagesPerPeb

theorem DetectionState.classify_ne_failed (found : Inventory) : classify found ≠ .failed := by
  unfold classify
  split
  · nofun
  · split <;> nofun

theorem Detection.ofFault_coherent (cause : Fault) : (ofFault cause).Coherent where
  failure_iff := ⟨fun _ => rfl, fun _ => rfl⟩
  of_failed _ := ⟨rfl, rfl⟩
  ordered := .nil
  judged h := absurd rfl h
  points _ h := nomatch h

theorem Detection.nothing_coherent : nothing.Coherent where
  failure_iff := ⟨nofun, nofun⟩
  of_failed := nofun
  ordered := .nil
  judged h := absurd rfl h
  points _ h := nomatch h

/-- A history of coherent points in order makes a coherent report. -/
theorem History.detection_coherent {h : History} {geometry : Geometry} (hh : h.Ordered)
    (hpoints : ∀ point ∈ h.points, point.Coherent geometry.pagesPerPeb) :
    (h.detection geometry).Coherent where
  failure_iff := ⟨nofun, fun e => absurd e (DetectionState.classify_ne_failed _)⟩
  of_failed e := absurd e (DetectionState.classify_ne_failed _)
  ordered := hh
  judged hne := by
    obtain ⟨newest, hnewest⟩ : ∃ newest, h.latest? = some newest := exists_latest? hne
    obtain ⟨hmem, hmax⟩ := latest?_spec hh hnewest
    refine ⟨newest, hmem, hmax, ?_⟩
    unfold detection
    rw [hnewest]
    rfl
  points point hpoint := ⟨geometry, rfl, hpoints point hpoint⟩

namespace Device

variable {device : Device} {options : DetectOptions} {d : Detection}

/-- An exploration from a bootstrap header on a page of its erase block makes a coherent report. -/
theorem explore_coherent {t : Trailhead} (ht : t.Grounded) (h : device.explore options t = .ok d) :
    d.Coherent := by
  obtain ⟨point, search, hfollow, hd⟩ := explore_cases h
  have hpoint := Trailhead.follow_coherent ht (CreationPoint.fresh_coherent _ _) rfl hfollow
  have hone : ∀ p ∈ [point], p.Coherent t.volume.geometry.pagesPerPeb := fun p hp => by
    rw [List.mem_singleton.1 hp]
    exact hpoint
  have hordered : History.Ordered ⟨[point]⟩ := List.pairwise_singleton ..
  rcases hd with ⟨-, -, rfl⟩ | ⟨shards, -, -, rfl⟩
  · exact History.detection_coherent hordered hone
  · refine History.detection_coherent (History.merge_ordered hordered) ?_
    exact History.merge_induction (fun time => CreationPoint.fresh_coherent time none)
      (fun p item hp htime => (hp.withGeometry _).record htime) hone

/-- Every report of a detection run is coherent. -/
theorem detect_coherent (h : device.detect options = .ok d) : d.Coherent := by
  rcases detect_cases h with ⟨cause, -, rfl⟩ | ⟨-, rfl⟩ | ⟨bootstrap, geometry, located, -, hg, hl, h⟩
  · exact Detection.ofFault_coherent cause
  · exact Detection.nothing_coherent
  · have hgeometry := DetectOptions.resolveGeometry_wellFormed hg
    refine explore_coherent ?_ h
    exact (Bootstrap.relocate_spec hl hgeometry).2

/-- The report on a whole volume is coherent. -/
theorem whole_coherent : ∃ d,
    CompactVolume.whole.device.detect Config.default.detectOptions = .ok d ∧ d.Coherent := by
  obtain ⟨d, report, h, -⟩ := CompactVolume.exists_check CompactVolume.outcome_whole
  have hdetect := (detect_of_check h).1
  exact ⟨d, hdetect, detect_coherent hdetect⟩

end Device

end FlashVolume
