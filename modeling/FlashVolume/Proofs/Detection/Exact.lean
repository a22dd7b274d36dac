/-
The census of a report is exact. A segment is filed under a creation time and a kind; after a census
every metadata segment whose header opens an erase block is filed once, in its own place, nothing else is
filed, and every bucket is in the order of the erase blocks.
-/
import FlashVolume.Proofs.Detection.Run
import FlashVolume.Proofs.Detection.Sighting
import FlashVolume.Proofs.History.Lookup
import FlashVolume.Proofs.Image.Leftover
import FlashVolume.Proofs.Trail.Growth
import Mathlib.Data.List.Nodup

namespace FlashVolume

/-! ## Filing -/

/-- A scanned segment, and the creation time and the kind it is filed under. -/
structure Filed where
  createTime : UInt64
  kind : SegmentKind
  segment : ScannedSegment
deriving DecidableEq

/-- The segments a point has filed, bucket by bucket. -/
def CreationPoint.filed (p : CreationPoint) : List Filed :=
  p.buckets.flatMap fun bucket => bucket.2.map fun item => ⟨p.createTime, bucket.1, item⟩

theorem CreationPoint.mem_filed {p : CreationPoint} {entry : Filed} :
    entry ∈ p.filed ↔
      entry.createTime = p.createTime ∧ entry.kind = entry.segment.kind ∧ entry.segment ∈ p.scanned := by
  unfold filed
  simp only [List.mem_flatMap, List.mem_map]
  constructor
  · rintro ⟨bucket, hbucket, item, hitem, rfl⟩
    rw [(mem_buckets.1 hbucket).1, mem_bucket] at hitem
    exact ⟨rfl, hitem.2.symm, hitem.1⟩
  · rcases entry with ⟨createTime, kind, item⟩
    rintro ⟨(rfl : createTime = _), (rfl : kind = item.kind), hitem⟩
    have hmem : item ∈ p.bucket item.kind := mem_bucket.2 ⟨hitem, rfl⟩
    exact ⟨(item.kind, p.bucket item.kind), mem_buckets.2 ⟨rfl, List.ne_nil_of_mem hmem⟩, item, hmem, rfl⟩

/-- The kinds of the buckets are all different. -/
theorem CreationPoint.buckets_nodup (p : CreationPoint) :
    p.buckets.Pairwise fun bucket bucket' => bucket.1 ≠ bucket'.1 := by
  have hkinds : SegmentKind.all.Pairwise (· ≠ ·) := by decide
  unfold buckets
  refine List.Pairwise.filter _ (List.pairwise_map.2 ?_)
  exact hkinds

theorem CreationPoint.filed_nodup {p : CreationPoint} (hp : p.scanned.Nodup) : p.filed.Nodup := by
  unfold filed
  rw [List.nodup_flatMap]
  refine ⟨fun bucket hbucket => ?_, p.buckets_nodup.imp fun hne => ?_⟩
  · rw [(mem_buckets.1 hbucket).1]
    exact (hp.filter _).map fun item item' h => (Filed.mk.inj h).2.2
  · rintro entry hentry hentry'
    obtain ⟨item, -, rfl⟩ := List.mem_map.1 hentry
    obtain ⟨item', -, h⟩ := List.mem_map.1 hentry'
    exact hne (Filed.mk.inj h).2.1.symm

namespace History

variable {h : History} {items : List ScannedSegment}

/-- The segments a history has filed, point by point. -/
def filed (h : History) : List Filed := h.points.flatMap (·.filed)

/-- The points of a history have scanned these segments, each the ones of its own volume. -/
structure Files (h : History) (items : List ScannedSegment) : Prop where
  ordered : h.Ordered
  scanned : ∀ point ∈ h.points, point.scanned = ofVolume items point.createTime
  exists_point : ∀ item ∈ items, ∃ point ∈ h.points, point.createTime = item.volumeCreateTime

/-- A segment is filed once it is scanned, under its own creation time and kind. -/
theorem Files.mem_filed (hf : h.Files items) {entry : Filed} :
    entry ∈ h.filed ↔
      ∃ item ∈ items, entry = ⟨item.volumeCreateTime, item.kind, item⟩ := by
  unfold filed
  simp only [List.mem_flatMap, CreationPoint.mem_filed]
  constructor
  · rcases entry with ⟨createTime, kind, item⟩
    rintro ⟨point, hpoint, (rfl : createTime = _), (rfl : kind = item.kind), hitem⟩
    rw [hf.scanned point hpoint, mem_ofVolume] at hitem
    exact ⟨item, hitem.1, by rw [hitem.2]⟩
  · rintro ⟨item, hitem, rfl⟩
    obtain ⟨point, hpoint, htime⟩ := hf.exists_point item hitem
    refine ⟨point, hpoint, htime.symm, rfl, ?_⟩
    rw [hf.scanned point hpoint, mem_ofVolume]
    exact ⟨hitem, htime.symm⟩

theorem Files.filed_nodup (hf : h.Files items) (hitems : items.Nodup) : h.filed.Nodup := by
  unfold filed
  rw [List.nodup_flatMap]
  refine ⟨fun point hpoint => CreationPoint.filed_nodup ?_, ?_⟩
  · rw [hf.scanned point hpoint]
    exact hitems.filter _
  · refine (List.pairwise_map.1 hf.ordered).imp fun hlt entry hentry hentry' => ?_
    rw [CreationPoint.mem_filed] at hentry hentry'
    rw [← hentry.1, ← hentry'.1] at hlt
    exact UInt64.lt_irrefl _ hlt

/-- Merging into the history of a point without scanned segments files all of them. -/
theorem files_merge {p : CreationPoint} (hp : p.scanned = []) (geometry : Geometry)
    (shards : List (List ScannedSegment)) : (merge ⟨[p]⟩ geometry shards).Files shards.flatten := by
  have hone : Ordered ⟨[p]⟩ := List.pairwise_singleton ..
  refine ⟨merge_ordered hone, fun point hpoint => ?_, fun item hitem => ?_⟩
  · rw [eq_recordAll_of_mem_merge hone hpoint, CreationPoint.scanned_recordAll,
      ← eq_recordAll_of_mem_merge hone hpoint]
    rcases hget : get? ⟨[p]⟩ point.createTime with _ | before
    · rfl
    · rw [Option.getD_some, List.mem_singleton.1 ((get?_eq_some_iff hone).1 hget).1, hp, List.nil_append]
  · exact (exists_createTime_merge hone).2 (.inr ⟨item, hitem, rfl⟩)

end History

/-! ## The report -/

/-- What a report has filed are exactly the metadata segments that open the erase blocks of a volume. -/
structure Detection.Censused (d : Detection) (w : Volume) (pebs : Nat) : Prop where
  readable : ∀ peb < pebs, ∃ header, w.segmentHeader? peb 0 = .ok header
  once : ∀ peb header kind, peb < pebs → w.OpensWith peb header kind →
    d.history.filed.filter (·.segment.peb == peb) = [⟨header.createTime, kind, header.note peb kind⟩]
  only : ∀ entry ∈ d.history.filed, ∃ peb header kind, peb < pebs ∧ w.OpensWith peb header kind ∧
    entry = ⟨header.createTime, kind, header.note peb kind⟩
  ascending : ∀ point ∈ d.history.points, ∀ bucket ∈ point.buckets, bucket.2.Pairwise (·.peb < ·.peb)

theorem filter_eq_singleton {α : Type} {as : List α} {p : α → Bool} {a : α} (has : as.Nodup)
    (h : ∀ b, b ∈ as ∧ p b = true ↔ b = a) : as.filter p = [a] := by
  refine List.perm_singleton.1 ((List.perm_ext_iff_of_nodup (has.filter p) (List.nodup_singleton a)).2 ?_)
  intro b
  rw [List.mem_filter, List.mem_singleton]
  exact h b

/-- Filing a survey makes an exact census. -/
theorem Volume.Surveyed.censused {w : Volume} {pebs : Nat} {items : List ScannedSegment} {d : Detection}
    (hs : w.Surveyed pebs items) (hf : d.history.Files items) : d.Censused w pebs := by
  have hnodup : items.Nodup := hs.ascending.imp fun hlt => by
    rintro rfl
    exact Nat.lt_irrefl _ hlt
  refine ⟨fun peb hpeb => ?_, fun peb header kind hpeb hopen => ?_, fun entry hentry => ?_,
    fun point hpoint bucket hbucket => ?_⟩
  · obtain ⟨found, hfound⟩ := hs.readable peb hpeb
    obtain ⟨header, hheader, -⟩ := Outcome.bind_eq_ok.1 hfound
    exact ⟨header, hheader⟩
  · refine filter_eq_singleton (hf.filed_nodup hnodup) fun entry => ?_
    rw [hf.mem_filed, beq_iff_eq]
    constructor
    · rintro ⟨⟨item, hitem, rfl⟩, hpeb'⟩
      obtain ⟨peb', header', kind', -, hopen', rfl⟩ := (hs.mem_iff _).1 hitem
      cases hpeb'
      -- One erase block is opened by one header.
      obtain ⟨rfl, rfl⟩ := hopen'.unique hopen
      rfl
    · rintro rfl
      exact ⟨⟨header.note peb kind, (hs.mem_iff _).2 ⟨peb, header, kind, hpeb, hopen, rfl⟩, rfl⟩, rfl⟩
  · obtain ⟨item, hitem, rfl⟩ := hf.mem_filed.1 hentry
    obtain ⟨peb, header, kind, hpeb, hopen, rfl⟩ := (hs.mem_iff _).1 hitem
    exact ⟨peb, header, kind, hpeb, hopen, rfl⟩
  · rw [(CreationPoint.mem_buckets.1 hbucket).1, CreationPoint.bucket, hf.scanned point hpoint]
    exact (hs.ascending.filter _).filter _

namespace Device

variable {device : Device} {options : DetectOptions} {d : Detection} {t : Trailhead}

/-- A trail leaves a point on which nothing was scanned yet. -/
theorem scanned_of_follow {point : CreationPoint} {search : Search}
    (h : t.follow t.origin = (point, .ok search)) : point.scanned = [] :=
  (Trailhead.follow_grows h).1.scanned

/-- An exploration that takes a census merges a survey of the volume read for it. -/
theorem surveyed_of_explore (h : device.explore options t = .ok d)
    (hcensus : options.force = true ∨ (t.follow t.origin).2 = .ok .notFound) :
    ∃ point search w pebs shards, t.follow t.origin = (point, .ok search) ∧
      t.volume.forCensus device.reopened options.workers = .ok w ∧ t.volume.pebsCount = .ok pebs ∧
      w.Surveyed pebs shards.flatten ∧
      d = (History.merge ⟨[point]⟩ t.volume.geometry shards).detection t.volume.geometry := by
  obtain ⟨point, search, hfollow, ⟨hforce, hfound, -⟩ | ⟨shards, -, hscan, hd⟩⟩ := explore_cases h
  · rw [hfollow, hforce, hfound] at hcensus
    rcases hcensus with hcensus | hcensus <;> cases hcensus
  · obtain ⟨w, pebs, hw, hpebs, hs⟩ := Volume.surveyed_of_scan hscan
    exact ⟨point, search, w, pebs, shards, hfollow, hw, hpebs, hs, hd⟩

/-- An exploration has at least the point of its trail to report. -/
theorem points_ne_nil_of_explore (h : device.explore options t = .ok d) : d.history.points ≠ [] := by
  obtain ⟨point, search, -, ⟨-, -, rfl⟩ | ⟨shards, -, -, rfl⟩⟩ := explore_cases h
  · exact List.cons_ne_nil point []
  · obtain ⟨q, hq, -⟩ := History.exists_latest?_merge point t.volume.geometry shards
    have hmem : q ∈ (History.merge ⟨[point]⟩ t.volume.geometry shards).points := List.mem_of_getLast? hq
    exact fun hnil => List.ne_nil_of_mem hmem hnil

/-- The census is exact from end to end: if a detection run that does not fail takes one from its
trailhead, it files every metadata segment whose header opens an erase block of the volume it reads, once
and in its own place, and nothing else; with handles that reopen alike that volume is the device's. -/
theorem detect_censused (h : device.detect options = .ok d) (hstate : d.state ≠ .failed)
    (ht : device.trailhead? options = .ok (some t))
    (hcensus : options.force = true ∨ (t.follow t.origin).2 = .ok .notFound) :
    ∃ w pebs, t.volume.forCensus device.reopened options.workers = .ok w ∧
      t.volume.pebsCount = .ok pebs ∧ d.Censused w pebs ∧ (device.ReopensAlike → w = t.volume) := by
  rcases explore_of_detect h hstate with ⟨hnone, -⟩ | ⟨t', ht', hexplore⟩
  · rw [ht] at hnone
    cases hnone
  rw [ht] at ht'
  cases ht'
  obtain ⟨point, search, w, pebs, shards, hfollow, hw, hpebs, hs, rfl⟩ := surveyed_of_explore hexplore hcensus
  refine ⟨w, pebs, hw, hpebs, hs.censused (History.files_merge (scanned_of_follow hfollow) _ _), fun hr => ?_⟩
  exact Volume.forCensus_alike hr (handle_of_trailhead? ht) hw

/-- The forced report on two volumes that meet has filed exactly what opens their erase blocks. -/
theorem followed_censused : ∃ d t pebs,
    CompactVolume.followed.detect (CompactVolume.options true) = .ok d ∧ d.state = .hasSomeMetadata ∧
      CompactVolume.followed.trailhead? (CompactVolume.options true) = .ok (some t) ∧
      t.volume.pebsCount = .ok pebs ∧ d.Censused t.volume pebs := by
  obtain ⟨d, h, hstate, -, -⟩ := CompactVolume.exists_detect CompactVolume.verdict_followed_forced
  have hfailed : d.state ≠ .failed := by rw [hstate]; nofun
  rcases explore_of_detect h hfailed with ⟨-, rfl⟩ | ⟨t, ht, -⟩
  · cases hstate
  have halike : CompactVolume.followed.ReopensAlike := ⟨_, rfl, rfl, fun _ _ => rfl⟩
  obtain ⟨w, pebs, -, hpebs, hcensused, hw⟩ := detect_censused h hfailed ht (.inl rfl)
  rw [hw halike] at hcensused
  exact ⟨d, t, pebs, h, hstate, ht, hpebs, hcensused⟩

end Device

end FlashVolume
