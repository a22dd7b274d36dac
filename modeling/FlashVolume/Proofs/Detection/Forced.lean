/-
What forcing a census changes. A trail that goes through is believed without one, so that a forced run
can only come to something else if its census sees a volume newer than that of the trail; and it does so
exactly if not every kind of metadata is left of the newest such volume.
-/
import FlashVolume.Proofs.Detection.Exact
import FlashVolume.Proofs.Image.Leftover

namespace FlashVolume

/-! ## Superseded volumes -/

/-- The newest volume with metadata segments that open erase blocks is newer than a creation time, and one
kind of metadata does not open any for it. -/
def Volume.Superseded (w : Volume) (pebs : Nat) (createTime : UInt64) : Prop :=
  ∃ newest missing, createTime < newest ∧ missing.isMetadata = true ∧
    (∃ peb header kind, peb < pebs ∧ w.OpensWith peb header kind ∧ header.createTime = newest) ∧
    ∀ peb header kind, peb < pebs → w.OpensWith peb header kind →
      header.createTime ≤ newest ∧ (header.createTime = newest → kind ≠ missing)

/-- The trail goes through, but a census shows that its volume is superseded. -/
def Trailhead.Superseded (t : Trailhead) (device : Device) (workers : Nat) : Prop :=
  (t.follow t.origin).2 = .ok .found ∧
    ∃ w pebs, t.volume.forCensus device.reopened workers = .ok w ∧ t.volume.pebsCount = .ok pebs ∧
      w.Superseded pebs t.bootstrap.header.createTime

/-- After a survey is merged into the history of a complete point, the newest point is complete unless
the survey shows a newer volume in part. -/
theorem History.NewestAfter.complete_iff {w : Volume} {pebs : Nat} {p q : CreationPoint}
    {items : List ScannedSegment} (hq : NewestAfter p items q) (hs : w.Surveyed pebs items)
    (hp : p.found = .complete) : q.found = .complete ↔ ¬ w.Superseded pebs p.createTime := by
  have hitem : ∀ {peb header kind}, peb < pebs → w.OpensWith peb header kind →
      header.note peb kind ∈ items := fun hpeb hopen => (hs.mem_iff _).2 ⟨_, _, _, hpeb, hopen, rfl⟩
  constructor
  · rintro hcomplete ⟨newest, missing, hlt, hmissing, ⟨peb, header, kind, hpeb, hopen, rfl⟩, hall⟩
    have hle : header.createTime ≤ q.createTime := hq.le_item _ (hitem hpeb hopen)
    have hne : q.createTime ≠ p.createTime := fun he =>
      UInt64.lt_irrefl _ (UInt64.lt_of_lt_of_le hlt (he ▸ hle))
    rcases (hq.found missing).1 (Inventory.eq_complete_iff.1 hcomplete missing hmissing) with
      ⟨he, -⟩ | ⟨-, item, hmem, htime, hkind⟩
    · exact hne he
    -- The segment that shows the missing kind is as new as the newest volume, and no newer.
    · obtain ⟨peb', header', kind', hpeb', hopen', rfl⟩ := (hs.mem_iff _).1 hmem
      obtain ⟨hle', hnot⟩ := hall peb' header' kind' hpeb' hopen'
      have htime' : header'.createTime = q.createTime := htime
      exact hnot (UInt64.le_antisymm hle' (htime' ▸ hle)) hkind
  · intro hnot
    by_contra hpartial
    simp only [Inventory.eq_complete_iff, not_forall, exists_prop] at hpartial
    obtain ⟨missing, hmissing, hhas⟩ := hpartial
    have hne : q.createTime ≠ p.createTime := fun he =>
      hhas ((hq.found missing).2 (.inl ⟨he, Inventory.eq_complete_iff.1 hp missing hmissing⟩))
    have hlt : p.createTime < q.createTime := UInt64.lt_of_le_of_ne hq.le_point (Ne.symm hne)
    refine hnot ⟨q.createTime, missing, hlt, hmissing, ?_, fun peb header kind hpeb hopen => ⟨?_, ?_⟩⟩
    · rcases hq.createTime with he | ⟨item, hmem, htime⟩
      · exact absurd he hne
      · obtain ⟨peb, header, kind, hpeb, hopen, rfl⟩ := (hs.mem_iff _).1 hmem
        exact ⟨peb, header, kind, hpeb, hopen, htime⟩
    · exact hq.le_item _ (hitem hpeb hopen)
    · rintro htime rfl
      exact hhas ((hq.found kind).2 (.inr ⟨hmissing, _, hitem hpeb hopen, htime, rfl⟩))

namespace Device

variable {device : Device} {options : DetectOptions} {fast forced : Detection} {t : Trailhead}

/-! ## Forced and unforced runs -/

/-- Two histories are judged alike once the same was found of their newest volumes. -/
theorem detection_agrees_iff {h h' : History} {geometry : Geometry} :
    (h.detection geometry).state = (h'.detection geometry).state ∧
        (h.detection geometry).found = (h'.detection geometry).found ↔
      (h.detection geometry).found = (h'.detection geometry).found := by
  refine ⟨And.right, fun hfound => ⟨?_, hfound⟩⟩
  exact congrArg DetectionState.classify hfound

/-- From one trailhead, a forced exploration and one that is not agree exactly if the volume of the trail
is not superseded. -/
theorem explore_agrees_iff (hfast : device.explore { options with force := false } t = .ok fast)
    (hforced : device.explore { options with force := true } t = .ok forced) :
    forced.state = fast.state ∧ forced.found = fast.found ↔ ¬ t.Superseded device options.workers := by
  obtain ⟨point, search, hfollow, ⟨hforce, -, -⟩ | ⟨shards, -, hscan, rfl⟩⟩ := explore_cases hforced
  · cases hforce
  obtain ⟨point', search', hfollow', hd⟩ := explore_cases hfast
  rw [hfollow] at hfollow'
  cases hfollow'
  rcases hd with ⟨-, rfl, rfl⟩ | ⟨shards', hearly, hscan', rfl⟩
  · -- The trail went through, and only the forced run took a census.
    obtain ⟨w, pebs, hw, hpebs, hs⟩ := Volume.surveyed_of_scan hscan
    obtain ⟨hgrows, hcomplete⟩ := Trailhead.follow_grows hfollow
    obtain ⟨q, hq, hnewest⟩ := History.exists_latest?_merge point t.volume.geometry shards
    have hone : History.latest? ⟨[point]⟩ = some point := rfl
    rw [detection_agrees_iff, History.found_detection hq, History.found_detection hone,
      hcomplete rfl, hnewest.complete_iff hs (hcomplete rfl), hgrows.createTime, not_iff_not]
    constructor
    · intro hsuper
      exact ⟨by rw [hfollow], w, pebs, hw, hpebs, hsuper⟩
    · rintro ⟨-, w', pebs', hw', hpebs', hsuper⟩
      cases hw.symm.trans hw'
      cases hpebs.symm.trans hpebs'
      exact hsuper
  · -- The trail ended early, and both runs took the same census.
    cases hscan.symm.trans hscan'
    refine iff_of_true ⟨rfl, rfl⟩ ?_
    rintro ⟨hfound, -⟩
    rw [hfollow] at hfound
    cases hfound
    rcases hearly with h | h <;> cases h

/-- A forced run and one that is not, neither of which fails, agree on the state and on what was found of
the newest volume exactly if the volume of their trail is not superseded. -/
theorem forced_agrees_iff (hfast : device.detect { options with force := false } = .ok fast)
    (hforced : device.detect { options with force := true } = .ok forced)
    (hfastState : fast.state ≠ .failed) (hforcedState : forced.state ≠ .failed) :
    forced.state = fast.state ∧ forced.found = fast.found ↔
      ¬ ∃ t, device.trailhead? options = .ok (some t) ∧ t.Superseded device options.workers := by
  -- Where the trail starts does not depend on whether a census is forced.
  have hhead : ∀ force, device.trailhead? { options with force } = device.trailhead? options :=
    fun _ => rfl
  rcases explore_of_detect hfast hfastState with ⟨hstart, hd⟩ | ⟨t, hstart, hexplore⟩ <;>
    rcases explore_of_detect hforced hforcedState with ⟨hstart', hd'⟩ | ⟨t', hstart', hexplore'⟩ <;>
    rw [hhead] at hstart hstart'
  · rw [hd, hd']
    refine iff_of_true ⟨rfl, rfl⟩ ?_
    rintro ⟨t, ht, -⟩
    cases hstart.symm.trans ht
  · cases hstart.symm.trans hstart'
  · cases hstart.symm.trans hstart'
  · cases hstart.symm.trans hstart'
    rw [explore_agrees_iff hexplore hexplore', not_iff_not]
    constructor
    · intro hsuper
      exact ⟨t, hstart, hsuper⟩
    · rintro ⟨other, hother, hsuper⟩
      cases hstart.symm.trans hother
      exact hsuper

/-- Behind a newer superblock, a whole volume is superseded: its trail goes through all the same. -/
theorem followed_superseded : ∃ fast forced,
    CompactVolume.followed.detect (CompactVolume.options false) = .ok fast ∧
      CompactVolume.followed.detect (CompactVolume.options true) = .ok forced ∧
      fast.state = .hasFilesystem ∧ forced.state = .hasSomeMetadata ∧
      ∃ t, CompactVolume.followed.trailhead? (CompactVolume.options false) = .ok (some t) ∧
        t.Superseded CompactVolume.followed 1 := by
  obtain ⟨fast, hfast, hstate, -, -⟩ := CompactVolume.exists_detect CompactVolume.verdict_followed
  obtain ⟨forced, hforced, hstate', -, -⟩ :=
    CompactVolume.exists_detect CompactVolume.verdict_followed_forced
  have hagrees := @forced_agrees_iff CompactVolume.followed (CompactVolume.options false) fast forced
    hfast hforced (by rw [hstate]; nofun) (by rw [hstate']; nofun)
  refine ⟨fast, forced, hfast, hforced, hstate, hstate', ?_⟩
  by_contra hnot
  obtain ⟨hsame, -⟩ := hagrees.2 hnot
  rw [hstate, hstate'] at hsame
  cases hsame

/-- Forcing a census can change the report, although neither run fails: what is left of a newer volume is
seen by no trail. -/
theorem forced_disagrees : ¬ ∀ (device : Device) (options : DetectOptions) (fast forced : Detection),
    device.detect { options with force := false } = .ok fast →
      device.detect { options with force := true } = .ok forced →
        fast.state ≠ .failed → forced.state ≠ .failed →
          forced.state = fast.state ∧ forced.found = fast.found := by
  intro hall
  obtain ⟨fast, hfast, hstate, -, -⟩ := CompactVolume.exists_detect CompactVolume.verdict_followed
  obtain ⟨forced, hforced, hstate', -, -⟩ :=
    CompactVolume.exists_detect CompactVolume.verdict_followed_forced
  obtain ⟨hsame, -⟩ := hall _ (CompactVolume.options false) fast forced hfast hforced
    (by rw [hstate]; nofun) (by rw [hstate']; nofun)
  rw [hstate, hstate'] at hsame
  cases hsame

end Device

end FlashVolume
