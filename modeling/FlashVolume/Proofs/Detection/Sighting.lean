/-
What a census sees. It notes exactly the metadata segments whose trusted header opens an erase block,
one for each such block and in the order of the blocks, provided that every block can be read.
-/
import FlashVolume.Proofs.Detection.Census

namespace FlashVolume

/-- What a census notes of the segment that begins at an erase block. -/
def SegmentHeader.note (header : SegmentHeader) (peb : Nat) (kind : SegmentKind) : ScannedSegment where
  segmentId := header.segmentId
  lebId := header.lebId
  peb
  kind
  pebCreateTime := header.pebCreateTime
  volumeCreateTime := header.createTime

namespace Outcome

variable {α β : Type} {f : α → Outcome (Option β)}

/-- What an operation found, if it went well. -/
def found? (x : Outcome (Option β)) : Option β := x.toOption.join

/-- Filtering succeeds when it does at every element, and keeps what it finds there. -/
theorem filterMapM_eq_ok {as : List α} {bs : List β} :
    as.filterMapM f = .ok bs ↔
      (∀ a ∈ as, ∃ found, f a = .ok found) ∧ bs = as.filterMap fun a => found? (f a) := by
  induction as generalizing bs with
  | nil =>
    rw [List.filterMapM_nil, pure_eq_ok]
    simp [eq_comm]
  | cons a as ih =>
    rw [List.filterMapM_cons, bind_eq_ok, List.forall_mem_cons, List.filterMap_cons]
    constructor
    · rintro ⟨_ | b, ha, h⟩
      · obtain ⟨hall, rfl⟩ := ih.1 h
        refine ⟨⟨⟨_, ha⟩, hall⟩, ?_⟩
        rw [ha]
        rfl
      · obtain ⟨rest, hrest, h⟩ := bind_eq_ok.1 h
        obtain ⟨hall, rfl⟩ := ih.1 hrest
        refine ⟨⟨⟨_, ha⟩, hall⟩, ?_⟩
        rw [ha, ← pure_eq_ok.1 h]
        rfl
    · rintro ⟨⟨⟨found, ha⟩, hall⟩, rfl⟩
      refine ⟨found, ha, ?_⟩
      rw [ha]
      rcases found with _ | b
      · exact ih.2 ⟨hall, rfl⟩
      · exact bind_eq_ok.2 ⟨_, ih.2 ⟨hall, rfl⟩, rfl⟩

end Outcome

namespace Volume

variable {v w : Volume} {peb pebs : Nat} {items : List ScannedSegment}

/-! ## One erase block -/

/-- A trusted header of a metadata segment opens the erase block. -/
structure OpensWith (v : Volume) (peb : Nat) (header : SegmentHeader) (kind : SegmentKind) : Prop where
  reads : v.segmentHeader? peb 0 = .ok (some header)
  declares : header.kind? = some kind
  isMetadata : kind.isMetadata = true

/-- An erase block is opened by one header, of one kind. -/
theorem OpensWith.unique {header header' : SegmentHeader} {kind kind' : SegmentKind}
    (h : v.OpensWith peb header kind) (h' : v.OpensWith peb header' kind') :
    header = header' ∧ kind = kind' := by
  have hreads := h.reads
  rw [h'.reads] at hreads
  cases hreads
  have hdeclares := h.declares
  rw [h'.declares] at hdeclares
  cases hdeclares
  exact ⟨rfl, rfl⟩

/-- A segment is noted for an erase block exactly if its header opens it. -/
theorem scanPeb_eq_some {item : ScannedSegment} :
    v.scanPeb peb = .ok (some item) ↔
      ∃ header kind, v.OpensWith peb header kind ∧ item = header.note peb kind := by
  unfold scanPeb
  constructor
  · intro h
    obtain ⟨_ | header, hheader, h⟩ := Outcome.bind_eq_ok.1 h
    · cases h
    rcases hkind : header.kind? with _ | kind <;> simp only [hkind] at h
    · cases h
    split at h
    · rename_i hmeta
      cases h
      exact ⟨header, kind, ⟨hheader, hkind, hmeta⟩, rfl⟩
    · cases h
  · rintro ⟨header, kind, hopen, rfl⟩
    refine Outcome.bind_eq_ok.2 ⟨some header, hopen.reads, ?_⟩
    simp only [hopen.declares, hopen.isMetadata]
    rfl

/-- The segment of an erase block is noted with that block. -/
theorem peb_of_scanPeb {item : ScannedSegment} (h : v.scanPeb peb = .ok (some item)) : item.peb = peb := by
  obtain ⟨header, kind, -, rfl⟩ := scanPeb_eq_some.1 h
  rfl

/-! ## All erase blocks -/

/-- What was noted of the erase blocks below `pebs`: every one of them could be read, a segment is on the
list exactly if its header opens one, and the blocks are in order. -/
structure Surveyed (v : Volume) (pebs : Nat) (items : List ScannedSegment) : Prop where
  readable : ∀ peb < pebs, ∃ found, v.scanPeb peb = .ok found
  mem_iff : ∀ item, item ∈ items ↔
    ∃ peb header kind, peb < pebs ∧ v.OpensWith peb header kind ∧ item = header.note peb kind
  ascending : items.Pairwise (·.peb < ·.peb)

theorem surveyed_of_scanShard (h : v.scanShard ⟨0, pebs⟩ = .ok items) : v.Surveyed pebs items := by
  obtain ⟨hall, rfl⟩ := Outcome.filterMapM_eq_ok.1 h
  have hrange : ∀ {peb}, peb ∈ List.range' 0 (pebs - 0) ↔ peb < pebs := by
    intro peb
    rw [List.mem_range'_1]
    omega
  have hread : ∀ peb < pebs, ∃ found, v.scanPeb peb = .ok found := fun peb hpeb =>
    hall peb (hrange.2 hpeb)
  have hfound : ∀ {peb item}, Outcome.found? (v.scanPeb peb) = some item ↔
      v.scanPeb peb = .ok (some item) := by
    intro peb item
    rcases v.scanPeb peb with stop | _ | other
    · exact iff_of_false nofun nofun
    · exact iff_of_false nofun nofun
    · show some other = some item ↔ _
      rw [Except.ok.injEq]
  refine ⟨hread, fun item => ?_, ?_⟩
  · rw [List.mem_filterMap]
    constructor
    · rintro ⟨peb, hpeb, hitem⟩
      obtain ⟨header, kind, hopen, rfl⟩ := scanPeb_eq_some.1 (hfound.1 hitem)
      exact ⟨peb, header, kind, hrange.1 hpeb, hopen, rfl⟩
    · rintro ⟨peb, header, kind, hlt, hopen, rfl⟩
      exact ⟨peb, hrange.2 hlt, hfound.2 (scanPeb_eq_some.2 ⟨header, kind, hopen, rfl⟩)⟩
  · rw [List.pairwise_filterMap]
    refine (List.pairwise_lt_range' ..).imp fun hlt item hitem other hother => ?_
    rw [peb_of_scanPeb (hfound.1 hitem), peb_of_scanPeb (hfound.1 hother)]
    exact hlt

/-! ## The census -/

/-- The volume a census reads: the volume itself if there is at most one shard, else the same volume
through the handle opened for it. -/
def forCensus (v : Volume) (reopened : Except ReadError Handle) (workers : Nat) : Outcome Volume :=
  match v.pebsCount with
  | .error stop => .error stop
  | .ok pebs =>
    if (Shard.partition pebs (max workers 1)).length ≤ 1 then .ok v
    else
      match reopened with
      | .error cause => .error (.fault (.device cause))
      | .ok handle => .ok (v.withHandle handle)

theorem forCensus_alike {device : Device} (h : device.ReopensAlike) (hv : v.handle = device.handle)
    {workers : Nat} (hw : v.forCensus device.reopened workers = .ok w) : w = v := by
  unfold forCensus at hw
  rw [h.reopened_eq, ← hv] at hw
  rcases hn : v.pebsCount with stop | pebs <;> simp only [hn] at hw
  · cases hw
  split at hw <;> cases hw <;> rfl

/-- A census that goes well is a survey of the volume it reads. -/
theorem surveyed_of_scan {reopened : Except ReadError Handle} {workers : Nat}
    {shards : List (List ScannedSegment)} (h : v.scan reopened workers = .ok shards) :
    ∃ w pebs, v.forCensus reopened workers = .ok w ∧ v.pebsCount = .ok pebs ∧
      w.Surveyed pebs shards.flatten := by
  unfold scan at h
  unfold forCensus
  rcases hn : v.pebsCount with stop | pebs <;> simp only [hn] at h
  · cases h
  have hcover := Shard.partition_cover (Nat.lt_of_lt_of_le Nat.one_pos (Nat.le_max_right workers 1)) pebs
  have hsurvey : ∀ {w : Volume},
      (Shard.partition pebs (max workers 1)).mapM w.scanShard = .ok shards →
        w.Surveyed pebs shards.flatten := by
    intro w hw
    refine surveyed_of_scanShard ?_
    rw [← scanShards_eq _ hcover, hw]
    rfl
  simp only
  split at h
  · rename_i hone
    exact ⟨v, pebs, if_pos hone, rfl, hsurvey h⟩
  · rename_i hmany
    rw [if_neg hmany]
    rcases reopened with cause | handle
    · cases h
    · exact ⟨_, pebs, rfl, rfl, hsurvey h⟩

end Volume

end FlashVolume
