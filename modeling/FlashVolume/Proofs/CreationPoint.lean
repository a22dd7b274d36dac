/-
Coherent creation points. What a point holds was written for the volume of that creation time: every
log located for a structure belongs to it, every scanned segment was written for it, and nothing
counts as found without a log or a scanned segment to show for it.
-/
import FlashVolume.CreationPoint
import FlashVolume.Proofs.Log.Belongs

namespace FlashVolume

/-! ## Definitions -/

namespace Inventory

/-- The structure that segments of this kind make up was found. -/
def has (i : Inventory) : SegmentKind → Bool
  | .initialSnapshot => i.baseSnapshot
  | .superblock => i.superblock
  | .segmentBitmap => i.segmentBitmap
  | .mappingTable => i.mappingTable
  | _ => false

@[simp]
theorem has_empty (kind : SegmentKind) : empty.has kind = false := by cases kind <;> rfl

@[simp]
theorem has_union (a b : Inventory) (kind : SegmentKind) :
    (a.union b).has kind = (a.has kind || b.has kind) := by
  cases kind <;> rfl

theorem has_ofKind (kind kind' : SegmentKind) :
    (ofKind kind).has kind' = (kind.isMetadata && kind' == kind) := by
  cases kind <;> cases kind' <;> rfl

theorem eq_complete_iff {i : Inventory} :
    i = complete ↔ ∀ kind, kind.isMetadata = true → i.has kind = true := by
  constructor
  · rintro rfl kind hkind
    cases kind <;> first | rfl | cases hkind
  · intro h
    rcases i with ⟨baseSnapshot, superblock, segmentBitmap, mappingTable⟩
    have h1 : baseSnapshot = true := h .initialSnapshot rfl
    have h2 : superblock = true := h .superblock rfl
    have h3 : segmentBitmap = true := h .segmentBitmap rfl
    have h4 : mappingTable = true := h .mappingTable rfl
    rw [h1, h2, h3, h4]
    rfl

end Inventory

namespace CreationPoint

variable {p : CreationPoint} {pagesPerPeb : Nat}

/-- The logs located for the structure that segments of this kind make up. -/
def located (p : CreationPoint) : SegmentKind → List FoundLog
  | .initialSnapshot => p.baseSnapshot.toList
  | .superblock => p.superblock.toList
  | .segmentBitmap => p.segmentBitmap.flatMap (·.toList)
  | .mappingTable => p.mappingTable.flatMap (·.toList)
  | _ => []

/-- The point holds nothing of another volume and nothing of another kind, and everything it counts as
found is there. -/
structure Coherent (p : CreationPoint) (pagesPerPeb : Nat) : Prop where
  located : ∀ kind, ∀ log ∈ p.located kind, log.Belongs p.createTime kind pagesPerPeb
  scanned : ∀ bucket ∈ p.buckets, ∀ item ∈ bucket.2,
    item.kind = bucket.1 ∧ item.volumeCreateTime = p.createTime
  found : ∀ kind, p.found.has kind → p.located kind ≠ [] ∨ p.bucket kind ≠ []

/-- The points agree on everything that was located: they differ at most in what counts as found, in
the geometry and in what was scanned. -/
structure SameLogs (p q : CreationPoint) : Prop where
  createTime : q.createTime = p.createTime
  baseSnapshot : q.baseSnapshot = p.baseSnapshot
  superblock : q.superblock = p.superblock
  cache : q.cache = p.cache
  segmentBitmap : q.segmentBitmap = p.segmentBitmap
  mappingTable : q.mappingTable = p.mappingTable

theorem SameLogs.refl (p : CreationPoint) : SameLogs p p := ⟨rfl, rfl, rfl, rfl, rfl, rfl⟩

theorem SameLogs.volumeHeader? {q : CreationPoint} (h : SameLogs p q) :
    q.volumeHeader? = p.volumeHeader? := by
  unfold CreationPoint.volumeHeader? CreationPoint.latestSuperblock?
  rw [h.superblock]

/-! ## Buckets -/

theorem mem_bucket {kind : SegmentKind} {item : ScannedSegment} :
    item ∈ p.bucket kind ↔ item ∈ p.scanned ∧ item.kind = kind := by
  unfold bucket
  rw [List.mem_filter, beq_iff_eq]

theorem mem_buckets {bucket : SegmentKind × List ScannedSegment} :
    bucket ∈ p.buckets ↔ bucket.2 = p.bucket bucket.1 ∧ bucket.2 ≠ [] := by
  have hall : bucket.1 ∈ SegmentKind.all := by cases bucket.1 <;> decide
  unfold buckets
  simp only [List.mem_filter, List.mem_map, Bool.not_eq_eq_eq_not, Bool.not_true, List.isEmpty_eq_false_iff]
  refine and_congr_left fun _ => ⟨?_, fun h => ⟨bucket.1, hall, by rw [← h]⟩⟩
  rintro ⟨kind, -, rfl⟩
  rfl

/-- The buckets hold what was scanned for the volume of the point, and nothing else. -/
theorem scanned_iff_buckets :
    (∀ bucket ∈ p.buckets, ∀ item ∈ bucket.2,
        item.kind = bucket.1 ∧ item.volumeCreateTime = p.createTime) ↔
      ∀ item ∈ p.scanned, item.volumeCreateTime = p.createTime := by
  constructor
  · intro h item hitem
    have hmem : item ∈ p.bucket item.kind := mem_bucket.2 ⟨hitem, rfl⟩
    exact (h (item.kind, p.bucket item.kind)
      (mem_buckets.2 ⟨rfl, List.ne_nil_of_mem hmem⟩) item hmem).2
  · intro h bucket hbucket item hitem
    rw [(mem_buckets.1 hbucket).1, mem_bucket] at hitem
    exact ⟨hitem.2, h item hitem.1⟩

/-! ## Points stay coherent -/

theorem fresh_coherent (createTime : UInt64) (geometry : Option Geometry) :
    ({ fresh createTime with geometry } : CreationPoint).Coherent pagesPerPeb := by
  refine ⟨fun kind log hlog => ?_, scanned_iff_buckets.2 fun item hitem => ?_, fun kind hkind => ?_⟩
  · cases kind <;> cases hlog
  · cases hitem
  · have hempty : Inventory.empty.has kind = true := hkind
    rw [Inventory.has_empty] at hempty
    cases hempty

theorem Coherent.withGeometry (hp : p.Coherent pagesPerPeb) (geometry : Geometry) :
    (p.withGeometry geometry).Coherent pagesPerPeb :=
  ⟨hp.located, hp.scanned, hp.found⟩

/-- Taking in a scanned segment of the same volume keeps a point coherent. -/
theorem Coherent.record (hp : p.Coherent pagesPerPeb) {item : ScannedSegment}
    (hitem : item.volumeCreateTime = p.createTime) : (p.record item).Coherent pagesPerPeb := by
  refine ⟨hp.located, scanned_iff_buckets.2 fun other hother => ?_, fun kind hkind => ?_⟩
  · rcases List.mem_append.1 hother with h | h
    · exact scanned_iff_buckets.1 hp.scanned other h
    · rw [List.mem_singleton.1 h]
      exact hitem
  · have hkeep : p.bucket kind ≠ [] → (p.record item).bucket kind ≠ [] := by
      intro h hnil
      rw [CreationPoint.bucket, CreationPoint.record, List.filter_append,
        List.append_eq_nil_iff] at hnil
      exact h hnil.1
    -- The kind was found before, or it is that of the segment taken in.
    rw [CreationPoint.record, Inventory.has_union, Bool.or_eq_true, Inventory.has_ofKind,
      Bool.and_eq_true, beq_iff_eq] at hkind
    rcases hkind with h | ⟨-, rfl⟩
    · exact (hp.found kind h).imp_right hkeep
    · exact .inr (List.ne_nil_of_mem
        (mem_bucket.2 ⟨List.mem_append_right _ (List.mem_singleton.2 rfl), rfl⟩))

/-- Locating logs of one kind keeps a point coherent if they belong to it, and if that kind counts as
found only with a log to show for it. -/
theorem Coherent.locate (hp : p.Coherent pagesPerPeb) {q : CreationPoint} {kind : SegmentKind}
    (htime : q.createTime = p.createTime) (hscanned : q.scanned = p.scanned)
    (hother : ∀ other, other ≠ kind → q.located other = p.located other)
    (hlogs : ∀ log ∈ q.located kind, log.Belongs p.createTime kind pagesPerPeb)
    (hfound : ∀ other, q.found.has other → other ≠ kind ∧ p.found.has other ∨
      other = kind ∧ q.located kind ≠ []) :
    q.Coherent pagesPerPeb := by
  have hbuckets : q.buckets = p.buckets := by unfold buckets bucket; rw [hscanned]
  refine ⟨fun other log hlog => ?_, ?_, fun other h => ?_⟩
  · rw [htime]
    by_cases hk : other = kind
    · subst hk
      exact hlogs log hlog
    · rw [hother other hk] at hlog
      exact hp.located other log hlog
  · rw [hbuckets, htime]
    exact hp.scanned
  · rcases hfound other h with ⟨hk, hold⟩ | ⟨rfl, hnew⟩
    · rw [hother other hk, bucket, hscanned]
      exact hp.found other hold
    · exact .inl hnew

end CreationPoint

end FlashVolume
