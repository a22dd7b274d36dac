/-
Areas of a log. An area lies between the start of its log and the end of the erase block, and then it is the bytes of
the device there; of a descriptor that says otherwise nothing is read. The records that stand at the front of an area
are read on their own: no more of the device is asked for than they take, and what is read is what the area begins
with.
-/
import FlashVolume.Proofs.Arithmetic.Volume
import FlashVolume.Proofs.Record.Inverse
import FlashVolume.Proofs.Volume.Delivery

namespace FlashVolume

/-! ## Devices -/

/-- Reads are exact. They deliver as many bytes as are asked for, and where a range can be read, its beginning can be
read as well and is the same. -/
structure Handle.Exact (handle : Handle) : Prop where
  length_eq : ∀ {offset length bytes}, handle.read offset length = .ok bytes → bytes.length = length
  read_take : ∀ {offset length bytes part}, handle.read offset length = .ok bytes → part ≤ length →
    handle.read offset part = .ok (bytes.take part)

theorem Handle.exact_ofBytes (bytes : ByteArray) : (ofBytes bytes).Exact := by
  have hread : ∀ {offset length read}, (ofBytes bytes).read offset length = .ok read ↔
      offset + length ≤ bytes.size ∧ (bytes.data.toList.drop offset).take length = read := by
    intro offset length read
    unfold ofBytes
    simp only [ByteArray.data_extract, Array.toList_extract, List.extract_eq_take_drop, Nat.add_sub_cancel_left]
    split <;> simp [*]
  refine ⟨fun {offset length read} h => ?_, fun {offset length read part} h hpart => ?_⟩
  · obtain ⟨hroom, rfl⟩ := hread.1 h
    rw [List.length_take, List.length_drop]
    have hsize : bytes.data.toList.length = bytes.size := rfl
    omega
  · obtain ⟨hroom, rfl⟩ := hread.1 h
    exact hread.2 ⟨by omega, by rw [List.take_take, Nat.min_eq_left hpart]⟩

theorem Handle.exact_sparse (size : Nat) (pieces : List Piece) : (sparse size pieces).Exact := by
  have hread : ∀ {offset length read}, (sparse size pieces).read offset length = .ok read ↔
      offset + length ≤ size ∧ (List.range length).map (fun i => byteAt pieces (offset + i)) = read := by
    intro offset length read
    unfold sparse
    simp only
    split <;> simp [*]
  refine ⟨fun {offset length read} h => ?_, fun {offset length read part} h hpart => ?_⟩
  · obtain ⟨-, rfl⟩ := hread.1 h
    rw [List.length_map, List.length_range]
  · obtain ⟨hroom, rfl⟩ := hread.1 h
    exact hread.2 ⟨by omega, by rw [← List.map_take, List.take_range, Nat.min_eq_left hpart]⟩

/-- Ranges that cannot be read leave the other reads exact. -/
theorem Handle.Exact.failing {handle : Handle} (h : handle.Exact) (ranges : List (Nat × Nat)) :
    (handle.failing ranges).Exact := by
  have hread : ∀ {offset length bytes}, (handle.failing ranges).read offset length = .ok bytes ↔
      (∀ range ∈ ranges, offset < range.2 → min (offset + length) (UInt64.size - 1) ≤ range.1) ∧
        handle.read offset length = .ok bytes := by
    intro offset length bytes
    unfold Handle.failing
    simp only
    split <;> rename_i hany <;> simp only [List.any_eq_true, Bool.and_eq_true, decide_eq_true_eq] at hany
    · obtain ⟨range, hmem, hlt, hstart⟩ := hany
      exact iff_of_false nofun fun hfree => absurd (hfree.1 range hmem hlt) (Nat.not_le.2 hstart)
    · refine (and_iff_right fun range hmem hlt => Nat.le_of_not_lt fun hstart => ?_).symm
      exact hany ⟨range, hmem, hlt, hstart⟩
  refine ⟨fun hok => h.length_eq (hread.1 hok).2, fun hok hpart => ?_⟩
  obtain ⟨hfree, hok⟩ := hread.1 hok
  exact hread.2 ⟨fun range hmem hlt => Nat.le_trans (by omega) (hfree range hmem hlt), h.read_take hok hpart⟩

/-! ## Ranges -/

/-- Why a descriptor describes no area of a log of `span` bytes. -/
def AreaDescriptor.misfit (area : AreaDescriptor) (span : Nat) : Region.Error :=
  if area.size.toNat = 0 then .empty area.offset.toNat
  else .outOfBounds area.offset.toNat area.size.toNat span

namespace Geometry

variable {g : Geometry} {peb page : Nat} {area : AreaDescriptor}

/-- The area is not empty, and ends no later than the erase block of the log at `page` does. -/
structure Contains (g : Geometry) (page : Nat) (area : AreaDescriptor) : Prop where
  size_pos : 0 < area.size.toNat
  stop_le : area.stop ≤ g.logSpan page

instance (g : Geometry) (page : Nat) (area : AreaDescriptor) : Decidable (g.Contains page area) :=
  decidable_of_iff (0 < area.size.toNat ∧ area.stop ≤ g.logSpan page)
    ⟨fun h => ⟨h.1, h.2⟩, fun h => ⟨h.size_pos, h.stop_le⟩⟩

/-- Where an area of the log at `page` of `peb` starts. -/
def areaOffset (g : Geometry) (peb page : Nat) (area : AreaDescriptor) : Nat :=
  g.logOffset peb page + area.offset.toNat

/-- An area ends where its erase block does, at the latest. -/
theorem Contains.stop_le_block (h : g.Contains page area) (peb : Nat) (hpage : page < g.pagesPerPeb) :
    g.areaOffset peb page area + area.size.toNat ≤ (peb + 1) * g.eraseSize := by
  have hspan := g.logOffset_add_logSpan peb (Nat.le_of_lt hpage)
  have hstop := h.stop_le
  unfold AreaDescriptor.stop at hstop
  unfold areaOffset
  rw [Nat.succ_mul]
  omega

end Geometry

namespace Volume

variable {v : Volume} {peb page : Nat} {area : AreaDescriptor}

theorem areaRegion_of_contains (h : v.geometry.Contains page area) :
    v.areaRegion page area = .ok ⟨area.offset.toNat, area.stop⟩ :=
  Region.within_eq_ok_iff.2 ⟨Nat.ne_of_gt h.size_pos, h.stop_le, rfl⟩

theorem areaRegion_of_not_contains (h : ¬ v.geometry.Contains page area) :
    v.areaRegion page area = .error (area.misfit (v.geometry.logSpan page)) := by
  unfold areaRegion AreaDescriptor.region Region.within AreaDescriptor.misfit
  split
  · rfl
  · rename_i hsize
    exact if_neg fun hstop => h ⟨Nat.pos_of_ne_zero hsize, hstop⟩

theorem size_areaRegion (area : AreaDescriptor) : (Region.mk area.offset.toNat area.stop).size = area.size.toNat :=
  Nat.add_sub_cancel_left ..

/-! ## What the device is asked for -/

/-- The same volume on a device of the same size that answers to reads in some other way. -/
def answering (v : Volume) (read : (offset length : Nat) → Except ReadError (List UInt8)) : Volume :=
  v.withHandle { v.handle with read }

/-- However the device answers to reads, the operation comes to the same. -/
def Unread {α : Type} (v : Volume) (operation : Volume → α) : Prop :=
  ∀ read, operation (v.answering read) = operation v

/-- However the device answers to other reads than this one, the operation comes to the same. -/
def ReadsOnly {α : Type} (v : Volume) (offset length : Nat) (operation : Volume → α) : Prop :=
  ∀ read, read offset length = v.handle.read offset length → operation (v.answering read) = operation v

theorem readBytes_answering {read : (offset length : Nat) → Except ReadError (List UInt8)} {offset length : Nat}
    (h : read offset length = v.handle.read offset length) :
    (v.answering read).readBytes peb offset length = v.readBytes peb offset length := by
  have hread : (v.answering read).handle.read offset length = v.handle.read offset length := h
  unfold readBytes
  rw [hread]

/-- The volume has the erase block, and words hold every position on its device. -/
structure HoldsBlock (v : Volume) (peb : Nat) : Prop where
  whole : v.HasWhole peb
  size_lt : v.handle.size < UInt64.size

/-- What is read at the front of an area, as `parse` understands its first `length` bytes. -/
def areaFront? {α : Type} (v : Volume) (peb page : Nat) (area : AreaDescriptor) (length : Nat)
    (parse : List UInt8 → Option α) : Outcome (Option α) :=
  (v.readAreaStart peb page area length).map (·.bind parse)

/-- An area that ends within the words is read as a whole. -/
theorem readArea_of_contains (harea : v.geometry.Contains page area)
    (hstop : v.geometry.logOffset peb page + area.stop < UInt64.size) :
    v.readArea peb page area = v.readBytes peb (v.geometry.areaOffset peb page area) area.size.toNat := by
  have hstart : word64 (v.geometry.logOffset peb page + area.offset.toNat) =
      .ok (v.geometry.areaOffset peb page area) :=
    word64_eq_ok.2 ⟨by unfold AreaDescriptor.stop at hstop; omega, rfl⟩
  unfold readArea
  simp only [areaRegion_of_contains harea, hstart, word64_eq_ok.2 ⟨hstop, rfl⟩, size_areaRegion, bind, Except.bind]

/-- Of an area that ends within the words and is long enough, the front is read. -/
theorem areaFront?_of_contains {α : Type} {length : Nat} (harea : v.geometry.Contains page area)
    (hstop : v.geometry.logOffset peb page + area.stop < UInt64.size) (hlength : length ≤ area.size.toNat)
    (parse : List UInt8 → Option α) : v.areaFront? peb page area length parse =
      (v.readBytes peb (v.geometry.areaOffset peb page area) length).map parse := by
  have hstart : word64 (v.geometry.logOffset peb page + area.offset.toNat) =
      .ok (v.geometry.areaOffset peb page area) :=
    word64_eq_ok.2 ⟨by unfold AreaDescriptor.stop at hstop; omega, rfl⟩
  unfold areaFront? readAreaStart
  simp only [areaRegion_of_contains harea, size_areaRegion, if_neg (Nat.not_lt.2 hlength), hstart, bind,
    Except.bind]
  rcases v.readBytes peb (v.geometry.areaOffset peb page area) length with stop | bytes <;> rfl

namespace HoldsBlock

variable (h : v.HoldsBlock peb) (hpage : page < v.geometry.pagesPerPeb) (harea : v.geometry.Contains page area)

include h hpage harea

/-- Words hold every position of an area. -/
theorem stop_lt : v.geometry.logOffset peb page + area.stop < UInt64.size := by
  have hstop := harea.stop_le_block peb hpage
  have hwhole := h.whole
  have hsize := h.size_lt
  unfold HasWhole at hwhole
  unfold Geometry.areaOffset at hstop
  unfold AreaDescriptor.stop
  omega

theorem readArea_eq : v.readArea peb page area =
    v.readBytes peb (v.geometry.areaOffset peb page area) area.size.toNat :=
  readArea_of_contains harea (h.stop_lt hpage harea)

theorem areaFront?_eq {α : Type} {length : Nat} (hlength : length ≤ area.size.toNat)
    (parse : List UInt8 → Option α) : v.areaFront? peb page area length parse =
      (v.readBytes peb (v.geometry.areaOffset peb page area) length).map parse :=
  areaFront?_of_contains harea (h.stop_lt hpage harea) hlength parse

end HoldsBlock

theorem readArea_of_not_contains (h : ¬ v.geometry.Contains page area) :
    v.readArea peb page area = .error (.fault (.region (area.misfit (v.geometry.logSpan page)))) := by
  unfold readArea
  rw [areaRegion_of_not_contains h]
  rfl

theorem areaFront?_of_not_fits {α : Type} {length : Nat}
    (h : ¬ (v.geometry.Contains page area ∧ length ≤ area.size.toNat)) (parse : List UInt8 → Option α) :
    v.areaFront? peb page area length parse = .ok none := by
  unfold areaFront? readAreaStart
  by_cases harea : v.geometry.Contains page area
  · simp only [areaRegion_of_contains harea, size_areaRegion]
    rw [if_pos (Nat.lt_of_not_le (not_and.1 h harea))]
    rfl
  · rw [areaRegion_of_not_contains harea]
    rfl

theorem readBytes_eq_ok {offset length : Nat} {bytes : List UInt8} :
    v.readBytes peb offset length = .ok bytes ↔ v.handle.read offset length = .ok bytes := by
  unfold readBytes
  split
  · rename_i hread
    rw [hread, Except.ok.injEq, Except.ok.injEq]
  · rename_i hread
    rw [hread]
    exact iff_of_false nofun nofun

theorem contains_of_readArea {bytes : List UInt8} (h : v.readArea peb page area = .ok bytes) :
    v.geometry.Contains page area := by
  by_contra harea
  rw [readArea_of_not_contains harea] at h
  cases h

/-! ## Whole areas -/

/-- Reading an area gives the bytes of the device it describes, which lie between the start of its log and the end of
the erase block, and asks for no others. In memory they are always there. -/
structure ReadsArea (v : Volume) (peb page : Nat) (area : AreaDescriptor) : Prop where
  start_le : v.geometry.logOffset peb page ≤ v.geometry.areaOffset peb page area
  stop_le : v.geometry.areaOffset peb page area + area.size.toNat ≤ (peb + 1) * v.geometry.eraseSize
  eq : v.readArea peb page area = v.readBytes peb (v.geometry.areaOffset peb page area) area.size.toNat
  readsOnly : v.ReadsOnly (v.geometry.areaOffset peb page area) area.size.toNat (·.readArea peb page area)
  length_eq : v.handle.Exact → ∀ bytes, v.readArea peb page area = .ok bytes → bytes.length = area.size.toNat
  inMemory : ∀ bytes, v.handle = .ofBytes bytes → v.readArea peb page area =
    .ok ((bytesFrom bytes (v.geometry.areaOffset peb page area)).take area.size.toNat)

theorem HoldsBlock.answering (h : v.HoldsBlock peb) (read : (offset length : Nat) → Except ReadError (List UInt8)) :
    (v.answering read).HoldsBlock peb :=
  ⟨h.whole, h.size_lt⟩

theorem HoldsBlock.readsArea (h : v.HoldsBlock peb) (hpage : page < v.geometry.pagesPerPeb)
    (harea : v.geometry.Contains page area) : v.ReadsArea peb page area where
  start_le := Nat.le_add_right ..
  stop_le := harea.stop_le_block peb hpage
  eq := h.readArea_eq hpage harea
  readsOnly read hread :=
    calc (v.answering read).readArea peb page area
      _ = (v.answering read).readBytes peb (v.geometry.areaOffset peb page area) area.size.toNat :=
        (h.answering read).readArea_eq hpage harea
      _ = v.readBytes peb (v.geometry.areaOffset peb page area) area.size.toNat := readBytes_answering hread
      _ = v.readArea peb page area := (h.readArea_eq hpage harea).symm
  length_eq hexact bytes hbytes := by
    rw [h.readArea_eq hpage harea, readBytes_eq_ok] at hbytes
    exact hexact.length_eq hbytes
  inMemory bytes hbytes := by
    have hroom : v.geometry.areaOffset peb page area + area.size.toNat ≤ v.handle.size :=
      Nat.le_trans (harea.stop_le_block peb hpage) h.whole
    have hread := readBytes_ofBytes bytes v.geometry peb (v.geometry.areaOffset peb page area) area.size.toNat
    rw [hbytes] at hroom
    rw [← hbytes, if_pos (show _ ≤ bytes.size from hroom)] at hread
    exact (h.readArea_eq hpage harea).trans hread

/-! ## Records at the front -/

/-- A reader takes the record at the front of an area from the first `length` bytes of the area and asks for no
others; where they are not all in the area, it finds nothing and asks for none. What it finds is what reading the
whole area would give to begin with. -/
structure ReadsFront {α : Type} (v : Volume) (peb page : Nat) (area : AreaDescriptor) (length : Nat)
    (parse : List UInt8 → Option α) (reader : Volume → Outcome (Option α)) : Prop where
  misfit : ¬ (v.geometry.Contains page area ∧ length ≤ area.size.toNat) → reader v = .ok none ∧ v.Unread reader
  fit : v.geometry.Contains page area → length ≤ area.size.toNat →
    reader v = (v.readBytes peb (v.geometry.areaOffset peb page area) length).map parse ∧
      v.ReadsOnly (v.geometry.areaOffset peb page area) length reader
  begins : v.handle.Exact → length ≤ area.size.toNat → ∀ bytes, v.readArea peb page area = .ok bytes →
    (bytes.take length).length = length ∧ reader v = .ok (parse (bytes.take length))

theorem HoldsBlock.readsFront {α : Type} {length : Nat} {parse : List UInt8 → Option α}
    {reader : Volume → Outcome (Option α)} (h : v.HoldsBlock peb) (hpage : page < v.geometry.pagesPerPeb)
    (hreader : ∀ w : Volume, reader w = w.areaFront? peb page area length parse) :
    v.ReadsFront peb page area length parse reader where
  misfit hfits := by
    have hnone : reader v = .ok none := (hreader v).trans (areaFront?_of_not_fits hfits parse)
    refine ⟨hnone, fun read => ?_⟩
    rw [hnone, hreader]
    exact areaFront?_of_not_fits (v := v.answering read) hfits parse
  fit harea hlength := by
    have hfront := (hreader v).trans (h.areaFront?_eq hpage harea hlength parse)
    refine ⟨hfront, fun read hread => ?_⟩
    rw [hfront, hreader, (h.answering read).areaFront?_eq hpage harea hlength]
    exact congrArg (Except.map parse) (readBytes_answering hread)
  begins hexact hlength bytes hbytes := by
    have harea := contains_of_readArea hbytes
    rw [h.readArea_eq hpage harea, readBytes_eq_ok] at hbytes
    have hfront : v.readBytes peb (v.geometry.areaOffset peb page area) length = .ok (bytes.take length) :=
      readBytes_eq_ok.2 (hexact.read_take hbytes hlength)
    refine ⟨?_, by rw [hreader, h.areaFront?_eq hpage harea hlength, hfront]; rfl⟩
    rw [List.length_take, hexact.length_eq hbytes, Nat.min_eq_left hlength]

theorem footer?_eq (v : Volume) (peb page : Nat) (area : AreaDescriptor) :
    v.footer? peb page area = v.areaFront? peb page area LogFooter.format.size Sealed.parse? := by
  unfold footer? areaFront?
  rcases v.readAreaStart peb page area LogFooter.format.size with stop | bytes <;> rfl

theorem blockBitmapHeader?_eq {header : LogHeader} (harea : header.area? .blockBitmap = some area) (v : Volume)
    (peb page : Nat) : v.blockBitmapHeader? peb page header =
      v.areaFront? peb page area BlockBitmapHeader.format.size BlockBitmapHeader.format.read? := by
  unfold blockBitmapHeader? areaFront?
  simp only [harea]
  rcases v.readAreaStart peb page area BlockBitmapHeader.format.size with stop | bytes <;> rfl

theorem offsetsTableHeader?_eq {header : LogHeader} (harea : header.area? .offsetsTable = some area) (v : Volume)
    (peb page : Nat) : v.offsetsTableHeader? peb page header =
      v.areaFront? peb page area OffsetsTableHeader.format.size OffsetsTableHeader.format.read? := by
  unfold offsetsTableHeader? areaFront?
  simp only [harea]
  rcases v.readAreaStart peb page area OffsetsTableHeader.format.size with stop | bytes <;> rfl

/-- Such a reader of a record that nothing vouches for: in every area that has room for one it finds the record that
is written as the bytes there. -/
structure ReadsRecord {α : Type} (v : Volume) (peb page : Nat) (area : AreaDescriptor) (format : Format α)
    (reader : Volume → Outcome (Option α)) : Prop extends
    v.ReadsFront peb page area format.size format.read? reader where
  found : v.handle.Exact → format.size ≤ area.size.toNat → ∀ bytes, v.readArea peb page area = .ok bytes →
    ∃ record, reader v = .ok (some record) ∧ format.encode record = bytes.take format.size

theorem ReadsFront.readsRecord {α : Type} {format : Format α} {reader : Volume → Outcome (Option α)}
    (h : v.ReadsFront peb page area format.size format.read? reader) (hformat : format.Exact) :
    v.ReadsRecord peb page area format reader where
  toReadsFront := h
  found hexact hlength bytes hbytes := by
    obtain ⟨hfront, hreader⟩ := h.begins hexact hlength bytes hbytes
    obtain ⟨record, hread, hencode⟩ := Format.exists_read? hformat (Nat.le_of_eq hfront.symm)
    refine ⟨record, by rw [hreader, hread], ?_⟩
    rw [hencode, List.take_take, Nat.min_self]

/-- Reading an area of a log stays in its erase block, or is refused before the device is asked for anything. The
readers of the records at the front of an area bound it in the same way, and ask for the bytes of the record only. -/
theorem areas_contained {pebs : Nat} (hsize : v.handle.size < UInt64.size) (hpebs : v.pebsCount = .ok pebs)
    (hpeb : peb < pebs) (hpage : page < v.geometry.pagesPerPeb) (area : AreaDescriptor) :
    (v.geometry.Contains page area → v.ReadsArea peb page area) ∧
    (¬ v.geometry.Contains page area →
      v.readArea peb page area = .error (.fault (.region (area.misfit (v.geometry.logSpan page)))) ∧
        v.Unread (·.readArea peb page area)) ∧
    v.ReadsFront peb page area LogFooter.format.size Sealed.parse? (·.footer? peb page area) ∧
    (∀ header : LogHeader, header.area? .blockBitmap = some area →
      v.ReadsRecord peb page area BlockBitmapHeader.format (·.blockBitmapHeader? peb page header)) ∧
    ∀ header : LogHeader, header.area? .offsetsTable = some area →
      v.ReadsRecord peb page area OffsetsTableHeader.format (·.offsetsTableHeader? peb page header) := by
  have hholds : v.HoldsBlock peb := ⟨hasWhole_of_lt hpebs hpeb, hsize⟩
  refine ⟨hholds.readsArea hpage, fun hmisfit => ⟨readArea_of_not_contains hmisfit, fun read => ?_⟩, ?_,
    fun header harea => ?_, fun header harea => ?_⟩
  · exact (readArea_of_not_contains (v := v.answering read) hmisfit).trans (readArea_of_not_contains hmisfit).symm
  · exact hholds.readsFront hpage fun w => w.footer?_eq peb page area
  · exact (hholds.readsFront hpage fun w => blockBitmapHeader?_eq harea w peb page).readsRecord
      BlockBitmapHeader.exact_format
  · exact (hholds.readsFront hpage fun w => offsetsTableHeader?_eq harea w peb page).readsRecord
      OffsetsTableHeader.exact_format

/-! ## A footer that ends a device -/

namespace Closed

/-- Two erase blocks of 4 KiB in which nothing but the last record of the second one is written. -/
def bytes : List UInt8 := List.replicate 7424 0 ++ Sealed.encode (Sealed.sealWhole (LogFooter.fresh 1024 7))

def volume : Volume := ⟨.ofBytes ⟨bytes.toArray⟩, ⟨512, 4096, 4096, 1⟩⟩

/-- The last 768 of the 1024 bytes from page 6 to the end of its erase block. -/
def footerArea : AreaDescriptor := .ofRange 256 768

theorem size_eq : volume.handle.size = 8192 := by
  show bytes.length = 8192
  unfold bytes
  rw [List.length_append, List.length_replicate, Sealed.length_encode]
  rfl

end Closed

/-- The area at the end of a device is what is written there, and the footer is found in it. -/
theorem closed_contained : Closed.volume.geometry.Contains 6 Closed.footerArea ∧
    ∃ bytes, Closed.volume.readArea 1 6 Closed.footerArea = .ok bytes ∧ bytes.length = 768 ∧
      Closed.volume.footer? 1 6 Closed.footerArea = .ok (some (Sealed.sealWhole (LogFooter.fresh 1024 7))) := by
  have hpebs : Closed.volume.pebsCount = .ok 2 :=
    pebsCount_eq_ok.2 ⟨by decide, by rw [Closed.size_eq]; rfl⟩
  have hpeb : 1 < 2 := by decide
  have hpage : 6 < Closed.volume.geometry.pagesPerPeb := by decide
  obtain ⟨hwhole, -, hfooter, -⟩ :=
    areas_contained (by rw [Closed.size_eq]; decide) hpebs hpeb hpage Closed.footerArea
  have harea : Closed.volume.geometry.Contains 6 Closed.footerArea := by decide
  have hexact : Closed.volume.handle.Exact := Handle.exact_ofBytes _
  have hread := (hwhole harea).inMemory _ rfl
  obtain ⟨-, hfound⟩ := hfooter.begins hexact (by decide) _ hread
  refine ⟨harea, _, hread, (hwhole harea).length_eq hexact _ hread, hfound.trans ?_⟩
  have hdrop : bytesFrom ⟨Closed.bytes.toArray⟩ 7424 = Sealed.encode (Sealed.sealWhole (LogFooter.fresh 1024 7)) :=
    List.drop_left' List.length_replicate
  show Except.ok (Sealed.parse? (((bytesFrom ⟨Closed.bytes.toArray⟩ 7424).take 768).take 768)) = _
  rw [hdrop, List.take_take, Nat.min_self, ← List.append_nil (Sealed.encode _),
    Sealed.parse?_take (α := LogFooter) (Nat.le_refl 768), Sealed.parse?_encode,
    if_pos (Sealed.isValid_sealWhole (by decide))]

end Volume

end FlashVolume
