/-
What is put into an image is what is read from a volume with its bytes. A put changes the bytes of its own range and
no others; so puts that keep apart can be done in any order, and each of them is found again where it was put: the
sealed record by the reader of its kind, and the bytes of an area as they are.
-/
import FlashVolume.Image
import FlashVolume.Proofs.Volume.Areas

namespace FlashVolume

namespace Image

/-! ## One write -/

/-- The byte at a position, if the image goes that far. -/
def byte? (image : Image) (i : Nat) : Option UInt8 := image.bytes.data.toList[i]?

theorem eq_of_byte? {image image' : Image} (hgeometry : image.geometry = image'.geometry)
    (hbyte : ∀ i, image.byte? i = image'.byte? i) : image = image' := by
  obtain ⟨g, ⟨⟨bytes⟩⟩⟩ := image
  obtain ⟨g', ⟨⟨bytes'⟩⟩⟩ := image'
  cases hgeometry
  exact congrArg (fun bytes => Image.mk g ⟨⟨bytes⟩⟩) (List.ext_getElem? hbyte)

/-- The second image is the first one with some bytes written over it at an offset. -/
structure Written (image : Image) (offset : Nat) (data : List UInt8) (image' : Image) : Prop where
  geometry : image'.geometry = image.geometry
  size : image'.bytes.size = image.bytes.size
  inside : ∀ i, offset ≤ i → i < offset + data.length → image'.byte? i = data[i - offset]?
  outside : ∀ i, i < offset ∨ offset + data.length ≤ i → image'.byte? i = image.byte? i

/-- What is written over some bytes stands between those before and those behind it. -/
theorem put?_eq {image : Image} {offset : Nat} {data : List UInt8} (h : offset + data.length ≤ image.bytes.size) :
    image.put? offset data =
      some { image with
        bytes := ⟨(image.bytes.data.toList.take offset ++ (data ++
          image.bytes.data.toList.drop (offset + data.length))).toArray⟩ } := by
  have hdata : (ByteArray.mk data.toArray).size = data.length := List.size_toArray ..
  unfold put?
  simp only [hdata, if_pos h]
  congr 2
  apply ByteArray.ext
  apply Array.toList_inj.1
  unfold ByteArray.copySlice
  simp only [Array.toList_append, Array.toList_extract, List.extract_eq_take_drop, Nat.sub_zero, List.drop_zero,
    Nat.zero_add, List.take_length, List.size_toArray, Nat.min_self, List.append_assoc]
  rw [List.take_of_length_le (l := List.drop _ _) (by rw [List.length_drop]; rfl)]

theorem exists_put? {image : Image} {offset : Nat} {data : List UInt8}
    (h : offset + data.length ≤ image.bytes.size) :
    ∃ image', image.put? offset data = some image' ∧ image.Written offset data image' := by
  have hbefore : (image.bytes.data.toList.take offset).length = offset :=
    List.length_take_of_le (show offset ≤ image.bytes.size by omega)
  refine ⟨_, put?_eq h, rfl, ?_, fun i hle hlt => ?_, fun i hi => ?_⟩
  · show (List.toArray _).size = image.bytes.size
    have hold : image.bytes.data.toList.length = image.bytes.size := rfl
    rw [List.size_toArray, List.length_append, List.length_append, hbefore, List.length_drop, hold]
    omega
  · rw [byte?, List.getElem?_append_right (by omega), List.getElem?_append_left (by omega), hbefore]
  · rw [byte?, byte?]
    rcases hi with hi | hi
    · rw [List.getElem?_append_left (by omega), List.getElem?_take_of_lt hi]
    · rw [List.getElem?_append_right (by omega), List.getElem?_append_right (by omega), List.getElem?_drop, hbefore]
      congr 1
      omega

end Image

/-! ## Puts -/

/-- Something to put into an image: a record, which is sealed first, or the bytes of an area. Footers and areas go
`start` bytes behind the start of their log. -/
inductive Put
  | segment (peb page : Nat) (header : SegmentHeader)
  | partialLog (peb page : Nat) (header : PartialHeader)
  | footer (peb page : Nat) (start : UInt32) (record : LogFooter)
  | area (peb page : Nat) (start : UInt32) (data : List UInt8)

namespace Put

/-- The image with it put there, if it fits. -/
def onto? (image : Image) : Put → Option Image
  | segment peb page header => image.putSegment? peb page header
  | partialLog peb page header => image.putPartial? peb page header
  | footer peb page start record => image.putFooter? peb page start.toNat record
  | area peb page start data => image.putArea? peb page start.toNat data

/-- Where it goes. -/
def offset (g : Geometry) : Put → Nat
  | segment peb page _ | partialLog peb page _ => g.headerOffset peb page
  | footer peb page start _ | area peb page start _ => g.logOffset peb page + start.toNat

/-- What is written there. -/
def bytes : Put → List UInt8
  | segment _ _ header => Sealed.encode (Sealed.sealWhole header)
  | partialLog _ _ header => Sealed.encode (Sealed.sealWhole header)
  | footer _ _ _ record => Sealed.encode (Sealed.sealWhole record)
  | area _ _ _ data => data

/-- A record has the signature of its kind. -/
def Signed : Put → Prop
  | segment _ _ header => Sealed.isSigned header = true
  | partialLog _ _ header => Sealed.isSigned header = true
  | footer _ _ _ record => Sealed.isSigned record = true
  | area .. => True

/-- The image goes as far as what is put there. -/
def Fits (image : Image) (put : Put) : Prop := put.offset image.geometry + put.bytes.length ≤ image.bytes.size

/-- The position is one of those that are written. -/
def Covers (g : Geometry) (put : Put) (i : Nat) : Prop := put.offset g ≤ i ∧ i < put.offset g + put.bytes.length

/-- No position is written by both. -/
def Apart (g : Geometry) (put other : Put) : Prop := ∀ i, ¬ (put.Covers g i ∧ other.Covers g i)

/-- A volume gives back what was put there: the sealed record to the reader of its kind, and the bytes of an area
that is not empty and lies within its erase block. -/
def ReadBack (v : Volume) : Put → Prop
  | segment peb page header => v.segmentHeader? peb page = .ok (some (Sealed.sealWhole header))
  | partialLog peb page header => v.partialHeader? peb page = .ok (some (Sealed.sealWhole header))
  | footer peb page start record => start.toNat + 768 ≤ v.geometry.logSpan page →
    v.footer? peb page (.ofRange start 768) = .ok (some (Sealed.sealWhole record))
  | area peb page start data => data ≠ [] → start.toNat + data.length ≤ v.geometry.logSpan page →
    v.readArea peb page (.ofRange start data.length.toUInt32) = .ok data

theorem Apart.symm {g : Geometry} {put other : Put} (h : put.Apart g other) : other.Apart g put :=
  fun i hi => h i hi.symm

theorem onto?_eq (image : Image) (put : Put) : put.onto? image = image.put? (put.offset image.geometry) put.bytes := by
  cases put <;> rfl

end Put

namespace Image

variable {image built : Image} {puts : List Put}

/-- The image with all of them put there, one after the other. -/
def build? (image : Image) (puts : List Put) : Option Image := puts.foldlM Put.onto? image

/-- Each position that is written holds what was put there, and the others what they held before. -/
structure Laid (image : Image) (puts : List Put) (built : Image) : Prop where
  geometry : built.geometry = image.geometry
  size : built.bytes.size = image.bytes.size
  inside : ∀ put ∈ puts, ∀ i, put.Covers image.geometry i →
    built.byte? i = put.bytes[i - put.offset image.geometry]?
  outside : ∀ i, (∀ put ∈ puts, ¬ put.Covers image.geometry i) → built.byte? i = image.byte? i

/-- What is put first stays, if what is put later keeps apart from it. -/
theorem Laid.cons {put : Put} {next : Image}
    (hnext : image.Written (put.offset image.geometry) put.bytes next) (hbuilt : next.Laid puts built)
    (hapart : ∀ other ∈ puts, put.Apart image.geometry other) : image.Laid (put :: puts) built where
  geometry := hbuilt.geometry.trans hnext.geometry
  size := hbuilt.size.trans hnext.size
  inside := by
    rw [List.forall_mem_cons]
    refine ⟨fun i hi => ?_, fun other hother i hi => ?_⟩
    · have huncovered : ∀ other ∈ puts, ¬ other.Covers next.geometry i := by
        rw [hnext.geometry]
        exact fun other hother hcovers => hapart other hother i ⟨hi, hcovers⟩
      rw [hbuilt.outside i huncovered]
      exact hnext.inside i hi.1 hi.2
    · rw [← hnext.geometry] at hi ⊢
      exact hbuilt.inside other hother i hi
  outside i hi := by
    obtain ⟨hput, hputs⟩ := List.forall_mem_cons.1 hi
    rw [← hnext.geometry] at hputs
    rw [hbuilt.outside i hputs]
    refine hnext.outside i ?_
    unfold Put.Covers at hput
    omega

/-- Puts that fit and keep apart can all be done. -/
theorem exists_build? (hfits : ∀ put ∈ puts, put.Fits image) (hapart : puts.Pairwise (Put.Apart image.geometry)) :
    ∃ built, image.build? puts = some built ∧ image.Laid puts built := by
  induction puts generalizing image with
  | nil => exact ⟨image, rfl, rfl, rfl, nofun, fun _ _ => rfl⟩
  | cons put puts ih =>
    obtain ⟨hfit, hfits⟩ := List.forall_mem_cons.1 hfits
    obtain ⟨hput, hapart⟩ := List.pairwise_cons.1 hapart
    obtain ⟨next, hnext, hwritten⟩ := exists_put? hfit
    have hfits' : ∀ other ∈ puts, other.Fits next := by
      intro other hother
      unfold Put.Fits
      rw [hwritten.geometry, hwritten.size]
      exact hfits other hother
    obtain ⟨built, hbuilt, hlaid⟩ := ih hfits' (by rw [hwritten.geometry]; exact hapart)
    refine ⟨built, ?_, hlaid.cons hwritten hput⟩
    rw [build?, List.foldlM_cons, Put.onto?_eq, hnext]
    exact hbuilt

/-- Each position is accounted for. -/
theorem Laid.unique {other : Image} (h : image.Laid puts built) (h' : image.Laid puts other) : built = other := by
  refine eq_of_byte? (h.geometry.trans h'.geometry.symm) fun i => ?_
  by_cases hi : ∃ put ∈ puts, put.Covers image.geometry i
  · obtain ⟨put, hput, hcovers⟩ := hi
    rw [h.inside put hput i hcovers, h'.inside put hput i hcovers]
  · have huncovered : ∀ put ∈ puts, ¬ put.Covers image.geometry i := fun put hput hcovers => hi ⟨put, hput, hcovers⟩
    rw [h.outside i huncovered, h'.outside i huncovered]

theorem Laid.of_perm {order : List Put} (h : image.Laid order built) (hperm : order.Perm puts) :
    image.Laid puts built where
  geometry := h.geometry
  size := h.size
  inside put hput := h.inside put (hperm.mem_iff.2 hput)
  outside i hi := h.outside i fun put hput => hi put (hperm.mem_iff.1 hput)

/-- The order of puts that keep apart does not matter. -/
theorem build?_of_perm {order : List Put} (hfits : ∀ put ∈ puts, put.Fits image)
    (hapart : puts.Pairwise (Put.Apart image.geometry)) (hperm : order.Perm puts) :
    image.build? order = image.build? puts := by
  obtain ⟨built, hbuilt, hlaid⟩ := exists_build? hfits hapart
  obtain ⟨other, hother, hlaid'⟩ := exists_build? (fun put hput => hfits put (hperm.mem_iff.1 hput))
    ((hperm.pairwise_iff Put.Apart.symm).2 hapart)
  rw [hbuilt, hother, hlaid.unique (hlaid'.of_perm hperm)]

/-! ## Reading back -/

/-- From the offset of a put on the image holds what was put there. -/
theorem Laid.exists_bytesFrom {put : Put} (h : image.Laid puts built) (hput : put ∈ puts) :
    ∃ tail, Volume.bytesFrom built.bytes (put.offset image.geometry) = put.bytes ++ tail := by
  have hprefix : put.bytes <+: Volume.bytesFrom built.bytes (put.offset image.geometry) := by
    rw [List.prefix_iff_getElem?]
    intro i hi
    have hbyte := h.inside put hput (put.offset image.geometry + i) ⟨Nat.le_add_right .., Nat.add_lt_add_left hi _⟩
    rw [Nat.add_sub_cancel_left, List.getElem?_eq_getElem hi] at hbyte
    rw [Volume.bytesFrom, List.getElem?_drop]
    exact hbyte
  obtain ⟨tail, htail⟩ := hprefix
  exact ⟨tail, htail.symm⟩

end Image

namespace Volume

variable {bytes : ByteArray} {g : Geometry} {peb page : Nat} {area : AreaDescriptor}

/-- An area that the bytes go as far as is read from them. -/
theorem readArea_ofBytes (harea : g.Contains page area)
    (hroom : g.areaOffset peb page area + area.size.toNat ≤ bytes.size) (hsize : bytes.size < UInt64.size) :
    (mk (.ofBytes bytes) g).readArea peb page area =
      .ok ((bytesFrom bytes (g.areaOffset peb page area)).take area.size.toNat) := by
  have hstop : g.logOffset peb page + area.stop < UInt64.size := by
    unfold Geometry.areaOffset at hroom
    unfold AreaDescriptor.stop
    omega
  rw [readArea_of_contains harea hstop, readBytes_ofBytes, if_pos hroom]

/-- The footer in such an area is what the bytes begin with there. -/
theorem footer?_ofBytes (harea : g.Contains page area) (hfooter : LogFooter.format.size ≤ area.size.toNat)
    (hroom : g.areaOffset peb page area + area.size.toNat ≤ bytes.size) (hsize : bytes.size < UInt64.size) :
    (mk (.ofBytes bytes) g).footer? peb page area =
      .ok (Sealed.parse? (bytesFrom bytes (g.areaOffset peb page area))) := by
  have hstop : g.logOffset peb page + area.stop < UInt64.size := by
    unfold Geometry.areaOffset at hroom
    unfold AreaDescriptor.stop
    omega
  rw [footer?_eq, areaFront?_of_contains harea hstop hfooter, readBytes_ofBytes,
    if_pos (Nat.le_trans (Nat.add_le_add_left hfooter _) hroom)]
  exact congrArg Except.ok (Sealed.parse?_take (α := LogFooter) (Nat.le_refl _))

end Volume

namespace Image

variable {image built : Image} {puts : List Put}

/-- A signed record that was sealed is parsed from bytes that begin with its own. -/
theorem parse?_of_bytesFrom {α : Type} [Sealed α] [LawfulSealed α] {record : α} {bytes tail : List UInt8}
    (hsigned : Sealed.isSigned record = true) (h : bytes = Sealed.encode (Sealed.sealWhole record) ++ tail) :
    Sealed.parse? bytes = some (Sealed.sealWhole record) :=
  Sealed.parse?_eq_some.2 ⟨Sealed.isValid_sealWhole hsigned, tail, h⟩

/-- What was put into an image is read back from it. -/
theorem Laid.readBack {put : Put} (h : image.Laid puts built) (hput : put ∈ puts) (hfits : put.Fits image)
    (hsigned : put.Signed) (hg : image.geometry.Bounded) (hsize : image.bytes.size ≤ 2 ^ 63) :
    put.ReadBack ⟨.ofBytes built.bytes, image.geometry⟩ := by
  obtain ⟨tail, htail⟩ := h.exists_bytesFrom hput
  have hlength : put.offset image.geometry + put.bytes.length ≤ built.bytes.size := by
    rw [h.size]
    exact hfits
  have hwords : built.bytes.size < UInt64.size - 1 := by
    rw [h.size]
    exact Nat.lt_of_le_of_lt hsize (by decide)
  cases put with
  | segment peb page header =>
    rw [Put.bytes, Sealed.length_encode] at hlength
    exact (Volume.segmentHeader?_ofBytes built.bytes (Nat.lt_of_le_of_lt hlength hwords)).trans
      (congrArg Except.ok (parse?_of_bytesFrom hsigned htail))
  | partialLog peb page header =>
    rw [Put.bytes, Sealed.length_encode] at hlength
    exact (Volume.partialHeader?_ofBytes built.bytes (Nat.lt_of_le_of_lt hlength hwords)).trans
      (congrArg Except.ok (parse?_of_bytesFrom hsigned htail))
  | footer peb page start record =>
    intro hspan
    rw [Put.bytes, Sealed.length_encode] at hlength
    have harea : image.geometry.Contains page (.ofRange start 768) :=
      ⟨show 0 < (768 : UInt32).toNat by decide, hspan⟩
    exact (Volume.footer?_ofBytes harea (Nat.le_refl 768) hlength (by omega)).trans
      (congrArg Except.ok (parse?_of_bytesFrom hsigned htail))
  | area peb page start data =>
    intro hne hspan
    -- An area within an erase block is not too large for a descriptor.
    have hdata : data.length.toUInt32.toNat = data.length := by
      have hle : image.geometry.logSpan page ≤ image.geometry.eraseSize := Nat.sub_le ..
      have herase := hg.eraseSize_le
      have hsmall : data.length < UInt32.size := by
        have : (2 : Nat) ^ 31 < UInt32.size := by decide
        simp only at hspan
        omega
      exact UInt32.toNat_ofNat_of_lt' hsmall
    have harea : image.geometry.Contains page (.ofRange start data.length.toUInt32) := by
      refine ⟨?_, ?_⟩
      · show 0 < data.length.toUInt32.toNat
        rw [hdata]
        exact List.length_pos_iff.2 hne
      · show start.toNat + data.length.toUInt32.toNat ≤ _
        rw [hdata]
        exact hspan
    have hroom : image.geometry.areaOffset peb page (.ofRange start data.length.toUInt32) +
        data.length.toUInt32.toNat ≤ built.bytes.size := by
      rw [hdata]
      exact hlength
    refine (Volume.readArea_ofBytes harea hroom (by omega)).trans (congrArg Except.ok ?_)
    show (Volume.bytesFrom built.bytes _).take data.length.toUInt32.toNat = data
    rw [hdata]
    exact (congrArg (List.take data.length) htail).trans List.take_left

/-- What is put into an image is what is found in it. Puts that fit and keep apart can all be done, in any order
with the same outcome; on a device of its bytes each sealed record is then found by the reader of its kind, and each
area holds what was put there; and the bytes that none of them covers are as they were. An image is held in memory,
which has room for `2 ^ 63` bytes at most. -/
theorem build?_readBack {logPage logErase logSegment logPebs : Nat}
    (hg : Geometry.ofLogs? logPage logErase logSegment logPebs = some image.geometry)
    (hsize : image.bytes.size ≤ 2 ^ 63) (hfits : ∀ put ∈ puts, put.Fits image) (hsigned : ∀ put ∈ puts, put.Signed)
    (hapart : puts.Pairwise (Put.Apart image.geometry)) :
    ∃ built, image.build? puts = some built ∧ built.geometry = image.geometry ∧
      built.bytes.size = image.bytes.size ∧
      (∀ put ∈ puts, put.ReadBack ⟨(Device.ofBytes built.bytes).handle, built.geometry⟩) ∧
      (∀ i, (∀ put ∈ puts, ¬ put.Covers image.geometry i) → built.byte? i = image.byte? i) ∧
      ∀ order : List Put, order.Perm puts → image.build? order = some built := by
  obtain ⟨built, hbuilt, hlaid⟩ := exists_build? hfits hapart
  refine ⟨built, hbuilt, hlaid.geometry, hlaid.size, fun put hput => ?_, hlaid.outside, fun order hperm => ?_⟩
  · rw [hlaid.geometry]
    exact hlaid.readBack hput (hfits put hput) (hsigned put hput) (Geometry.bounded_of_ofLogs? hg) hsize
  · rw [build?_of_perm hfits hapart hperm, hbuilt]

/-! ## The first log of a volume -/

/-- An image of two erase blocks of eight pages each. -/
def narrow : Image := .zero ⟨512, 4096, 4096, 1⟩ 2

/-- The first log of the volume with an area in front of its header, which lies behind the boot record, and a footer
behind it; and a partial log on the last page of the other erase block. -/
def firstLog : List Put :=
  [.segment 0 0 (.fresh narrow.geometry .initialSnapshot 8 7), .area 0 0 256 [1, 2, 3],
    .footer 0 0 2048 (.fresh 4096 7), .partialLog 1 7 (.fresh narrow.geometry .superblock 8 512 7)]

/-- The header and the footer are found sealed, and so is the header of the other log; the area is read as it is; and
the boot record in front of the area stays empty. -/
theorem firstLog_readBack : ∃ built, narrow.build? firstLog = some built ∧
    narrow.build? firstLog.reverse = some built ∧ built.byte? 0 = some 0 ∧
    let volume : Volume := ⟨(Device.ofBytes built.bytes).handle, narrow.geometry⟩
    volume.segmentHeader? 0 0 =
        .ok (some (Sealed.sealWhole (.fresh narrow.geometry .initialSnapshot 8 7))) ∧
      volume.readArea 0 0 (.ofRange 256 3) = .ok [1, 2, 3] ∧
      volume.footer? 0 0 (.ofRange 2048 768) = .ok (some (Sealed.sealWhole (.fresh 4096 7))) ∧
      volume.partialHeader? 1 7 =
        .ok (some (Sealed.sealWhole (.fresh narrow.geometry .superblock 8 512 7))) := by
  have hsize : narrow.bytes.size = 8192 := Array.size_replicate ..
  -- Where they go, and how long they are.
  have hranges : firstLog.map (fun put => (put.offset narrow.geometry, put.bytes.length)) =
      [(1024, 768), (256, 3), (2048, 768), (7680, 512)] := by
    simp only [firstLog, List.map_cons, List.map_nil, Put.bytes, Sealed.length_encode]
    decide
  have hranged {P : Nat × Nat → Prop}
      (h : ∀ range ∈ [(1024, 768), (256, 3), (2048, 768), (7680, 512)], P range) {put : Put} (hput : put ∈ firstLog) :
      P (put.offset narrow.geometry, put.bytes.length) :=
    h _ (hranges ▸ List.mem_map_of_mem hput)
  have hfits : ∀ put ∈ firstLog, put.Fits narrow := fun put hput => by
    unfold Put.Fits
    rw [hsize]
    exact hranged (P := fun range => range.1 + range.2 ≤ 8192) (by decide) hput
  have hsigned : ∀ put ∈ firstLog, put.Signed := by
    simp only [firstLog, List.forall_mem_cons, Put.Signed]
    exact ⟨by decide, trivial, by decide, by decide, nofun⟩
  have hapart : firstLog.Pairwise (Put.Apart narrow.geometry) := by
    have hdisjoint : (firstLog.map fun put => (put.offset narrow.geometry, put.bytes.length)).Pairwise
        fun a b => a.1 + a.2 ≤ b.1 ∨ b.1 + b.2 ≤ a.1 := by
      rw [hranges]
      decide
    refine (List.pairwise_map.1 hdisjoint).imp fun h i hi => ?_
    unfold Put.Covers at hi
    omega
  obtain ⟨built, hbuilt, hgeometry, -, hread, houtside, horder⟩ := build?_readBack
    (show Geometry.ofLogs? 9 12 12 0 = some narrow.geometry by decide) (by rw [hsize]; decide) hfits hsigned hapart
  rw [hgeometry] at hread
  simp only [firstLog, List.forall_mem_cons] at hread
  obtain ⟨hsegment, harea, hfooter, hpartial, -⟩ := hread
  refine ⟨built, hbuilt, horder _ (List.reverse_perm _), ?_, hsegment,
    harea (by decide) (show 256 + 3 ≤ narrow.geometry.logSpan 0 by decide),
    hfooter (show 2048 + 768 ≤ narrow.geometry.logSpan 0 by decide), hpartial⟩
  have huncovered : ∀ put ∈ firstLog, ¬ put.Covers narrow.geometry 0 := fun put hput hcovers =>
    absurd hcovers.1 (Nat.not_le.2 (hranged (P := fun range => 0 < range.1) (by decide) hput))
  rw [houtside 0 huncovered]
  rfl

end Image

end FlashVolume
