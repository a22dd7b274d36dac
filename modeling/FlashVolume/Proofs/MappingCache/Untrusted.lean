/-
Parsing a mapping cache from bytes nobody vouches for. Whatever an area holds, the parser never looks past its
end and gets at least a header further with each fragment; the fragments it has parsed are the decodings of
what lies one behind the other from the start of the area, and it comes to an end just where no signed header
follows, or at a fragment of which it reports the first thing that is wrong with it.
-/
import FlashVolume.Proofs.MappingCache.Parse
import FlashVolume.Proofs.Zlib.Stream

namespace FlashVolume

/-! ## Fragments as they are found -/

/-- Stored bytes stand for these ones: they are their compression, or the bytes themselves. -/
def CacheHeader.Decodes (header : CacheHeader) (stored bytes : List UInt8) : Prop :=
  if header.isZlib = true then Zlib.inflate stored = .ok bytes else stored = bytes

/-- A fragment in an area: its header, the bytes stored behind it and the pairs they stand for. -/
structure FoundFragment where
  header : CacheHeader
  stored : List UInt8
  pairs : List LebPeb

namespace FoundFragment

/-- The bytes of the fragment. -/
def bytes (f : FoundFragment) : List UInt8 := CacheHeader.format.encode f.header ++ f.stored

/-- What the stored bytes decode to. -/
def packed (f : FoundFragment) : List UInt8 := f.pairs.flatMap LebPeb.format.encode

/-- What is parsed of the fragment. -/
def fragment (f : FoundFragment) : CacheFragment :=
  ⟨f.header.sequenceId, f.header.startLeb, f.header.endLeb, f.pairs⟩

/-- Nothing is wrong with the fragment as the one with a number: it is signed and numbered so, its logical
blocks are a range, as many bytes are stored as its header says, and they decode to as many pairs. -/
structure Sound (f : FoundFragment) (index : Nat) : Prop where
  signed : f.header.isValid = true
  number : f.header.sequenceId.toNat = index
  range : f.header.startLeb ≤ f.header.endLeb
  stored : f.stored.length = f.header.bytesCount.toNat
  supported : f.header.isLzo = false
  decodes : f.header.Decodes f.stored f.packed
  packed : f.packed.length = 16 * f.header.itemsCount.toNat

theorem Sound.length_bytes {f : FoundFragment} {index : Nat} (h : f.Sound index) :
    f.bytes.length = 32 + f.header.bytesCount.toNat := by
  unfold bytes
  rw [List.length_append, CacheHeader.exact_format.length_encode, CacheHeader.size_format, h.stored]

end FoundFragment

namespace MappingCache

variable {area : List UInt8} {offset index : Nat} {header : CacheHeader} {fragment : CacheFragment}

/-! ## Defects -/

/-- The bytes stored behind a header that lies at an offset of an area, as far as the area goes. -/
def storedAt (area : List UInt8) (offset : Nat) (header : CacheHeader) : List UInt8 :=
  (area.drop (offset + 32)).take header.bytesCount.toNat

/-- What is decoded of the stored bytes to tell whether a fragment is sound: of compressed ones, no more than
one byte more than there should be. -/
def decodeAt (area : List UInt8) (offset : Nat) (header : CacheHeader) : Except Zlib.Fault (List UInt8) :=
  if header.isZlib = true then
    Zlib.inflateAtMost (16 * header.itemsCount.toNat + 1) (storedAt area offset header)
  else .ok (storedAt area offset header)

/-- What can be wrong with a fragment. -/
inductive Defect
  | surplus
  | misnumbered
  | reversed
  | overrun
  | lzo
  | undecodable
  | missized

namespace Defect

/-- The order in which defects are looked for. -/
def order : List Defect := [surplus, misnumbered, reversed, overrun, lzo, undecodable, missized]

/-- The fragment behind a header that lies at an offset of an area, where the fragment of a number is expected,
has a defect, which is reported as a fault. -/
def Shows (area : List UInt8) (offset index : Nat) (header : CacheHeader) : Defect → Fault → Prop
  | surplus, fault => 16 ≤ index ∧ fault = .tooManyFragments 16
  | misnumbered, fault =>
    header.sequenceId.toNat ≠ index ∧ fault = .fragmentSequence index header.sequenceId.toNat
  | reversed, fault => header.endLeb < header.startLeb ∧
    fault = .fragmentRange header.sequenceId.toNat header.startLeb.toNat header.endLeb.toNat
  | overrun, fault => area.length < offset + 32 + header.bytesCount.toNat ∧
    fault = .region (.outOfBounds (offset + 32) header.bytesCount.toNat area.length)
  | lzo, fault => header.isLzo = true ∧ fault = .lzoCache
  | undecodable, fault => ∃ cause, decodeAt area offset header = .error cause ∧
    (∀ bytes, ¬ header.Decodes (storedAt area offset header) bytes) ∧ fault = .inflate cause
  | missized, fault => ∃ decoded, decodeAt area offset header = .ok decoded ∧
    decoded.length ≠ 16 * header.itemsCount.toNat ∧
    (∀ bytes, header.Decodes (storedAt area offset header) bytes →
      bytes.length ≠ 16 * header.itemsCount.toNat) ∧
    fault = .fragmentLength header.sequenceId.toNat decoded.length (16 * header.itemsCount.toNat)

end Defect

/-- The first of some defects that a fragment has is reported as this fault. -/
inductive FirstDefect (area : List UInt8) (offset index : Nat) (header : CacheHeader) (fault : Fault) :
    List Defect → Prop
  | here {defect : Defect} {rest : List Defect} :
    defect.Shows area offset index header fault → FirstDefect area offset index header fault (defect :: rest)
  | later {defect : Defect} {rest : List Defect} : (∀ other, ¬ defect.Shows area offset index header other) →
    FirstDefect area offset index header fault rest → FirstDefect area offset index header fault (defect :: rest)

/-! ## Payloads -/

/-- A range that is found to lie within an area is one that can be taken out of it. -/
theorem slice_of_within {size : Nat} {region : Region} (h : Region.within area.length offset size = .ok region) :
    offset + size ≤ area.length ∧ region.slice area = .ok ((area.drop offset).take size) := by
  obtain ⟨-, hfits, rfl⟩ := Region.within_eq_ok_iff.1 h
  refine ⟨hfits, ?_⟩
  unfold Region.slice Region.size
  rw [if_pos ⟨Nat.le_add_right .., hfits⟩, Nat.add_sub_cancel_left]

/-- The payload is what is stored behind its header, if the area does not end before. -/
theorem payload_eq (h : offset + 32 ≤ area.length) :
    payload area (offset + CacheHeader.format.size) header.bytesCount.toNat =
      if offset + 32 + header.bytesCount.toNat ≤ area.length then .ok (storedAt area offset header)
      else .error (.region (.outOfBounds (offset + 32) header.bytesCount.toNat area.length)) := by
  rw [CacheHeader.size_format]
  unfold payload
  by_cases hzero : header.bytesCount.toNat = 0
  · unfold storedAt
    rw [if_pos hzero, hzero, if_pos (by omega), List.take_zero]
  rw [if_neg hzero]
  by_cases hfits : offset + 32 + header.bytesCount.toNat ≤ area.length
  · have hwithin := Region.within_eq_ok_iff.2 ⟨hzero, hfits, rfl⟩
    rw [if_pos hfits, hwithin]
    simp only [(slice_of_within hwithin).2, storedAt]
  · unfold Region.within
    rw [if_neg hfits, if_neg hzero, if_neg hfits]

theorem decodedSize_eq (header : CacheHeader) : header.decodedSize = 16 * header.itemsCount.toNat :=
  Nat.mul_comm _ 16

/-- A compressed payload is asked for one byte more than is declared. -/
theorem decodePayload_of_zlib (hzlib : header.isZlib = true) (hlzo : header.isLzo = false) (stored : List UInt8) :
    decodePayload header stored =
      (Zlib.inflateAtMost (16 * header.itemsCount.toNat + 1) stored).mapError Fault.inflate := by
  unfold decodePayload
  rw [hlzo, if_neg Bool.false_ne_true, if_pos hzlib, decodedSize_eq]
  cases Zlib.inflateAtMost (16 * header.itemsCount.toNat + 1) stored <;> rfl

/-- Stored bytes are decoded unless they are compressed in a way that is not supported. -/
theorem decodePayload_storedAt (h : header.isLzo = false) :
    decodePayload header (storedAt area offset header) =
      (decodeAt area offset header).mapError Fault.inflate := by
  unfold decodeAt
  by_cases hzlib : header.isZlib = true
  · rw [if_pos hzlib, decodePayload_of_zlib hzlib h]
  · unfold decodePayload
    rw [h, if_neg Bool.false_ne_true, if_neg hzlib, if_neg hzlib]
    rfl

/-- No more is decoded than one byte more than there should be. -/
theorem decodeAt_of_decodes {bytes : List UInt8} (h : header.Decodes (storedAt area offset header) bytes) :
    ∃ decoded, decodeAt area offset header = .ok decoded ∧
      (bytes.length = 16 * header.itemsCount.toNat → decoded = bytes) := by
  unfold CacheHeader.Decodes at h
  unfold decodeAt
  split at h
  · rw [if_pos ‹_›, Zlib.inflateAtMost_eq_take h]
    refine ⟨_, rfl, fun hlength => List.take_of_length_le ?_⟩
    omega
  · rw [if_neg ‹_›]
    exact ⟨_, rfl, fun _ => h⟩

/-- Where as much is decoded as there should be, it is all that is stored. -/
theorem decodes_of_decodeAt {decoded : List UInt8} (h : decodeAt area offset header = .ok decoded)
    (hlength : decoded.length = 16 * header.itemsCount.toNat) :
    header.Decodes (storedAt area offset header) decoded := by
  unfold decodeAt at h
  unfold CacheHeader.Decodes
  split at h
  · rw [if_pos ‹_›]
    exact Zlib.inflate_of_inflateAtMost h (by omega)
  · rw [if_neg ‹_›]
    cases h
    rfl

/-- A fragment that is not parsed is reported for the first defect it has. -/
theorem firstDefect_of_parseFragment {fault : Fault} (hoffset : offset + 32 ≤ area.length)
    (h : parseFragment area offset index header = .error fault) :
    FirstDefect area offset index header fault Defect.order := by
  unfold parseFragment at h
  simp only [throw, throwThe, MonadExceptOf.throw] at h
  by_cases hindex : maxFragments ≤ index
  · rw [if_pos hindex] at h
    cases h
    exact .here ⟨hindex, rfl⟩
  refine .later (fun _ shows => hindex shows.1) ?_
  rw [if_neg hindex] at h
  by_cases hid : header.sequenceId.toNat ≠ index
  · rw [if_pos hid] at h
    cases h
    exact .here ⟨hid, rfl⟩
  refine .later (fun _ shows => hid shows.1) ?_
  rw [if_neg hid] at h
  by_cases hrange : header.endLeb < header.startLeb
  · rw [if_pos hrange] at h
    cases h
    exact .here ⟨hrange, rfl⟩
  refine .later (fun _ shows => hrange shows.1) ?_
  rw [if_neg hrange, payload_eq hoffset] at h
  by_cases hfits : area.length < offset + 32 + header.bytesCount.toNat
  · rw [if_neg (Nat.not_le.2 hfits)] at h
    cases h
    exact .here ⟨hfits, rfl⟩
  refine .later (fun _ shows => hfits shows.1) ?_
  rw [if_pos (Nat.le_of_not_lt hfits)] at h
  obtain hcause | ⟨stored, hstored, h⟩ := Outcome.bind_eq_error.1 h
  · cases hcause
  cases hstored
  by_cases hlzo : header.isLzo = true
  · rw [show decodePayload header (storedAt area offset header) = .error .lzoCache from if_pos hlzo] at h
    cases h
    exact .here ⟨hlzo, rfl⟩
  refine .later (fun _ shows => hlzo shows.1) ?_
  rw [decodePayload_storedAt (Bool.eq_false_iff.2 hlzo)] at h
  rcases hdecode : decodeAt area offset header with cause | decoded
  · rw [hdecode] at h
    cases h
    refine .here ⟨cause, hdecode, fun bytes hbytes => ?_, rfl⟩
    obtain ⟨decoded, hdecoded, -⟩ := decodeAt_of_decodes hbytes
    rw [hdecode] at hdecoded
    cases hdecoded
  rw [hdecode] at h
  refine .later ?_ ?_
  · rintro _ ⟨cause, hcause, -⟩
    rw [hdecode] at hcause
    cases hcause
  obtain hcause | ⟨bytes, hbytes, h⟩ := Outcome.bind_eq_error.1 h
  · cases hcause
  cases hbytes
  rw [decodedSize_eq] at h
  by_cases hlength : decoded.length = 16 * header.itemsCount.toNat
  · rw [if_neg (not_not.2 hlength)] at h
    cases h
  · rw [if_pos hlength] at h
    cases h
    refine .here ⟨decoded, hdecode, hlength, fun bytes hbytes hsize => hlength ?_, rfl⟩
    obtain ⟨all, hall, hsame⟩ := decodeAt_of_decodes hbytes
    rw [hdecode] at hall
    cases hall
    rw [hsame hsize, hsize]

/-- A fragment that is parsed has none of the defects. -/
theorem of_parseFragment (hoffset : offset + 32 ≤ area.length)
    (h : parseFragment area offset index header = .ok fragment) :
    index < 16 ∧ header.sequenceId.toNat = index ∧ header.startLeb ≤ header.endLeb ∧
      offset + 32 + header.bytesCount.toNat ≤ area.length ∧ header.isLzo = false ∧
      ∃ decoded, decodeAt area offset header = .ok decoded ∧
        decoded.length = 16 * header.itemsCount.toNat ∧
        fragment = ⟨header.sequenceId, header.startLeb, header.endLeb,
          LebPeb.format.readAll header.itemsCount.toNat decoded⟩ := by
  obtain ⟨hindex, hnumber, hrange, stored, bytes, hstored, hbytes, hlength, hfragment⟩ :=
    parseFragment_eq_ok.1 h
  rw [payload_eq hoffset] at hstored
  by_cases hfits : offset + 32 + header.bytesCount.toNat ≤ area.length
  case neg =>
    rw [if_neg hfits] at hstored
    cases hstored
  rw [if_pos hfits] at hstored
  cases hstored
  by_cases hlzo : header.isLzo = true
  · rw [show decodePayload header (storedAt area offset header) = .error .lzoCache from if_pos hlzo] at hbytes
    cases hbytes
  rw [Bool.not_eq_true] at hlzo
  rw [decodePayload_storedAt hlzo] at hbytes
  rcases hdecode : decodeAt area offset header with cause | decoded <;> rw [hdecode] at hbytes <;>
    cases hbytes
  rw [decodedSize_eq] at hlength
  exact ⟨hindex, hnumber, hrange, hfits, hlzo, bytes, rfl, hlength, hfragment⟩

/-! ## Found fragments -/

/-- A fragment that is parsed is a sound one that lies there. -/
theorem exists_sound (hread : CacheHeader.format.read? (area.drop offset) = some header)
    (hvalid : header.isValid = true) (h : parseFragment area offset index header = .ok fragment) :
    ∃ found : FoundFragment, found.Sound index ∧ found.header = header ∧ found.fragment = fragment ∧
      area.drop offset = found.bytes ++ area.drop (offset + 32 + header.bytesCount.toNat) := by
  have hoffset : offset + 32 ≤ area.length := CacheHeader.size_format ▸ size_le_of_read? hread
  obtain ⟨-, hnumber, hrange, hfits, hlzo, decoded, hdecode, hlength, rfl⟩ := of_parseFragment hoffset h
  have hsize : header.itemsCount.toNat * LebPeb.format.size = decoded.length :=
    (Nat.mul_comm _ 16).trans hlength.symm
  have hpacked := (LebPeb.format.readAll_spec LebPeb.exact_format (Nat.le_of_eq hsize)).2
  rw [hsize, List.take_length] at hpacked
  refine ⟨⟨header, storedAt area offset header, LebPeb.format.readAll header.itemsCount.toNat decoded⟩,
    ⟨hvalid, hnumber, hrange, ?_, hlzo, ?_, ?_⟩, rfl, rfl, ?_⟩
  · show ((area.drop (offset + 32)).take header.bytesCount.toNat).length = header.bytesCount.toNat
    rw [List.length_take_of_le (by rw [List.length_drop]; omega)]
  · show header.Decodes (storedAt area offset header) (List.flatMap _ _)
    rw [hpacked]
    exact decodes_of_decodeAt hdecode hlength
  · show (List.flatMap _ _).length = 16 * header.itemsCount.toNat
    rw [hpacked, hlength]
  · -- The header, what is stored behind it, and what follows.
    obtain ⟨rest, hrest⟩ := (Format.read?_eq_some CacheHeader.exact_format).1 hread
    have hlater : area.drop (offset + 32) = rest := by
      rw [← List.drop_drop, hrest, ← CacheHeader.size_format, ← CacheHeader.exact_format.length_encode header,
        List.drop_left]
    show area.drop offset = (CacheHeader.format.encode header ++ storedAt area offset header) ++ _
    rw [List.append_assoc, hrest, ← List.drop_drop, storedAt, hlater, List.take_append_drop]

/-- Where no signed header can be read, the run ends. -/
theorem endsRun_of_read? {tail : List UInt8}
    (h : ∀ header, CacheHeader.format.read? tail = some header → header.isValid = false) : EndsRun tail := by
  rcases Nat.lt_or_ge tail.length CacheHeader.format.size with hshort | hlong
  · exact .inl hshort
  refine .inr fun signature hsignature => ?_
  obtain ⟨header, hread, -⟩ := Format.exists_read? CacheHeader.exact_format hlong
  obtain ⟨rest, hrest⟩ := (Format.read?_eq_some CacheHeader.exact_format).1 hread
  have hsame : Signature.format.read? tail = some header.signature :=
    (Format.read?_eq_some Signature.exact_format).2 ⟨_, hrest.trans (List.append_assoc ..)⟩
  rw [hsignature] at hsame
  cases hsame
  exact h header hread

/-- How a run ends behind the fragments that were found: all of them are parsed and no signed header follows,
or one follows, and the first defect of its fragment is reported. -/
def EndsWith (area : List UInt8) (offset index : Nat) (found : List FoundFragment) (rest : List UInt8) :
    Except Fault (List CacheFragment) → Prop
  | .ok fragments => fragments = found.map FoundFragment.fragment ∧ EndsRun rest
  | .error fault => ∃ header after, rest = CacheHeader.format.encode header ++ after ∧
    header.isValid = true ∧
    FirstDefect area (offset + (found.flatMap FoundFragment.bytes).length) (index + found.length) header fault
      Defect.order

/-- What a run that starts at an offset, with a fragment of a number, finds, what follows that, and how it
ends. -/
structure Finds (area : List UInt8) (offset index : Nat) (found : List FoundFragment) (rest : List UInt8)
    (outcome : Except Fault (List CacheFragment)) : Prop where
  lies : area.drop offset = found.flatMap FoundFragment.bytes ++ rest
  count : index + found.length ≤ 16
  sound : ∀ i (h : i < found.length), found[i].Sound (index + i)
  ends : EndsWith area offset index found rest outcome

/-- A run finds what the rest of it finds behind its first fragment. -/
theorem Finds.cons {f : FoundFragment} {found : List FoundFragment} {rest : List UInt8}
    {outcome : Except Fault (List CacheFragment)}
    (hlies : area.drop offset = f.bytes ++ area.drop (offset + f.bytes.length)) (hsound : f.Sound index)
    (h : Finds area (offset + f.bytes.length) (index + 1) found rest outcome) :
    Finds area offset index (f :: found) rest (outcome.map (f.fragment :: ·)) where
  lies := by rw [List.flatMap_cons, List.append_assoc, ← h.lies, ← hlies]
  count := by
    have := h.count
    rw [List.length_cons]
    omega
  sound
    | 0, _ => hsound
    | i + 1, hi => by
      have := h.sound i (Nat.lt_of_succ_lt_succ hi)
      rwa [Nat.add_right_comm] at this
  ends := by
    have hends := h.ends
    rcases outcome with fault | fragments
    · obtain ⟨header, after, hrest, hvalid, hfirst⟩ := hends
      refine ⟨header, after, hrest, hvalid, ?_⟩
      rwa [List.flatMap_cons, List.length_append, List.length_cons, ← Nat.add_assoc, ← Nat.add_assoc,
        Nat.add_right_comm index]
    · exact ⟨congrArg (f.fragment :: ·) hends.1, hends.2⟩

/-- The run stops at a fragment that is not parsed. -/
theorem parseFrom_error {fault : Fault} (hread : CacheHeader.format.read? (area.drop offset) = some header)
    (hvalid : header.isValid = true) (hfragment : parseFragment area offset index header = .error fault) :
    parseFrom area offset index = .error fault := by
  rw [parseFrom]
  split
  · rename_i hnone
    rw [hread] at hnone
    cases hnone
  · rename_i other hother
    rw [hread] at hother
    cases hother
    rw [if_pos hvalid]
    simp only [hfragment]

/-- From any offset on, a run finds sound fragments one behind the other, and ends as it should behind them. -/
theorem exists_finds (area : List UInt8) (offset index : Nat) (hindex : index ≤ 16) :
    ∃ found rest, Finds area offset index found rest (parseFrom area offset index) := by
  -- By the bytes that are left: each fragment takes some of them.
  induction hn : area.length - offset using Nat.strongRecOn generalizing offset index with
  | ind n ih =>
    subst hn
    have hnil {outcome} (hends : EndsWith area offset index [] (area.drop offset) outcome) :
        Finds area offset index [] (area.drop offset) outcome := ⟨rfl, hindex, nofun, hends⟩
    by_cases hsigned : ∃ header, CacheHeader.format.read? (area.drop offset) = some header ∧
      header.isValid = true
    case neg =>
      have hunsigned header (hread : CacheHeader.format.read? (area.drop offset) = some header) :
          header.isValid = false := by
        by_contra hvalid
        exact hsigned ⟨header, hread, Bool.not_eq_false _ ▸ hvalid⟩
      rw [parseFrom_end hunsigned]
      exact ⟨_, _, hnil ⟨rfl, endsRun_of_read? hunsigned⟩⟩
    obtain ⟨header, hread, hvalid⟩ := hsigned
    have hoffset := size_le_of_read? hread
    rw [CacheHeader.size_format] at hoffset
    rcases hfragment : parseFragment area offset index header with fault | fragment
    · rw [parseFrom_error hread hvalid hfragment]
      obtain ⟨after, hafter⟩ := (Format.read?_eq_some CacheHeader.exact_format).1 hread
      exact ⟨_, _, hnil ⟨header, after, hafter, hvalid, firstDefect_of_parseFragment hoffset hfragment⟩⟩
    · obtain ⟨hcount, -⟩ := of_parseFragment hoffset hfragment
      obtain ⟨f, hsound, rfl, rfl, hlies⟩ := exists_sound hread hvalid hfragment
      have hnext : offset + 32 + f.header.bytesCount.toNat = offset + f.bytes.length := by
        rw [hsound.length_bytes, Nat.add_assoc]
      rw [parseFrom_fragment hread hvalid hfragment, CacheHeader.size_format, hnext]
      rw [hnext] at hlies
      obtain ⟨found, rest, hfinds⟩ := ih _ (by rw [hsound.length_bytes]; omega)
        (offset + f.bytes.length) (index + 1) hcount rfl
      exact ⟨_, _, hfinds.cons hlies hsound⟩

/-! ## Where a run comes by -/

/-- A run over an area comes to an offset, where it expects the fragment of a number. -/
inductive Visits (area : List UInt8) : Nat → Nat → Prop
  | start : Visits area 0 0
  | next {offset index : Nat} {header : CacheHeader} {fragment : CacheFragment} : Visits area offset index →
    CacheHeader.format.read? (area.drop offset) = some header → header.isValid = true →
    parseFragment area offset index header = .ok fragment →
    Visits area (offset + CacheHeader.format.size + header.bytesCount.toNat) (index + 1)

/-- Each fragment takes at least a header, and none reaches past the end of the area. -/
theorem Visits.bounds (h : Visits area offset index) : 32 * index ≤ offset ∧ offset ≤ area.length := by
  induction h with
  | start => exact ⟨Nat.le_refl 0, Nat.zero_le _⟩
  | next _ hread hvalid hfragment ih =>
    have hoffset := size_le_of_read? hread
    rw [CacheHeader.size_format] at hoffset ⊢
    obtain ⟨-, -, -, hfits, -⟩ := of_parseFragment hoffset hfragment
    exact ⟨by omega, hfits⟩

/-- What an area holds is what was parsed up to an offset that the run comes to, and what is parsed from
there. -/
theorem Visits.parse_eq (h : Visits area offset index) : ∃ before, before.length = index ∧
    parse area = (parseFrom area offset index).map fun fragments => ⟨before ++ fragments⟩ := by
  induction h with
  | start =>
    refine ⟨[], rfl, ?_⟩
    unfold parse
    rcases parseFrom area 0 0 with fault | fragments <;> rfl
  | @next _ _ _ fragment _ hread hvalid hfragment ih =>
    obtain ⟨before, rfl, hparse⟩ := ih
    refine ⟨before ++ [fragment], List.length_append, ?_⟩
    rw [hparse, parseFrom_fragment hread hvalid hfragment]
    rcases parseFrom area _ _ with fault | fragments
    · rfl
    · exact congrArg (fun all => Except.ok (MappingCache.mk all)) (List.append_cons before fragment fragments)

/-- Parsing is safe and exact on any bytes. The run never looks past the end of the area and gets at least a
header further with each fragment; what it parses are the decodings of the at most sixteen sound fragments that
lie one behind the other from the start, and behind them it ends where no signed header follows, or with the
first defect of the fragment that does. -/
theorem parse_untrusted (area : List UInt8) :
    (∀ offset index, Visits area offset index → 32 * index ≤ offset ∧ offset ≤ area.length ∧
      ∃ before, before.length = index ∧
        parse area = (parseFrom area offset index).map fun fragments => ⟨before ++ fragments⟩) ∧
    (∀ offset size region, Region.within area.length offset size = .ok region →
      offset + size ≤ area.length ∧ region.slice area = .ok ((area.drop offset).take size)) ∧
    ∃ (found : List FoundFragment) (rest : List UInt8),
      area = found.flatMap FoundFragment.bytes ++ rest ∧ found.length ≤ 16 ∧
      (∀ i (h : i < found.length), found[i].Sound i) ∧
      match parse area with
      | .ok cache => cache.fragments = found.map FoundFragment.fragment ∧ EndsRun rest
      | .error fault => ∃ header after, rest = CacheHeader.format.encode header ++ after ∧
        header.isValid = true ∧
        FirstDefect area (found.flatMap FoundFragment.bytes).length found.length header fault Defect.order := by
  refine ⟨fun offset index h => ⟨h.bounds.1, h.bounds.2, h.parse_eq⟩, fun _ _ _ => slice_of_within, ?_⟩
  obtain ⟨found, rest, hfinds⟩ := exists_finds area 0 0 (Nat.zero_le 16)
  refine ⟨found, rest, hfinds.lies, ?_, fun i h => ?_, ?_⟩
  · have hcount := hfinds.count
    rwa [Nat.zero_add] at hcount
  · have hsound := hfinds.sound i h
    rwa [Nat.zero_add] at hsound
  · have hends := hfinds.ends
    unfold parse
    rcases hparse : parseFrom area 0 0 with fault | fragments <;> rw [hparse] at hends
    · unfold EndsWith at hends
      rwa [Nat.zero_add, Nat.zero_add] at hends
    · exact hends

end MappingCache

end FlashVolume
