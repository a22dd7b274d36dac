/-
The compressed payloads that a cache accepts. No more than one byte more than a header declares is asked of a
payload, and still just those are accepted that decode, trailer included, to as many bytes as declared: a stream
that gives fewer than it is asked for has come to its end, and one that gives more is told by the additional byte,
whatever follows it. This holds of any decoder that works forwards, and no more than that is used of the inflater.
-/
import FlashVolume.Proofs.MappingCache.Layout
import FlashVolume.Proofs.MappingCache.Untrusted
import FlashVolume.Proofs.Zlib.Stream

namespace FlashVolume.MappingCache

variable {area payload : List UInt8} {offset index : Nat} {header : CacheHeader} {fragment : CacheFragment}

/-! ## One payload -/

/-- What a payload is decoded to is what its stream decodes to, if that is as much as is declared. -/
theorem decodePayload_eq_ok_iff (hzlib : header.isZlib = true) (hlzo : header.isLzo = false) {bytes : List UInt8}
    (hlength : bytes.length = 16 * header.itemsCount.toNat) :
    decodePayload header payload = .ok bytes ↔ Zlib.Decodes payload bytes := by
  rw [decodePayload_of_zlib hzlib hlzo, Outcome.mapError_eq_ok, Zlib.decodes_iff]
  exact (Zlib.inflater_forwards.decodeAtMost_exact _).1 payload bytes hlength

/-- A payload whose stream begins with something that yields more than is declared is not decoded, or to one byte
more, nor does its stream decode to as many. -/
theorem decodePayload_of_yields (hzlib : header.isZlib = true) (hlzo : header.isLzo = false)
    {front bytes : List UInt8} (h : Zlib.Yields front bytes) (hlength : 16 * header.itemsCount.toNat < bytes.length)
    (rest : List UInt8) :
    ((∃ cause, decodePayload header (front ++ rest) = .error (.inflate cause)) ∨
      decodePayload header (front ++ rest) = .ok (bytes.take (16 * header.itemsCount.toNat + 1))) ∧
    ∀ all, Zlib.Decodes (front ++ rest) all → 16 * header.itemsCount.toNat < all.length := by
  obtain ⟨hanswer, hall⟩ := (Zlib.inflater_forwards.decodeAtMost_exact _).2 front rest bytes h hlength
  rw [decodePayload_of_zlib hzlib hlzo]
  refine ⟨hanswer.imp ?_ Outcome.mapError_eq_ok.2, fun all hdecodes => hall all (Zlib.decodes_iff.1 hdecodes)⟩
  rintro ⟨cause, hcause⟩
  exact ⟨cause, Outcome.mapError_eq_error.2 ⟨cause, hcause, rfl⟩⟩

/-! ## Fragments -/

/-- A compressed fragment is parsed just when it has the number that is expected, its logical blocks are a range,
its payload lies within the area, and the stream that is stored there decodes to as much as is declared. -/
theorem parseFragment_eq_ok_of_zlib (hzlib : header.isZlib = true) (hlzo : header.isLzo = false)
    (hoffset : offset + 32 ≤ area.length) :
    parseFragment area offset index header = .ok fragment ↔
      index < 16 ∧ header.sequenceId.toNat = index ∧ header.startLeb ≤ header.endLeb ∧
        offset + 32 + header.bytesCount.toNat ≤ area.length ∧
        ∃ bytes, Zlib.Decodes (storedAt area offset header) bytes ∧
          bytes.length = 16 * header.itemsCount.toNat ∧
          fragment = ⟨header.sequenceId, header.startLeb, header.endLeb,
            LebPeb.format.readAll header.itemsCount.toNat bytes⟩ := by
  rw [parseFragment_eq_ok, payload_eq hoffset]
  constructor
  · rintro ⟨hindex, hnumber, hrange, stored, bytes, hstored, hbytes, hlength, rfl⟩
    rw [decodedSize_eq] at hlength
    split at hstored <;> cases hstored
    exact ⟨hindex, hnumber, hrange, ‹_›, bytes, (decodePayload_eq_ok_iff hzlib hlzo hlength).1 hbytes, hlength, rfl⟩
  · rintro ⟨hindex, hnumber, hrange, hfits, bytes, hbytes, hlength, rfl⟩
    refine ⟨hindex, hnumber, hrange, storedAt area offset header, bytes, if_pos hfits, ?_, ?_, rfl⟩
    · exact (decodePayload_eq_ok_iff hzlib hlzo hlength).2 hbytes
    · rw [decodedSize_eq, hlength]

/-- A fragment that is not parsed lets no cache be parsed. -/
theorem Visits.exists_parse_error (h : Visits area offset index)
    (hread : CacheHeader.format.read? (area.drop offset) = some header) (hvalid : header.isValid = true)
    (hfragment : ∀ fragment, parseFragment area offset index header ≠ .ok fragment) :
    ∃ fault, parse area = .error fault := by
  obtain ⟨before, -, hparse⟩ := h.parse_eq
  rcases hfault : parseFragment area offset index header with fault | fragment
  · rw [hparse, parseFrom_error hread hvalid hfault]
    exact ⟨fault, rfl⟩
  · exact absurd hfault (hfragment fragment)

/-- The limit on what is decoded of a compressed payload accepts what decoding all of it would. A payload is
decoded to as many bytes as its header declares just when these are what its whole stream decodes to, up to a
trailer that is their Adler-32; one whose beginning yields more is not, whatever follows, nor would its stream end
with as many; and a fragment is accepted or rejected accordingly, and a cache rejected with it. -/
theorem decodePayload_exact (hzlib : header.isZlib = true) (hlzo : header.isLzo = false) :
    (∀ payload bytes, bytes.length = 16 * header.itemsCount.toNat →
      (decodePayload header payload = .ok bytes ↔ Zlib.Decodes payload bytes)) ∧
    (∀ front rest bytes, Zlib.Yields front bytes → 16 * header.itemsCount.toNat < bytes.length →
      ((∃ cause, decodePayload header (front ++ rest) = .error (.inflate cause)) ∨
        decodePayload header (front ++ rest) = .ok (bytes.take (16 * header.itemsCount.toNat + 1))) ∧
      ∀ all, Zlib.Decodes (front ++ rest) all → 16 * header.itemsCount.toNat < all.length) ∧
    ∀ area offset index, CacheHeader.format.read? (area.drop offset) = some header →
      (∀ fragment, parseFragment area offset index header = .ok fragment ↔
        index < 16 ∧ header.sequenceId.toNat = index ∧ header.startLeb ≤ header.endLeb ∧
          offset + 32 + header.bytesCount.toNat ≤ area.length ∧
          ∃ bytes, Zlib.Decodes (storedAt area offset header) bytes ∧
            bytes.length = 16 * header.itemsCount.toNat ∧
            fragment = ⟨header.sequenceId, header.startLeb, header.endLeb,
              LebPeb.format.readAll header.itemsCount.toNat bytes⟩) ∧
      (Visits area offset index → header.isValid = true →
        (∀ bytes, Zlib.Decodes (storedAt area offset header) bytes →
          bytes.length ≠ 16 * header.itemsCount.toNat) →
        ∃ fault, parse area = .error fault) := by
  refine ⟨fun payload bytes => decodePayload_eq_ok_iff hzlib hlzo, fun front rest bytes h hlength =>
    decodePayload_of_yields hzlib hlzo h hlength rest, fun area offset index hread => ?_⟩
  have hoffset : offset + 32 ≤ area.length := CacheHeader.size_format ▸ size_le_of_read? hread
  refine ⟨fun fragment => parseFragment_eq_ok_of_zlib hzlib hlzo hoffset, fun hvisits hvalid hdecodes => ?_⟩
  refine hvisits.exists_parse_error hread hvalid fun fragment hfragment => ?_
  obtain ⟨-, -, -, -, bytes, hbytes, hlength, -⟩ := (parseFragment_eq_ok_of_zlib hzlib hlzo hoffset).1 hfragment
  exact hdecodes bytes hbytes hlength

open StoredFragment (compressedSample)

/-- A payload that decodes to the pair its header declares is decoded. Under a header that declares none, its first
eight bytes, which yield the first byte of the pair, are enough for the cache to be rejected. -/
theorem decodePayload_compressedSample :
    decodePayload (compressedSample.header 0) compressedSample.payload = .ok compressedSample.packed ∧
      ∀ rest, ∃ fault, parse (CacheHeader.format.encode { compressedSample.header 0 with itemsCount := 0 } ++
        (compressedSample.payload.take 8 ++ rest)) = .error fault := by
  constructor
  · obtain ⟨hexact, -⟩ := @decodePayload_exact (compressedSample.header 0) (by decide) (by decide)
    have hdecodes : Zlib.Decodes compressedSample.payload compressedSample.packed := by
      obtain ⟨-, -, hplain | hcompressed⟩ := StoredFragment.wellFormed_compressedSample
      · exact absurd hplain.flags (by decide)
      · exact Zlib.inflate_eq_ok_iff.1 hcompressed.payload
    exact (hexact _ _ (by decide)).2 hdecodes
  · intro rest
    obtain ⟨-, hsurplus, hfragment⟩ := @decodePayload_exact
      { compressedSample.header 0 with itemsCount := 0 } (by decide) (by decide)
    -- The preamble, the header of the block and a stored byte.
    have hyields : Zlib.Yields (compressedSample.payload.take 8) [8] :=
      ⟨_, .head rfl (.head rfl (.head rfl .refl)), List.prefix_refl _⟩
    obtain ⟨-, hlonger⟩ := hsurplus _ (rest.take 19) _ hyields (by decide)
    refine (hfragment _ 0 0 ?_).2 .start (Signature.isValid_ofKey _) fun bytes hbytes => ?_
    · exact (Format.read?_eq_some CacheHeader.exact_format).2 ⟨_, rfl⟩
    · -- The header says that twenty-seven bytes are stored.
      rw [storedAt, Nat.zero_add, ← CacheHeader.size_format,
        ← CacheHeader.exact_format.length_encode { compressedSample.header 0 with itemsCount := 0 }, List.drop_left,
        List.take_append] at hbytes
      exact Nat.ne_of_gt (hlonger bytes hbytes)

end FlashVolume.MappingCache
