/-
Parsing a mapping cache, one fragment at a time. A fragment is parsed exactly if it passes every check on
its header and its payload; the run goes on behind it, and ends where no signed header can be read. A
lookup is answered by the only fragment that covers its logical block, where there is no other.
-/
import FlashVolume.MappingCache
import FlashVolume.Proofs.Format
import FlashVolume.Proofs.Outcome

namespace FlashVolume.MappingCache

variable {area : List UInt8} {offset index : Nat} {header : CacheHeader} {fragment : CacheFragment}

/-! ## Parsing a fragment -/

/-- What a fragment has to satisfy to be parsed. -/
theorem parseFragment_eq_ok :
    parseFragment area offset index header = .ok fragment ↔
      index < maxFragments ∧ header.sequenceId.toNat = index ∧ header.startLeb ≤ header.endLeb ∧
        ∃ stored bytes,
          payload area (offset + CacheHeader.format.size) header.bytesCount.toNat = .ok stored ∧
          decodePayload header stored = .ok bytes ∧ bytes.length = header.decodedSize ∧
          fragment = ⟨header.sequenceId, header.startLeb, header.endLeb,
            LebPeb.format.readAll header.itemsCount.toNat bytes⟩ := by
  unfold parseFragment
  simp only [throw, throwThe, MonadExceptOf.throw]
  constructor
  · intro h
    by_cases hindex : maxFragments ≤ index
    · rw [if_pos hindex] at h
      cases h
    rw [if_neg hindex] at h
    by_cases hid : header.sequenceId.toNat ≠ index
    · rw [if_pos hid] at h
      cases h
    rw [if_neg hid] at h
    by_cases hrange : header.endLeb < header.startLeb
    · rw [if_pos hrange] at h
      cases h
    rw [if_neg hrange] at h
    obtain ⟨stored, hstored, h⟩ := Outcome.bind_eq_ok.1 h
    obtain ⟨bytes, hbytes, h⟩ := Outcome.bind_eq_ok.1 h
    by_cases hlength : bytes.length ≠ header.decodedSize
    · rw [if_pos hlength] at h
      cases h
    rw [if_neg hlength] at h
    cases h
    exact ⟨Nat.lt_of_not_le hindex, not_not.1 hid, UInt64.not_lt.1 hrange, stored, bytes, hstored, hbytes,
      not_not.1 hlength, rfl⟩
  · rintro ⟨hindex, hid, hrange, stored, bytes, hstored, hbytes, hlength, rfl⟩
    rw [if_neg (Nat.not_le.2 hindex), if_neg (not_not.2 hid), if_neg (UInt64.not_lt.2 hrange)]
    refine Outcome.bind_eq_ok.2 ⟨stored, hstored, Outcome.bind_eq_ok.2 ⟨bytes, hbytes, ?_⟩⟩
    rw [if_neg (not_not.2 hlength)]
    rfl

/-- The payload is the bytes that lie at its offset. -/
theorem payload_append (before stored after : List UInt8) :
    payload (before ++ (stored ++ after)) before.length stored.length = .ok stored := by
  unfold payload
  split
  · rename_i hnil
    rw [List.eq_nil_of_length_eq_zero hnil]
  · rename_i hne
    have hwithin : Region.within (before ++ (stored ++ after)).length before.length stored.length =
        .ok ⟨before.length, before.length + stored.length⟩ := by
      rw [Region.within_eq_ok_iff, List.length_append, List.length_append]
      exact ⟨hne, by omega, rfl⟩
    have hslice : Region.slice ⟨before.length, before.length + stored.length⟩
        (before ++ (stored ++ after)) = .ok stored := by
      unfold Region.slice
      rw [if_pos (by simp only [List.length_append]; omega), List.drop_left, Region.size,
        Nat.add_sub_cancel_left, List.take_left]
    simp only [hwithin, hslice]

/-! ## Parsing a run -/

/-- The run ends where no signed header can be read. -/
theorem parseFrom_end
    (h : ∀ header, CacheHeader.format.read? (area.drop offset) = some header → header.isValid = false) :
    parseFrom area offset index = .ok [] := by
  rw [parseFrom]
  split
  · rfl
  · rename_i header hread
    rw [h header hread]
    rfl

/-- The run goes on behind a fragment that is parsed. -/
theorem parseFrom_fragment (hread : CacheHeader.format.read? (area.drop offset) = some header)
    (hvalid : header.isValid = true) (hfragment : parseFragment area offset index header = .ok fragment) :
    parseFrom area offset index =
      (parseFrom area (offset + CacheHeader.format.size + header.bytesCount.toNat) (index + 1)).map
        (fragment :: ·) := by
  rw [parseFrom]
  split
  · rename_i hnone
    rw [hread] at hnone
    cases hnone
  · rename_i other hother
    rw [hread] at hother
    cases hother
    rw [if_pos hvalid]
    simp only [hfragment]
    rcases parseFrom area (offset + CacheHeader.format.size + header.bytesCount.toNat) (index + 1) with
      cause | fragments <;> rfl

/-- Bytes without a signed header end a run: there are too few of them, or they begin with something
else than a valid signature. -/
def EndsRun (tail : List UInt8) : Prop :=
  tail.length < CacheHeader.format.size ∨
    ∀ signature, Signature.format.read? tail = some signature →
      signature.isValid Key.mappingCache = false

theorem EndsRun.isValid_eq_false {tail : List UInt8} (htail : EndsRun tail)
    (hread : CacheHeader.format.read? tail = some header) : header.isValid = false := by
  rcases htail with hshort | hunsigned
  · have hle : 0 + CacheHeader.format.size ≤ tail.length := size_le_of_read? hread
    omega
  · -- The signature is what the header begins with.
    obtain ⟨rest, rfl⟩ := (Format.read?_eq_some CacheHeader.exact_format).1 hread
    refine hunsigned header.signature ((Format.read?_eq_some Signature.exact_format).2 ?_)
    exact ⟨_, List.append_assoc ..⟩

/-! ## Lookups -/

variable {c : MappingCache} {leb : UInt64}

theorem peb?_of_not_covers (h : ∀ fragment ∈ c.fragments, fragment.covers leb = false) :
    c.peb? leb = none := by
  have hnil : c.fragments.filter (·.covers leb) = [] := by
    rw [List.filter_eq_nil_iff]
    intro fragment hmem
    rw [h fragment hmem]
    exact Bool.false_ne_true
  unfold peb?
  rw [hnil]
  rfl

/-- Where no two fragments cover the same logical block, the only one that covers it answers. -/
theorem peb?_of_covers
    (hdisjoint : c.fragments.Pairwise fun a b => ∀ leb, ¬ (a.covers leb = true ∧ b.covers leb = true))
    (hmem : fragment ∈ c.fragments) (hcovers : fragment.covers leb = true) :
    c.peb? leb = fragment.peb? leb := by
  obtain ⟨before, after, hsplit⟩ := List.append_of_mem hmem
  rw [hsplit, List.pairwise_append, List.pairwise_cons] at hdisjoint
  obtain ⟨-, ⟨hafter, -⟩, hbefore⟩ := hdisjoint
  have hbefore' : before.filter (·.covers leb) = [] := by
    rw [List.filter_eq_nil_iff]
    intro other hother hcovers'
    exact hbefore other hother fragment (List.mem_cons_self ..) leb ⟨hcovers', hcovers⟩
  have hafter' : after.filter (·.covers leb) = [] := by
    rw [List.filter_eq_nil_iff]
    intro other hother hcovers'
    exact hafter other hother leb ⟨hcovers, hcovers'⟩
  have honly : c.fragments.filter (·.covers leb) = [fragment] := by
    rw [hsplit, List.filter_append, List.filter_cons, if_pos hcovers, hbefore', hafter']
    rfl
  unfold peb?
  rw [honly, List.findSome?_singleton]

/-- The items are the pairs of all fragments. -/
theorem itemsCount_eq_length (c : MappingCache) :
    c.itemsCount = (c.fragments.flatMap (·.pairs)).length := by
  rcases c with ⟨fragments⟩
  unfold itemsCount
  induction fragments with
  | nil => rfl
  | cons fragment fragments ih =>
    rw [List.foldr_cons, ih, List.flatMap_cons, List.length_append]

end FlashVolume.MappingCache
