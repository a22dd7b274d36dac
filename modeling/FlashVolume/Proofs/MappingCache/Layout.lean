/-
Parsing a mapping cache undoes laying it out. Fragments stored back to back, plainly or compressed, are all
read again whatever unsigned bytes follow them, and where no two of them cover the same logical block, a
block is resolved by the first pair for it in the fragment that covers it.
-/
import FlashVolume.Proofs.MappingCache.Parse
import FlashVolume.Proofs.Zlib.Stream

namespace FlashVolume

/-! ## Stored fragments -/

/-- A fragment as it is stored: the fields of its header other than its number and its sizes, the pairs it
holds, and the bytes that stand for them. -/
structure StoredFragment where
  signature : Signature
  flags : UInt16
  start : UInt64
  stop : UInt64
  pairs : List LebPeb
  payload : List UInt8

namespace StoredFragment

variable {f : StoredFragment} {fs : List StoredFragment} {index : Nat} {leb : UInt64}

/-- The packed pairs. -/
def packed (f : StoredFragment) : List UInt8 := f.pairs.flatMap LebPeb.format.encode

/-- The pairs are stored as they are. -/
structure Plain (f : StoredFragment) : Prop where
  flags : f.flags = 0
  count : f.pairs.length ≤ 4095
  payload : f.payload = f.packed

/-- The pairs are stored as something that inflates to them. -/
structure Compressed (f : StoredFragment) : Prop where
  isZlib : f.flags &&& 1 ≠ 0
  notLzo : f.flags &&& 2 = 0
  count : f.pairs.length ≤ 65535
  size : f.payload.length ≤ 65535
  payload : Zlib.inflate f.payload = .ok f.packed

/-- The fragment is signed, its logical blocks are a range, and its payload stands for its pairs. -/
structure WellFormed (f : StoredFragment) : Prop where
  signed : f.signature.isValid Key.mappingCache = true
  range : f.start ≤ f.stop
  stored : f.Plain ∨ f.Compressed

/-- The header of the fragment as the one with a number. -/
def header (f : StoredFragment) (index : Nat) : CacheHeader :=
  ⟨f.signature, index.toUInt16, f.flags, f.pairs.length.toUInt16, f.payload.length.toUInt16, f.start, f.stop⟩

/-- The bytes of the fragment. -/
def bytes (f : StoredFragment) (index : Nat) : List UInt8 :=
  CacheHeader.format.encode (f.header index) ++ f.payload

/-- What is to be read of the fragment. -/
def fragment (f : StoredFragment) (index : Nat) : CacheFragment := ⟨index.toUInt16, f.start, f.stop, f.pairs⟩

/-- The bytes of fragments stored back to back, numbered from `index` on. -/
def layout (fs : List StoredFragment) (index : Nat) : List UInt8 :=
  (fs.zipIdx index).flatMap fun (f, index) => f.bytes index

/-- What is to be read of them. -/
def fragments (fs : List StoredFragment) (index : Nat) : List CacheFragment :=
  (fs.zipIdx index).map fun (f, index) => f.fragment index

/-! ## Reading them back -/

theorem toNat_toUInt16 {n : Nat} (h : n ≤ 65535) : n.toUInt16.toNat = n :=
  UInt16.toNat_ofNat_of_lt' (Nat.lt_succ_of_le h)

theorem length_packed (f : StoredFragment) : f.packed.length = f.pairs.length * LebPeb.format.size :=
  Format.length_flatMap_encode LebPeb.exact_format f.pairs

theorem WellFormed.pairs_length_le (hf : f.WellFormed) : f.pairs.length ≤ 65535 := by
  rcases hf.stored with h | h
  · exact Nat.le_trans h.count (by decide)
  · exact h.count

theorem WellFormed.payload_length_le (hf : f.WellFormed) : f.payload.length ≤ 65535 := by
  rcases hf.stored with h | h
  · have hcount := h.count
    have hsize : LebPeb.format.size = 16 := by decide
    rw [h.payload, length_packed, hsize]
    omega
  · exact h.size

theorem isLzo_header : (f.header index).isLzo = (f.flags &&& 2 != 0) := rfl

theorem isZlib_header : (f.header index).isZlib = (f.flags &&& 1 != 0) := rfl

theorem WellFormed.decodedSize (hf : f.WellFormed) : (f.header index).decodedSize = f.packed.length := by
  rw [length_packed, CacheHeader.decodedSize, header, toNat_toUInt16 hf.pairs_length_le]

/-- The payload of a fragment decodes to its packed pairs. -/
theorem WellFormed.decodePayload (hf : f.WellFormed) :
    MappingCache.decodePayload (f.header index) f.payload = .ok f.packed := by
  unfold MappingCache.decodePayload
  rw [hf.decodedSize]
  rcases hf.stored with h | h
  · have hlzo : (f.header index).isLzo = false := by
      rw [isLzo_header, h.flags]
      decide
    have hzlib : (f.header index).isZlib = false := by
      rw [isZlib_header, h.flags]
      decide
    rw [hlzo, hzlib, h.payload]
    rfl
  · have hlzo : (f.header index).isLzo = false := by
      rw [isLzo_header, h.notLzo]
      rfl
    have hzlib : (f.header index).isZlib = true := by
      rw [isZlib_header, bne_iff_ne]
      exact h.isZlib
    rw [hlzo, hzlib, Zlib.inflateAtMost_eq_take h.payload, List.take_of_length_le (Nat.le_succ _)]
    rfl

/-- A stored fragment is parsed where it lies, if its number is the one expected there. -/
theorem WellFormed.parseFragment (hf : f.WellFormed) (hindex : index < MappingCache.maxFragments)
    (before after : List UInt8) :
    MappingCache.parseFragment (before ++ (f.bytes index ++ after)) before.length index (f.header index) =
      .ok (f.fragment index) := by
  have hsmall : index ≤ 65535 := Nat.le_trans (Nat.le_of_lt hindex) (by decide)
  have hpayload : MappingCache.payload (before ++ (f.bytes index ++ after))
      (before.length + CacheHeader.format.size) (f.header index).bytesCount.toNat = .ok f.payload := by
    have h := MappingCache.payload_append (before ++ CacheHeader.format.encode (f.header index)) f.payload after
    rw [List.length_append, CacheHeader.exact_format.length_encode, List.append_assoc,
      ← List.append_assoc (CacheHeader.format.encode _)] at h
    rw [header, toNat_toUInt16 hf.payload_length_le]
    exact h
  refine MappingCache.parseFragment_eq_ok.2 ⟨hindex, toNat_toUInt16 hsmall, hf.range, f.payload, f.packed,
    hpayload, hf.decodePayload, hf.decodedSize.symm, ?_⟩
  have hpairs := Format.readAll_encode LebPeb.exact_format f.pairs []
  rw [List.append_nil] at hpairs
  rw [header, toNat_toUInt16 hf.pairs_length_le, packed, hpairs]
  rfl

/-- Fragments stored from some offset on are all read, up to the bytes that end the run. -/
theorem parseFrom_layout {tail : List UInt8} (hfs : ∀ f ∈ fs, f.WellFormed)
    (htail : MappingCache.EndsRun tail) (hcount : index + fs.length ≤ MappingCache.maxFragments)
    (before : List UInt8) :
    MappingCache.parseFrom (before ++ (layout fs index ++ tail)) before.length index =
      .ok (fragments fs index) := by
  induction fs generalizing before index with
  | nil =>
    refine MappingCache.parseFrom_end fun header hread => htail.isValid_eq_false ?_
    rw [List.drop_left] at hread
    exact hread
  | cons f fs ih =>
    obtain ⟨hf, hfs⟩ := List.forall_mem_cons.1 hfs
    rw [List.length_cons] at hcount
    have hsplit : layout (f :: fs) index ++ tail = f.bytes index ++ (layout fs (index + 1) ++ tail) := by
      rw [layout, List.zipIdx_cons, List.flatMap_cons, List.append_assoc]
      rfl
    have hread : CacheHeader.format.read?
        ((before ++ (f.bytes index ++ (layout fs (index + 1) ++ tail))).drop before.length) =
          some (f.header index) := by
      rw [List.drop_left]
      exact (Format.read?_eq_some CacheHeader.exact_format).2 ⟨_, List.append_assoc ..⟩
    rw [hsplit, MappingCache.parseFrom_fragment hread hf.signed (hf.parseFragment (by omega) before _)]
    -- The next fragment starts where this one ends.
    have hnext : MappingCache.parseFrom (before ++ f.bytes index ++ (layout fs (index + 1) ++ tail))
        (before ++ f.bytes index).length (index + 1) = .ok (fragments fs (index + 1)) :=
      ih hfs (by omega) _
    have hlength : (before ++ f.bytes index).length =
        before.length + CacheHeader.format.size + (f.header index).bytesCount.toNat := by
      rw [List.length_append, bytes, List.length_append, CacheHeader.exact_format.length_encode, header,
        toNat_toUInt16 hf.payload_length_le, Nat.add_assoc]
    rw [List.append_assoc, hlength] at hnext
    rw [hnext]
    rfl

/-! ## The whole cache -/

/-- The fragment is for this logical block. -/
def Covers (f : StoredFragment) (leb : UInt64) : Prop := f.start ≤ leb ∧ leb ≤ f.stop

/-- The first pair for a logical block, whatever pairs for others stand before it. -/
def FirstPair (f : StoredFragment) (leb : UInt64) (pair : LebPeb) : Prop :=
  ∃ before after, f.pairs = before ++ pair :: after ∧ pair.leb = leb ∧ ∀ p ∈ before, p.leb ≠ leb

/-- A lookup follows the fragments: it gives the physical block of the first pair in the fragment for a
logical block, and none if that pair is unused, if there is no such pair or no such fragment. -/
structure Resolves (fs : List StoredFragment) (lookup : UInt64 → Option Nat) : Prop where
  used : ∀ f ∈ fs, ∀ leb pair, f.Covers leb → f.FirstPair leb pair → pair.peb ≠ unusedId →
    lookup leb = some pair.peb.toNat
  unused : ∀ f ∈ fs, ∀ leb pair, f.Covers leb → f.FirstPair leb pair → pair.peb = unusedId →
    lookup leb = none
  missing : ∀ f ∈ fs, ∀ leb, f.Covers leb → (∀ pair ∈ f.pairs, pair.leb ≠ leb) → lookup leb = none
  uncovered : ∀ leb, (∀ f ∈ fs, ¬ f.Covers leb) → lookup leb = none

theorem covers_fragment : (f.fragment index).covers leb = true ↔ f.Covers leb := by
  unfold fragment CacheFragment.covers Covers
  rw [Bool.and_eq_true, decide_eq_true_iff, decide_eq_true_iff]

theorem mem_fragments {fragment : CacheFragment} (h : fragment ∈ fragments fs index) :
    ∃ f ∈ fs, ∃ index', fragment = f.fragment index' := by
  obtain ⟨⟨f, index'⟩, hmem, rfl⟩ := List.mem_map.1 h
  exact ⟨f, List.fst_mem_of_mem_zipIdx hmem, index', rfl⟩

theorem exists_mem_fragments (h : f ∈ fs) (index : Nat) : ∃ index', f.fragment index' ∈ fragments fs index := by
  rw [← List.zipIdx_map_fst index fs] at h
  obtain ⟨⟨f, index'⟩, hmem, rfl⟩ := List.mem_map.1 h
  exact ⟨index', List.mem_map_of_mem hmem⟩

/-- The first pair for a logical block decides what a fragment answers. -/
theorem peb?_fragment {pair : LebPeb} (hcovers : f.Covers leb) (hpair : f.FirstPair leb pair) :
    (f.fragment index).peb? leb = pair.peb? := by
  obtain ⟨before, after, hsplit, rfl, hbefore⟩ := hpair
  have hfind : f.pairs.find? (·.leb == pair.leb) = some pair := by
    rw [List.find?_eq_some_iff_append]
    refine ⟨beq_self_eq_true _, before, after, hsplit, fun p hp => ?_⟩
    simpa using hbefore p hp
  unfold CacheFragment.peb?
  rw [if_pos (covers_fragment.2 hcovers), fragment, hfind]
  rfl

theorem peb?_fragment_of_missing (hmissing : ∀ pair ∈ f.pairs, pair.leb ≠ leb) :
    (f.fragment index).peb? leb = none := by
  have hfind : f.pairs.find? (·.leb == leb) = none := by
    rw [List.find?_eq_none]
    simpa using hmissing
  unfold CacheFragment.peb?
  rw [fragment, hfind, Option.bind_none, ite_self]

/-- A cache with these fragments resolves logical blocks by them, if no two are for the same one. -/
theorem resolves_peb? {c : MappingCache} (hc : c.fragments = fragments fs index)
    (hdisjoint : fs.Pairwise fun f g => ∀ leb, ¬ (f.Covers leb ∧ g.Covers leb)) :
    Resolves fs c.peb? := by
  have hdisjoint' : c.fragments.Pairwise
      fun a b => ∀ leb, ¬ (a.covers leb = true ∧ b.covers leb = true) := by
    rw [hc, fragments, List.pairwise_map]
    have hfst : ((fs.zipIdx index).map Prod.fst).Pairwise
        fun f g => ∀ leb, ¬ (f.Covers leb ∧ g.Covers leb) := by
      rw [List.zipIdx_map_fst]
      exact hdisjoint
    refine (List.pairwise_map.1 hfst).imp fun h leb hboth => h leb ?_
    exact ⟨covers_fragment.1 hboth.1, covers_fragment.1 hboth.2⟩
  have hlookup : ∀ f ∈ fs, ∀ leb, f.Covers leb → ∃ index', c.peb? leb = (f.fragment index').peb? leb := by
    intro f hf leb hcovers
    obtain ⟨index', hmem⟩ := exists_mem_fragments hf index
    rw [← hc] at hmem
    exact ⟨index', MappingCache.peb?_of_covers hdisjoint' hmem (covers_fragment.2 hcovers)⟩
  refine ⟨fun f hf leb pair hcovers hpair hused => ?_, fun f hf leb pair hcovers hpair hunused => ?_,
    fun f hf leb hcovers hmissing => ?_, fun leb huncovered => ?_⟩
  · obtain ⟨index', h⟩ := hlookup f hf leb hcovers
    rw [h, peb?_fragment hcovers hpair, LebPeb.peb?, LebPeb.isSet, if_pos (bne_iff_ne.2 hused)]
  · obtain ⟨index', h⟩ := hlookup f hf leb hcovers
    rw [h, peb?_fragment hcovers hpair, LebPeb.peb?, LebPeb.isSet, hunused]
    rfl
  · obtain ⟨index', h⟩ := hlookup f hf leb hcovers
    rw [h, peb?_fragment_of_missing hmissing]
  · refine MappingCache.peb?_of_not_covers fun fragment hmem => ?_
    rw [hc] at hmem
    obtain ⟨f, hf, index', rfl⟩ := mem_fragments hmem
    rw [← Bool.not_eq_true, covers_fragment]
    exact huncovered f hf

/-- Parsing undoes laying out: up to sixteen well-formed fragments stored back to back, with any bytes
behind them that end the run, are parsed as these fragments in order; and the cache resolves logical blocks
by them, if no two are for the same one. -/
theorem parse_layout {tail : List UInt8} (hcount : fs.length ≤ MappingCache.maxFragments)
    (hfs : ∀ f ∈ fs, f.WellFormed) (htail : MappingCache.EndsRun tail) :
    ∃ c, MappingCache.parse (layout fs 0 ++ tail) = .ok c ∧ c.fragments = fragments fs 0 ∧
      c.itemsCount = (fs.flatMap (·.pairs)).length ∧
      ((fs.Pairwise fun f g => ∀ leb, ¬ (f.Covers leb ∧ g.Covers leb)) → Resolves fs c.peb?) := by
  have hparse : MappingCache.parseFrom (layout fs 0 ++ tail) 0 0 = .ok (fragments fs 0) :=
    parseFrom_layout hfs htail (by omega) []
  refine ⟨⟨fragments fs 0⟩, ?_, rfl, ?_, resolves_peb? rfl⟩
  · unfold MappingCache.parse
    rw [hparse]
  · have hpairs : (fragments fs 0).flatMap (·.pairs) = ((fs.zipIdx 0).map Prod.fst).flatMap (·.pairs) := by
      rw [fragments, List.flatMap_map, List.flatMap_map]
      rfl
    rw [MappingCache.itemsCount_eq_length, hpairs, List.zipIdx_map_fst]

/-! ## Two fragments -/

/-- A plain fragment of two pairs, the second of them unused. -/
def plainSample : StoredFragment where
  signature := .ofKey Key.mappingCache
  flags := 0
  start := 5
  stop := 7
  pairs := [⟨5, 9⟩, ⟨6, unusedId⟩]
  payload := [(⟨5, 9⟩ : LebPeb), ⟨6, unusedId⟩].flatMap LebPeb.format.encode

/-- A fragment of one pair, which is compressed as a single stored block. -/
def compressedSample : StoredFragment where
  signature := .ofKey Key.mappingCache
  flags := 1
  start := 8
  stop := 8
  pairs := [⟨8, 3⟩]
  payload :=
    [0x78, 0x01, 0x01, 0x10, 0x00, 0xEF, 0xFF, 8, 0, 0, 0, 0, 0, 0, 0, 3, 0, 0, 0, 0, 0, 0, 0,
      0x00, 0xA8, 0x00, 0x0C]

theorem wellFormed_plainSample : plainSample.WellFormed :=
  ⟨Signature.isValid_ofKey _, by decide, .inl ⟨rfl, by decide, rfl⟩⟩

theorem wellFormed_compressedSample : compressedSample.WellFormed := by
  refine ⟨Signature.isValid_ofKey _, by decide, .inr ⟨by decide, by decide, by decide, by decide, ?_⟩⟩
  have hdecoded : (Zlib.inflate compressedSample.payload).toOption = some compressedSample.packed := by
    decide +kernel
  rcases h : Zlib.inflate compressedSample.payload with cause | bytes <;> rw [h] at hdecoded
  · cases hdecoded
  · exact congrArg Except.ok (Option.some.inj hdecoded)

/-- Both fragments are read back from a zeroed area, and resolve what they hold. -/
theorem parse_samples : ∃ c,
    MappingCache.parse (layout [plainSample, compressedSample] 0 ++ List.replicate 40 0) = .ok c ∧
      c.itemsCount = 3 ∧ c.peb? 5 = some 9 ∧ c.peb? 6 = none ∧ c.peb? 7 = none ∧ c.peb? 8 = some 3 ∧
      c.peb? 9 = none := by
  have hfs : ∀ f ∈ [plainSample, compressedSample], f.WellFormed := by
    simp only [List.forall_mem_cons, wellFormed_plainSample, wellFormed_compressedSample, true_and]
    exact nofun
  have htail : MappingCache.EndsRun (List.replicate 40 0) := by
    refine .inr fun signature hread => ?_
    have hzero : Signature.format.read? (List.replicate 40 0) = some ⟨0, 0, 0, 0⟩ := by decide
    rw [hzero] at hread
    cases hread
    decide
  have hdisjoint : [plainSample, compressedSample].Pairwise
      fun f g => ∀ leb, ¬ (f.Covers leb ∧ g.Covers leb) := by
    rw [List.pairwise_pair]
    rintro leb ⟨⟨-, hle⟩, hle', -⟩
    exact absurd (UInt64.le_trans hle' hle) (by decide)
  obtain ⟨c, hparse, -, hcount, hresolves⟩ := parse_layout (by decide) hfs htail
  have hr := hresolves hdisjoint
  have hplain : plainSample ∈ [plainSample, compressedSample] := List.mem_cons_self ..
  have hcompressed : compressedSample ∈ [plainSample, compressedSample] :=
    List.mem_cons_of_mem _ (List.mem_cons_self ..)
  refine ⟨c, hparse, hcount, ?_, ?_, ?_, ?_, ?_⟩
  · exact hr.used _ hplain 5 ⟨5, 9⟩ ⟨by decide, by decide⟩ ⟨[], _, rfl, rfl, nofun⟩ (by decide)
  · exact hr.unused _ hplain 6 ⟨6, unusedId⟩ ⟨by decide, by decide⟩
      ⟨[⟨5, 9⟩], [], rfl, rfl, by decide⟩ rfl
  · exact hr.missing _ hplain 7 ⟨by decide, by decide⟩ (by decide)
  · exact hr.used _ hcompressed 8 ⟨8, 3⟩ ⟨by decide, by decide⟩ ⟨[], _, rfl, rfl, nofun⟩ (by decide)
  · refine hr.uncovered 9 fun f hf hcovers => ?_
    rcases List.mem_cons.1 hf with rfl | hf
    · exact absurd hcovers.2 (by decide)
    · rw [List.mem_singleton.1 hf] at hcovers
      exact absurd hcovers.2 (by decide)

end StoredFragment

end FlashVolume
