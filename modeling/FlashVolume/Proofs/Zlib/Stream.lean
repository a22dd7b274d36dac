/-
What a stream decodes to, without counting steps. A stream decodes to some bytes when the inflater comes, step by
step, to a trailer that is the Adler-32 of these bytes, and it yields some bytes when the inflater puts them out
first, whatever happens then. The inflater works forwards, since each step but the last takes at least a bit of the
input; so what is known of decoders that do holds of these streams.
-/
import FlashVolume.Proofs.Outcome
import FlashVolume.Proofs.Zlib.Beginning
import Mathlib.Algebra.Group.Nat.Defs

namespace FlashVolume.Zlib

/-! ## Bytes and bits -/

namespace BitStream

/-- The whole bytes that are left. -/
def wholeBytes (s : BitStream) : List UInt8 := s.bytes.data.toList.drop ((s.position + 7) / 8)

/-- The first bits of a byte are its low ones. -/
theorem bits_of_lt {bytes : ByteArray} {i : Nat} (h : i < bytes.size) {count : Nat} (hcount : count ≤ 8) :
    (⟨bytes, 8 * i⟩ : BitStream).bits count = .ok (bytes[i].toNat % 2 ^ count, ⟨bytes, 8 * i + count⟩) := by
  induction count with
  | zero => rw [Nat.pow_zero, Nat.mod_one]; rfl
  | succ count ih =>
    have hbyte : (8 * i + count) / 8 = i := by omega
    have hbit : (8 * i + count) % 8 = count := by omega
    have hnext : (⟨bytes, 8 * i + count⟩ : BitStream).bit =
        .ok (bytes[i].toNat.testBit count, ⟨bytes, 8 * i + (count + 1)⟩) := by
      unfold bit
      simp only [hbyte, hbit, h, dif_pos]
      rfl
    rw [bits, ih (Nat.le_of_succ_le hcount)]
    simp only [hnext]
    rw [Nat.mod_pow_succ, ← Nat.toNat_testBit, Nat.one_shiftLeft]
    rcases bytes[i].toNat.testBit count
    · rfl
    · rw [if_pos rfl, Bool.toNat_true, Nat.mul_one]

/-- Eight bits from the start of a byte are that byte. -/
theorem bits_of_drop {bytes : ByteArray} {i : Nat} {byte : UInt8} {rest : List UInt8}
    (h : bytes.data.toList.drop i = byte :: rest) :
    (⟨bytes, 8 * i⟩ : BitStream).bits 8 = .ok (byte.toNat, ⟨bytes, 8 * (i + 1)⟩) ∧
      bytes.data.toList.drop (i + 1) = rest := by
  have hi : i < bytes.size := by
    by_contra hi
    rw [List.drop_of_length_le (show bytes.size ≤ i by omega)] at h
    cases h
  have hcons := List.drop_eq_getElem_cons (show i < bytes.data.toList.length from hi)
  rw [h] at hcons
  obtain ⟨rfl, hrest⟩ := List.cons.inj hcons
  refine ⟨?_, hrest.symm⟩
  rw [bits_of_lt hi (Nat.le_refl 8), Nat.mod_eq_of_lt (UInt8.toNat_lt _)]
  rfl

/-- Eight bits can only be read where there is a byte. -/
theorem exists_byte_of_bits {bytes : ByteArray} {i value : Nat} {t : BitStream}
    (h : (⟨bytes, 8 * i⟩ : BitStream).bits 8 = .ok (value, t)) :
    ∃ byte, bytes.data.toList.drop i = byte :: bytes.data.toList.drop (i + 1) ∧ value = byte.toNat ∧
      t = ⟨bytes, 8 * (i + 1)⟩ := by
  rcases hdrop : bytes.data.toList.drop i with _ | ⟨byte, rest⟩
  · have hsize : bytes.size ≤ i := List.drop_eq_nil_iff.1 hdrop
    have hleft := remaining_of_bits h
    simp only [remaining] at hleft
    omega
  · obtain ⟨hbits, hrest⟩ := bits_of_drop hdrop
    rw [hbits] at h
    cases h
    exact ⟨byte, by rw [hrest], rfl, rfl⟩

end BitStream

/-! ## Codes -/

namespace HuffmanTree

/-- The tree has no codeword without bits. -/
def Branches (tree : HuffmanTree) : Prop := ∃ zero one, tree = .node zero one

theorem branches_insert (symbol : Nat) (bit : Bool) (codeword : List Bool) (tree : HuffmanTree) :
    (tree.insert symbol (bit :: codeword)).Branches := by
  cases bit <;> cases tree <;> exact ⟨_, _, rfl⟩

/-- The tree of a code has no codeword without bits, since a length of zero leaves its symbol out. -/
theorem branches_ofLengths (lengths : List Nat) : (ofLengths lengths).Branches := by
  unfold ofLengths
  refine List.foldlRecOn _ _ (motive := fun state : HuffmanTree × Array Nat => state.1.Branches) ⟨_, _, rfl⟩ ?_
  rintro ⟨tree, next⟩ htree ⟨length, symbol⟩ -
  dsimp only
  split
  · exact htree
  · obtain ⟨length, rfl⟩ := Nat.exists_eq_succ_of_ne_zero ‹_›
    exact branches_insert ..

variable {tree : HuffmanTree} {s t : BitStream} {symbol : Nat}

theorem remaining_le_of_decode (h : tree.decode s = .ok (symbol, t)) : t.remaining ≤ s.remaining := by
  have hagrees := tree.agrees_decode (.refl s)
  rw [h] at hagrees
  rcases hagrees with ⟨-, hbegins⟩
  exact hbegins.remaining_le

/-- Reading a codeword takes at least a bit. -/
theorem remaining_lt_of_decode (htree : tree.Branches) (h : tree.decode s = .ok (symbol, t)) :
    t.remaining < s.remaining := by
  obtain ⟨zero, one, rfl⟩ := htree
  unfold decode at h
  split at h
  · cases h
  rename_i bit u hbit
  have hu := BitStream.remaining_of_bit hbit
  have ht : t.remaining ≤ u.remaining := by
    split at h
    · exact remaining_le_of_decode h
    · exact remaining_le_of_decode h
  omega

end HuffmanTree

/-- Tables are read forwards, and what they give has no codeword without bits. -/
theorem of_readTables {s t : BitStream} {literals distances : HuffmanTree}
    (h : readTables s = .ok (literals, distances, t)) : literals.Branches ∧ t.remaining ≤ s.remaining := by
  constructor
  · unfold readTables at h
    simp only [throw, throwThe, MonadExceptOf.throw] at h
    obtain ⟨⟨literalCount, s⟩, -, h⟩ := Outcome.bind_eq_ok.1 h
    obtain ⟨⟨distanceCount, s⟩, -, h⟩ := Outcome.bind_eq_ok.1 h
    obtain ⟨⟨codeCount, s⟩, -, h⟩ := Outcome.bind_eq_ok.1 h
    dsimp only at h
    split at h
    · cases h
    obtain ⟨⟨lengths, s⟩, -, h⟩ := Outcome.bind_eq_ok.1 h
    dsimp only at h
    split at h
    · cases h
    obtain ⟨⟨lengths, s⟩, -, h⟩ := Outcome.bind_eq_ok.1 h
    dsimp only at h
    split at h
    · cases h
    · cases h
      exact HuffmanTree.branches_ofLengths _
  · have hagrees := agrees_readTables (.refl s)
    rw [h] at hagrees
    rcases hagrees with ⟨-, -, hbegins⟩
    exact hbegins.remaining_le

/-! ## One step -/

/-- A block that is being read has no codeword without bits. -/
def Stage.Branches : Stage → Prop
  | .coded _ literals _ => literals.Branches
  | _ => True

theorem Stage.branches_afterBlock (last : Bool) : (Stage.afterBlock last).Branches := by
  cases last <;> trivial

namespace Inflater

variable {s t : Inflater}

/-- A step only added to the output, made ready for codewords with bits, and took a bit at least. -/
structure Advances (s t : Inflater) : Prop where
  appends : s.output.toList <+: t.output.toList
  branches : t.stage.Branches
  remaining_lt : t.input.remaining < s.input.remaining

theorem prefix_push (output : Array UInt8) (byte : UInt8) : output.toList <+: (output.push byte).toList := by
  rw [Array.toList_push]
  exact List.prefix_append ..

/-- A copy is added behind what it is taken from. -/
theorem prefix_copyBack (output : Array UInt8) (distance length : Nat) :
    output.toList <+: (copyBack output distance length).toList := by
  induction length generalizing output with
  | zero => exact List.prefix_refl _
  | succ length ih => exact (prefix_push output _).trans (ih _)

theorem advances_readPreamble (h : s.readPreamble = .ok (.more t)) : s.Advances t := by
  unfold readPreamble at h
  obtain ⟨⟨method, input⟩, hmethod, h⟩ := Outcome.bind_eq_ok.1 h
  obtain ⟨⟨flags, input'⟩, hflags, h⟩ := Outcome.bind_eq_ok.1 h
  have := BitStream.remaining_of_bits hmethod
  have := BitStream.remaining_of_bits hflags
  dsimp only at h
  split at h
  · cases h
  · cases h
    exact ⟨List.prefix_refl _, trivial, show input'.remaining < _ by omega⟩

theorem advances_readHeader (h : s.readHeader = .ok (.more t)) : s.Advances t := by
  unfold readHeader at h
  obtain ⟨⟨last, input⟩, hlast, h⟩ := Outcome.bind_eq_ok.1 h
  obtain ⟨⟨kind, input'⟩, hkind, h⟩ := Outcome.bind_eq_ok.1 h
  have hbit := BitStream.remaining_of_bit hlast
  have hbits := BitStream.remaining_of_bits hkind
  dsimp only at h hbits
  split at h
  · obtain ⟨⟨length, stored⟩, hlength, h⟩ := Outcome.bind_eq_ok.1 h
    obtain ⟨⟨complement, stored'⟩, hcomplement, h⟩ := Outcome.bind_eq_ok.1 h
    have halign := BitStream.remaining_align_le input'
    have hlength := BitStream.remaining_of_bits hlength
    have hcomplement := BitStream.remaining_of_bits hcomplement
    dsimp only at h hcomplement
    split at h
    · cases h
    · cases h
      refine ⟨List.prefix_refl _, ?_, show stored'.remaining < _ by omega⟩
      dsimp only
      split
      · exact Stage.branches_afterBlock last
      · trivial
  · cases h
    exact ⟨List.prefix_refl _, HuffmanTree.branches_ofLengths _, show input'.remaining < _ by omega⟩
  · obtain ⟨⟨literals, distances, coded⟩, htables, h⟩ := Outcome.bind_eq_ok.1 h
    obtain ⟨hbranches, hle⟩ := of_readTables htables
    cases h
    exact ⟨List.prefix_refl _, hbranches, show coded.remaining < _ by omega⟩
  · cases h

theorem advances_readSymbol {last : Bool} {literals distances : HuffmanTree}
    (hstage : s.stage = .coded last literals distances) (hs : s.stage.Branches)
    (h : s.readSymbol last literals distances = .ok (.more t)) : s.Advances t := by
  have hliterals : literals.Branches := by
    rw [hstage] at hs
    exact hs
  unfold readSymbol at h
  obtain ⟨⟨symbol, input⟩, hsymbol, h⟩ := Outcome.bind_eq_ok.1 h
  have hlt := HuffmanTree.remaining_lt_of_decode hliterals hsymbol
  dsimp only at h
  split at h
  · cases h
    exact ⟨prefix_push .., hs, hlt⟩
  split at h
  · cases h
    exact ⟨List.prefix_refl _, Stage.branches_afterBlock last, hlt⟩
  split at h
  · obtain ⟨⟨more, input'⟩, hmore, h⟩ := Outcome.bind_eq_ok.1 h
    obtain ⟨⟨far, input''⟩, hfar, h⟩ := Outcome.bind_eq_ok.1 h
    have hmore := BitStream.remaining_of_bits hmore
    have hfar := HuffmanTree.remaining_le_of_decode hfar
    dsimp only at h hfar
    split at h
    · obtain ⟨⟨extra, rest⟩, hextra, h⟩ := Outcome.bind_eq_ok.1 h
      have hextra := BitStream.remaining_of_bits hextra
      cases h
      exact ⟨prefix_copyBack .., hs, show rest.remaining < _ by omega⟩
    · cases h
  · cases h

/-- The trailer is the end. -/
theorem readTrailer_ne_more : s.readTrailer ≠ .ok (.more t) := by
  intro h
  unfold readTrailer at h
  obtain ⟨_, -, h⟩ := Outcome.bind_eq_ok.1 h
  obtain ⟨_, -, h⟩ := Outcome.bind_eq_ok.1 h
  obtain ⟨_, -, h⟩ := Outcome.bind_eq_ok.1 h
  obtain ⟨_, -, h⟩ := Outcome.bind_eq_ok.1 h
  dsimp only at h
  split at h <;> cases h

/-- Every step but the last advances. -/
theorem advances_step (hs : s.stage.Branches) (h : s.step = .ok (.more t)) : s.Advances t := by
  unfold step at h
  split at h
  · exact advances_readPreamble h
  · exact advances_readHeader h
  · obtain ⟨⟨byte, input⟩, hbyte, h⟩ := Outcome.bind_eq_ok.1 h
    have := BitStream.remaining_of_bits hbyte
    cases h
    refine ⟨prefix_push .., ?_, show input.remaining < _ by omega⟩
    dsimp only
    split
    · exact Stage.branches_afterBlock _
    · trivial
  · exact advances_readSymbol ‹_› hs h
  · exact absurd h readTrailer_ne_more

/-- The decoder has come to the trailer, and the four bytes of it are the Adler-32 of the output, the high one
first. -/
def Closes (s : Inflater) : Prop :=
  s.stage = .trailer ∧ ∃ b3 b2 b1 b0 : UInt8, [b3, b2, b1, b0] <+: s.input.wholeBytes ∧
    ((b3.toNat * 256 + b2.toNat) * 256 + b1.toNat) * 256 + b0.toNat = adler32 s.output

theorem step_of_trailer (h : s.stage = .trailer) : s.step = s.readTrailer := by rw [step, h]

/-- The trailer begins with the next whole byte. -/
theorem align_input (s : Inflater) : s.input.align = ⟨s.input.bytes, 8 * ((s.input.position + 7) / 8)⟩ := by
  rw [BitStream.align, Nat.mul_comm]

/-- A stream ends at a trailer that closes it only, and nothing is put out then. -/
theorem of_step_finished (h : s.step = .ok (.finished t)) : s.Closes ∧ t.output = s.output := by
  have hstep := (Begins.refl s).step
  rw [h] at hstep
  rcases hstep with ⟨- | hstage⟩
  rw [step_of_trailer hstage, readTrailer, align_input] at h
  obtain ⟨⟨_, _⟩, h3, h⟩ := Outcome.bind_eq_ok.1 h
  obtain ⟨b3, hdrop3, rfl, rfl⟩ := BitStream.exists_byte_of_bits h3
  obtain ⟨⟨_, _⟩, h2, h⟩ := Outcome.bind_eq_ok.1 h
  obtain ⟨b2, hdrop2, rfl, rfl⟩ := BitStream.exists_byte_of_bits h2
  obtain ⟨⟨_, _⟩, h1, h⟩ := Outcome.bind_eq_ok.1 h
  obtain ⟨b1, hdrop1, rfl, rfl⟩ := BitStream.exists_byte_of_bits h1
  obtain ⟨⟨_, _⟩, h0, h⟩ := Outcome.bind_eq_ok.1 h
  obtain ⟨b0, hdrop0, rfl, rfl⟩ := BitStream.exists_byte_of_bits h0
  dsimp only at h
  split at h
  · cases h
    refine ⟨⟨hstage, b3, b2, b1, b0, ?_, ‹_›⟩, rfl⟩
    rw [BitStream.wholeBytes, hdrop3, hdrop2, hdrop1, hdrop0]
    exact List.prefix_append [b3, b2, b1, b0] _
  · cases h

/-- A trailer is a byte at least. -/
theorem Closes.le_remaining (h : s.Closes) : 8 ≤ s.input.remaining := by
  obtain ⟨-, b3, b2, b1, b0, hprefix, -⟩ := h
  have hlength := hprefix.length_le
  rw [BitStream.wholeBytes, List.length_drop] at hlength
  have hsize : 4 ≤ s.input.bytes.size - (s.input.position + 7) / 8 := hlength
  unfold BitStream.remaining
  omega

/-- Where a trailer closes it, a stream ends. -/
theorem Closes.exists_step (h : s.Closes) : ∃ t, s.step = .ok (.finished t) := by
  obtain ⟨hstage, b3, b2, b1, b0, ⟨after, hdrop⟩, hsum⟩ := h
  obtain ⟨h3, hdrop⟩ := BitStream.bits_of_drop hdrop.symm
  obtain ⟨h2, hdrop⟩ := BitStream.bits_of_drop hdrop
  obtain ⟨h1, hdrop⟩ := BitStream.bits_of_drop hdrop
  obtain ⟨h0, -⟩ := BitStream.bits_of_drop hdrop
  refine ⟨{ s with input := ⟨s.input.bytes, 8 * ((s.input.position + 7) / 8 + 1 + 1 + 1 + 1)⟩ }, ?_⟩
  rw [step_of_trailer hstage, readTrailer, align_input]
  refine Outcome.bind_eq_ok.2 ⟨_, h3, ?_⟩
  refine Outcome.bind_eq_ok.2 ⟨_, h2, ?_⟩
  refine Outcome.bind_eq_ok.2 ⟨_, h1, ?_⟩
  refine Outcome.bind_eq_ok.2 ⟨_, h0, ?_⟩
  exact if_pos hsum

/-! ## Working forwards -/

theorem branches_of_reaches {payload : List UInt8} (h : inflater.Reaches (ofBytes payload) s) :
    s.stage.Branches := by
  induction h with
  | refl => trivial
  | tail _ hstep ih => exact (advances_step ih hstep).branches

end Inflater

/-- The inflater works forwards: no block that it reads has a codeword without bits. -/
theorem inflater_forwards : inflater.Forwards where
  remaining_start _ := Nat.sub_le ..
  remaining_lt hs hstep := (Inflater.advances_step (Inflater.branches_of_reaches hs) hstep).remaining_lt
  appends hs hstep := (Inflater.advances_step (Inflater.branches_of_reaches hs) hstep).appends
  trailer hend := by
    obtain ⟨hcloses, houtput⟩ := Inflater.of_step_finished hend
    exact ⟨houtput, hcloses.le_remaining⟩
  begins rest hs := Inflater.exists_reaches_append hs rest

/-! ## Streams -/

/-- A stream decodes to some bytes: the decoder comes to a trailer that closes it, and has put them out then. -/
def Decodes (payload bytes : List UInt8) : Prop :=
  ∃ s, inflater.Reaches (.ofBytes payload) s ∧ s.Closes ∧ s.output.toList = bytes

/-- A stream yields some bytes: they are what the decoder puts out first. -/
def Yields (payload bytes : List UInt8) : Prop :=
  ∃ s, inflater.Reaches (.ofBytes payload) s ∧ bytes <+: s.output.toList

variable {payload bytes : List UInt8}

/-- The end of a stream is a trailer that closes it. -/
theorem decodes_iff : Decodes payload bytes ↔ inflater.Decodes payload bytes := by
  constructor
  · rintro ⟨s, hs, hcloses, hbytes⟩
    obtain ⟨t, hend⟩ := hcloses.exists_step
    exact ⟨s, t, hs, hend, hbytes⟩
  · rintro ⟨s, t, hs, hend, hbytes⟩
    exact ⟨s, hs, (Inflater.of_step_finished hend).1, hbytes⟩

/-- Decoding a whole stream gives what it decodes to, and nothing where it does not decode. -/
theorem inflate_eq_ok_iff : inflate payload = .ok bytes ↔ Decodes payload bytes :=
  inflater_forwards.decode_eq_ok_iff.trans decodes_iff.symm

/-- Asking for the first bytes of what a stream decodes to gives them. -/
theorem inflateAtMost_eq_take (h : inflate payload = .ok bytes) (count : Nat) :
    inflateAtMost count payload = .ok (bytes.take count) :=
  inflater_forwards.decodeAtMost_of_decodes (inflater_forwards.decode_eq_ok_iff.1 h) count

/-- Fewer bytes than are asked for are all that a stream decodes to. -/
theorem inflate_of_inflateAtMost {count : Nat} (h : inflateAtMost count payload = .ok bytes)
    (hcount : bytes.length < count) : inflate payload = .ok bytes :=
  inflater_forwards.decode_eq_ok_iff.2 (inflater_forwards.decodes_of_decodeAtMost h hcount)

end FlashVolume.Zlib
