/-
Decoding with a limit, whatever the decoder. A decoder works forwards if its steps take bits and only add to what was
put out, if a trailer ends its streams, and if the beginning of a stream is decoded as it is in the whole of it. A run
of such a decoder goes where its steps lead, so decoding a stream gives just what the steps come to; and asking for one
byte more than is expected tells a stream that decodes to as much as is expected from every other one.
-/
import FlashVolume.Zlib.Decoder
import Mathlib.Logic.Relation

namespace FlashVolume.Zlib.Decoder

variable {σ : Type} {d : Decoder σ} {s t u : σ} {payload bytes : List UInt8}

/-! ## Where a decoder comes -/

/-- From one state the decoder comes to another, step by step. -/
def Reaches (d : Decoder σ) : σ → σ → Prop := Relation.ReflTransGen fun s t => d.step s = .ok (.more t)

/-- The decoder does not go on from a state: its stream ends there, or a fault is found. -/
def Halts (d : Decoder σ) (s : σ) : Prop := ∀ t, d.step s ≠ .ok (.more t)

theorem halts_of_finished (h : d.step s = .ok (.finished t)) : d.Halts s := by
  intro u hu
  rw [h] at hu
  cases hu

theorem halts_of_error {cause : Fault} (h : d.step s = .error cause) : d.Halts s := by
  intro u hu
  rw [h] at hu
  cases hu

/-- Of two states that the decoder comes to, it comes by one on the way to the other. -/
theorem Reaches.total (ht : d.Reaches s t) (hu : d.Reaches s u) : d.Reaches t u ∨ d.Reaches u t := by
  refine Relation.ReflTransGen.total_of_right_unique (fun a b c hb hc => ?_) ht hu
  rw [hb] at hc
  cases hc
  rfl

theorem Reaches.eq_of_halts (h : d.Reaches s t) (hs : d.Halts s) : s = t := by
  rcases Relation.ReflTransGen.cases_head h with rfl | ⟨u, hu, -⟩
  · rfl
  · exact absurd hu (hs u)

/-- Before it halts, the decoder comes by every state that it comes to. -/
theorem Reaches.reaches_of_halts (ht : d.Reaches s t) (hu : d.Reaches s u) (hhalts : d.Halts u) :
    d.Reaches t u := by
  rcases ht.total hu with h | h
  · exact h
  · rw [h.eq_of_halts hhalts]
    exact .refl

/-- There is one state at most where the decoder halts. -/
theorem Reaches.eq_of_halts_of_halts (ht : d.Reaches s t) (hu : d.Reaches s u) (hthalts : d.Halts t)
    (huhalts : d.Halts u) : t = u :=
  (ht.reaches_of_halts hu huhalts).eq_of_halts hthalts

/-! ## Working forwards -/

/-- The decoder works forwards. It starts with no more than the bits of its stream, and every step that goes on takes
one at least; what was put out stays where it is; the last step takes a trailer of a byte at least and puts nothing
out; and where the decoder comes in the beginning of a stream, it comes in all of it, with the same output and the
same corruption. -/
structure Forwards (d : Decoder σ) : Prop where
  remaining_start : ∀ payload, d.remaining (d.start payload) ≤ 8 * payload.length
  remaining_lt : ∀ {payload s t}, d.Reaches (d.start payload) s → d.step s = .ok (.more t) →
    d.remaining t < d.remaining s
  appends : ∀ {payload s t}, d.Reaches (d.start payload) s → d.step s = .ok (.more t) →
    (d.output s).toList <+: (d.output t).toList
  trailer : ∀ {s t}, d.step s = .ok (.finished t) → d.output t = d.output s ∧ 8 ≤ d.remaining s
  begins : ∀ {payload s} rest, d.Reaches (d.start payload) s →
    ∃ t, d.Reaches (d.start (payload ++ rest)) t ∧ d.output t = d.output s ∧
      (d.step s = .error .corrupt → d.step t = .error .corrupt)

namespace Forwards

variable (h : d.Forwards)

include h

theorem prefix_of_reaches (hs : d.Reaches (d.start payload) s) (hreaches : d.Reaches s t) :
    (d.output s).toList <+: (d.output t).toList := by
  induction hreaches with
  | refl => exact List.prefix_refl _
  | tail hreaches hstep ih => exact ih.trans (h.appends (hs.trans hreaches) hstep)

theorem size_le_of_reaches (hs : d.Reaches (d.start payload) s) (hreaches : d.Reaches s t) :
    (d.output s).size ≤ (d.output t).size := by
  have hle := (h.prefix_of_reaches hs hreaches).length_le
  rwa [Array.length_toList, Array.length_toList] at hle

/-- What was put out first stays the same. -/
theorem take_eq_of_reaches (hs : d.Reaches (d.start payload) s) (hreaches : d.Reaches s t) {count : Nat}
    (hcount : count ≤ (d.output s).size) : (d.output s).toList.take count = (d.output t).toList.take count := by
  obtain ⟨rest, hrest⟩ := h.prefix_of_reaches hs hreaches
  rw [← hrest, List.take_append_of_le_length (by rwa [Array.length_toList])]

theorem remaining_le_of_reaches (hs : d.Reaches (d.start payload) s) (hreaches : d.Reaches s t) :
    d.remaining t ≤ d.remaining s := by
  induction hreaches with
  | refl => exact Nat.le_refl _
  | tail hreaches hstep ih => exact Nat.le_trans (Nat.le_of_lt (h.remaining_lt (hs.trans hreaches) hstep)) ih

end Forwards

/-! ## Runs -/

/-- How a run that comes to a state ends there: it is cut if the output exceeds the limit, and else as the step of the
decoder says. -/
inductive Ends (d : Decoder σ) (limit : Option Nat) (s : σ) : Except Fault (Ending σ) → Prop
  | cut : limit.any (· < (d.output s).size) → d.Ends limit s (.ok (.cut s))
  | fault {cause : Fault} : ¬ limit.any (· < (d.output s).size) → d.step s = .error cause →
    d.Ends limit s (.error cause)
  | finished {t : σ} : ¬ limit.any (· < (d.output s).size) → d.step s = .ok (.finished t) →
    d.Ends limit s (.ok (.finished t))

namespace Forwards

variable (h : d.Forwards)

include h

/-- A run with a step for each bit that is left, and one more, comes to a state where it ends. -/
theorem exists_ends_run (limit : Option Nat) {steps : Nat} (hs : d.Reaches (d.start payload) s)
    (hsteps : d.remaining s < steps) : ∃ t, d.Reaches s t ∧ d.Ends limit t (d.run limit steps s) := by
  induction steps generalizing s with
  | zero => exact absurd hsteps (Nat.not_lt_zero _)
  | succ steps ih =>
    rw [run]
    by_cases hlimit : limit.any (· < (d.output s).size) = true
    · rw [if_pos hlimit]
      exact ⟨s, .refl, .cut hlimit⟩
    rw [if_neg hlimit]
    rcases hstep : d.step s with cause | t | t
    · exact ⟨s, .refl, .fault hlimit hstep⟩
    · have hless := h.remaining_lt hs hstep
      obtain ⟨u, hu, hends⟩ := ih (hs.tail hstep) (Nat.lt_of_lt_of_le hless (Nat.le_of_lt_succ hsteps))
      exact ⟨u, .head hstep hu, hends⟩
    · exact ⟨s, .refl, .finished hlimit hstep⟩

theorem exists_ends (limit : Option Nat) (payload : List UInt8) :
    ∃ s, d.Reaches (d.start payload) s ∧ d.Ends limit s (d.decodeTo limit payload) :=
  h.exists_ends_run limit .refl (Nat.lt_succ_of_le (h.remaining_start payload))

/-- Where the decoder comes to the end of a stream, a run does so too, or is cut on the way. -/
theorem decodeTo_of_finished (hs : d.Reaches (d.start payload) s) (hend : d.step s = .ok (.finished t))
    (limit : Option Nat) :
    d.decodeTo limit payload = .ok (.finished t) ∧ ¬ limit.any (· < (d.output s).size) ∨
      ∃ u, d.decodeTo limit payload = .ok (.cut u) ∧ limit.any (· < (d.output u).size) ∧
        d.Reaches (d.start payload) u ∧ d.Reaches u s := by
  obtain ⟨u, hu, hends⟩ := h.exists_ends limit payload
  generalize d.decodeTo limit payload = outcome at hends
  have hhalts := halts_of_finished hend
  cases hends with
  | cut hlimit => exact .inr ⟨u, rfl, hlimit, hu, hu.reaches_of_halts hs hhalts⟩
  | fault _ hfault =>
    obtain rfl := hu.eq_of_halts_of_halts hs (halts_of_error hfault) hhalts
    rw [hend] at hfault
    cases hfault
  | finished hlimit hend' =>
    obtain rfl := hu.eq_of_halts_of_halts hs (halts_of_finished hend') hhalts
    rw [hend] at hend'
    cases hend'
    exact .inl ⟨rfl, hlimit⟩

/-- No part of a stream that comes to its end is found to be corrupt. -/
theorem decodeTo_take_ne_corrupt (hs : d.Reaches (d.start payload) s) (hend : d.step s = .ok (.finished t))
    (limit : Option Nat) (count : Nat) : d.decodeTo limit (payload.take count) ≠ .error .corrupt := by
  intro hcorrupt
  obtain ⟨u, hu, hends⟩ := h.exists_ends limit (payload.take count)
  rw [hcorrupt] at hends
  cases hends with
  | fault _ hfault =>
    obtain ⟨v, hv, -, hfound⟩ := h.begins (payload.drop count) hu
    rw [List.take_append_drop] at hv
    obtain rfl := hv.eq_of_halts_of_halts hs (halts_of_error (hfound hfault)) (halts_of_finished hend)
    rw [hend] at hfound
    cases hfound hfault

end Forwards

/-! ## Streams -/

/-- A stream decodes to some bytes: the decoder comes to its end, and has put them out then. -/
def Decodes (d : Decoder σ) (payload bytes : List UInt8) : Prop :=
  ∃ s t, d.Reaches (d.start payload) s ∧ d.step s = .ok (.finished t) ∧ (d.output s).toList = bytes

/-- A stream yields some bytes: they are what the decoder puts out first. -/
def Yields (d : Decoder σ) (payload bytes : List UInt8) : Prop :=
  ∃ s, d.Reaches (d.start payload) s ∧ bytes <+: (d.output s).toList

namespace Forwards

variable (h : d.Forwards)

include h

/-- Decoding a whole stream gives what it decodes to, and nothing where it does not decode. -/
theorem decode_eq_ok_iff : d.decode payload = .ok bytes ↔ d.Decodes payload bytes := by
  unfold decode
  constructor
  · intro hbytes
    obtain ⟨s, hs, hends⟩ := h.exists_ends none payload
    generalize d.decodeTo none payload = outcome at hends hbytes
    cases hends with
    | cut hlimit => cases hlimit
    | fault => cases hbytes
    | finished _ hend =>
      cases hbytes
      exact ⟨s, _, hs, hend, congrArg Array.toList (h.trailer hend).1.symm⟩
  · rintro ⟨s, t, hs, hend, rfl⟩
    rcases h.decodeTo_of_finished hs hend none with ⟨hrun, -⟩ | ⟨u, -, hlimit, -⟩
    · rw [hrun]
      exact congrArg (fun output => Except.ok output.toList) (h.trailer hend).1
    · cases hlimit

/-- What the beginning of a stream yields, the stream yields, whatever follows. -/
theorem yields_append (hyields : d.Yields payload bytes) (rest : List UInt8) :
    d.Yields (payload ++ rest) bytes := by
  obtain ⟨s, hs, hbytes⟩ := hyields
  obtain ⟨t, ht, houtput, -⟩ := h.begins rest hs
  exact ⟨t, ht, houtput ▸ hbytes⟩

/-- A stream that decodes to some bytes yields nothing but them. -/
theorem prefix_of_yields (hyields : d.Yields payload bytes) {all : List UInt8} (hall : d.Decodes payload all) :
    bytes <+: all := by
  obtain ⟨s, hs, hbytes⟩ := hyields
  obtain ⟨t, u, ht, hend, rfl⟩ := hall
  exact hbytes.trans (h.prefix_of_reaches hs (hs.reaches_of_halts ht (halts_of_finished hend)))

/-! ## The first bytes of a stream -/

/-- Nothing is lost of a stream that decodes to as many bytes as are asked for. -/
theorem losesTail_eq_false (hs : d.Reaches (d.start payload) s) (hend : d.step s = .ok (.finished t)) {count : Nat}
    (hcount : count ≤ (d.output s).size) : d.losesTail count payload = false := by
  refine Bool.eq_false_iff.2 fun hloses => ?_
  unfold losesTail at hloses
  simp only [Bool.and_eq_true, decide_eq_true_eq] at hloses
  obtain ⟨⟨-, hlast⟩, hused⟩ := hloses
  rcases h.decodeTo_of_finished hs hend (some (horizon count - windowSize)) with
    ⟨-, hkept⟩ | ⟨u, hrun, -, hu, hreaches⟩
  · -- The whole stream would decode to less than is asked for.
    rw [Option.any_some, decide_eq_true_eq] at hkept
    omega
  · -- There would be no trailer.
    rw [hrun] at hused
    have hremaining := h.remaining_le_of_reaches hu hreaches
    have htrailer := (h.trailer hend).2
    have := of_decide_eq_true hused
    simp only [Ending.state] at this
    omega

/-- Asking for the first bytes of what a stream decodes to gives them. -/
theorem decodeAtMost_of_decodes (hdecodes : d.Decodes payload bytes) (count : Nat) :
    d.decodeAtMost count payload = .ok (bytes.take count) := by
  obtain ⟨s, t, hs, hend, rfl⟩ := hdecodes
  by_cases hcount : count = 0
  · rw [hcount]
    rfl
  rw [d.decodeAtMost_eq hcount]
  rcases h.decodeTo_of_finished hs hend (some (count - 1)) with
    ⟨hrun, hkept⟩ | ⟨u, hrun, hexceeds, hu, hreaches⟩ <;> simp only [hrun]
  · -- The stream decodes to no more than is asked for.
    rw [Option.any_some, decide_eq_true_eq] at hkept
    rw [(h.trailer hend).1, List.take_of_length_le]
    rw [Array.length_toList]
    omega
  · rw [Option.any_some, decide_eq_true_eq] at hexceeds
    have hahead : d.decodeTo (some (horizon count)) (d.chunksRead payload u) ≠ .error .corrupt := by
      unfold chunksRead
      exact h.decodeTo_take_ne_corrupt hs hend _ _
    have hsize := h.size_le_of_reaches hu hreaches
    have hkept := h.losesTail_eq_false hs hend (show count ≤ (d.output s).size by omega)
    exact answer_eq_ok_iff.2 ⟨hahead, hkept, h.take_eq_of_reaches hu hreaches (by omega)⟩

/-- Fewer bytes than are asked for are all that a stream decodes to. -/
theorem decodes_of_decodeAtMost {count : Nat} (hbytes : d.decodeAtMost count payload = .ok bytes)
    (hcount : bytes.length < count) : d.Decodes payload bytes := by
  rw [d.decodeAtMost_eq (Nat.ne_zero_of_lt hcount)] at hbytes
  obtain ⟨s, hs, hends⟩ := h.exists_ends (some (count - 1)) payload
  generalize d.decodeTo (some (count - 1)) payload = outcome at hends hbytes
  cases hends with
  | fault => cases hbytes
  | finished _ hend =>
    cases hbytes
    exact ⟨s, _, hs, hend, congrArg Array.toList (h.trailer hend).1.symm⟩
  | cut hexceeds =>
    -- A stream that was cut gives as many bytes as were asked for.
    rw [Option.any_some, decide_eq_true_eq] at hexceeds
    obtain ⟨-, -, rfl⟩ := answer_eq_ok_iff.1 hbytes
    rw [List.length_take, Array.length_toList] at hcount
    omega

/-- Asking for no more bytes than a stream yields gives them, or a fault that is found ahead of them. -/
theorem decodeAtMost_of_yields (hyields : d.Yields payload bytes) {count : Nat} (hpos : count ≠ 0)
    (hcount : count ≤ bytes.length) :
    (∃ cause, d.decodeAtMost count payload = .error cause) ∨
      d.decodeAtMost count payload = .ok (bytes.take count) := by
  obtain ⟨s, hs, hbytes⟩ := hyields
  have hsize : count ≤ (d.output s).size := Nat.le_trans hcount hbytes.length_le
  rw [d.decodeAtMost_eq hpos]
  obtain ⟨u, hu, hends⟩ := h.exists_ends (some (count - 1)) payload
  generalize d.decodeTo (some (count - 1)) payload = outcome at hends
  cases hends with
  | fault => exact .inl ⟨_, rfl⟩
  | finished hkept hend =>
    -- All of the stream would be less than it yields.
    have hle := h.size_le_of_reaches hs (hs.reaches_of_halts hu (halts_of_finished hend))
    rw [Option.any_some, decide_eq_true_eq] at hkept
    omega
  | cut hexceeds =>
    rw [Option.any_some, decide_eq_true_eq] at hexceeds
    -- One of the two states comes first, and its output begins that of the other.
    have htake : (d.output u).toList.take count = bytes.take count := by
      obtain ⟨more, hmore⟩ := hbytes
      have hboth : (d.output u).toList.take count = (d.output s).toList.take count := by
        rcases hu.total hs with hreaches | hreaches
        · exact h.take_eq_of_reaches hu hreaches (by omega)
        · exact (h.take_eq_of_reaches hs hreaches hsize).symm
      rw [hboth, ← hmore, List.take_append_of_le_length hcount]
    dsimp only
    rcases hanswer : answer count (d.output u) _ _ with cause | answered
    · exact .inl ⟨cause, rfl⟩
    · obtain ⟨-, -, rfl⟩ := answer_eq_ok_iff.1 hanswer
      exact .inr (congrArg Except.ok htake)

/-- One byte more than is expected is all that has to be asked for. As many bytes as are expected are the answer just
when a stream decodes to them; one whose beginning yields more is answered with a fault or the additional byte,
whatever follows, nor would it decode to as many. -/
theorem decodeAtMost_exact (size : Nat) :
    (∀ payload bytes, bytes.length = size →
      (d.decodeAtMost (size + 1) payload = .ok bytes ↔ d.Decodes payload bytes)) ∧
    ∀ front rest bytes, d.Yields front bytes → size < bytes.length →
      ((∃ cause, d.decodeAtMost (size + 1) (front ++ rest) = .error cause) ∨
        d.decodeAtMost (size + 1) (front ++ rest) = .ok (bytes.take (size + 1))) ∧
      ∀ all, d.Decodes (front ++ rest) all → size < all.length := by
  refine ⟨fun payload bytes hlength => ⟨fun hbytes => ?_, fun hdecodes => ?_⟩,
    fun front rest bytes hyields hlength => ⟨?_, fun all hall => ?_⟩⟩
  · exact h.decodes_of_decodeAtMost hbytes (by omega)
  · rw [h.decodeAtMost_of_decodes hdecodes, List.take_of_length_le (by omega)]
  · exact h.decodeAtMost_of_yields (h.yields_append hyields rest) (Nat.succ_ne_zero _) hlength
  · exact Nat.lt_of_lt_of_le hlength (h.prefix_of_yields (h.yields_append hyields rest) hall).length_le

end Forwards

end FlashVolume.Zlib.Decoder
