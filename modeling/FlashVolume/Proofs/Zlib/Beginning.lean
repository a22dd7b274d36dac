/-
The beginning of a stream. Reading the beginning of a stream goes as reading all of it, up to where bytes are
missing: it finds the same values and the same corruption. So in all of a stream the inflater comes where it comes in
the beginning of it.
-/
import FlashVolume.Proofs.Zlib.Decoder
import FlashVolume.Zlib.Inflate

namespace FlashVolume.Zlib

variable {α β γ δ : Type} {left : Nat}

/-! ## Outcomes -/

/-- What reading the beginning of a stream gives, beside what reading all of it gives: related values, the same
corruption, or nothing to go by, since bytes are missing. -/
inductive Agrees (R : α → β → Prop) : Except Fault α → Except Fault β → Prop
  | ok {a : α} {b : β} : R a b → Agrees R (.ok a) (.ok b)
  | corrupt : Agrees R (.error .corrupt) (.error .corrupt)
  | incomplete {y : Except Fault β} : Agrees R (.error .incomplete) y

theorem Agrees.bind {R : α → β → Prop} {S : γ → δ → Prop} {x : Except Fault α} {y : Except Fault β}
    {f : α → Except Fault γ} {g : β → Except Fault δ} (h : Agrees R x y)
    (hf : ∀ a b, R a b → Agrees S (f a) (g b)) : Agrees S (x >>= f) (y >>= g) := by
  cases h with
  | ok hab => exact hf _ _ hab
  | corrupt => exact .corrupt
  | incomplete => exact .incomplete

/-! ## Bits -/

namespace BitStream

/-- The first stream holds the beginning of the second, from which it is read at the same position, and no more
than some bits are left of it. -/
structure Begins (left : Nat) (s t : BitStream) : Prop where
  position : t.position = s.position
  size_le : s.bytes.size ≤ t.bytes.size
  getElem_eq : ∀ i (h : i < s.bytes.size), t.bytes[i] = s.bytes[i]
  remaining_le : s.remaining ≤ left

/-- The same value is read, and the streams go on as they did. -/
def Reads (left : Nat) (p q : α × BitStream) : Prop := p.1 = q.1 ∧ p.2.Begins left q.2

variable {s t : BitStream}

theorem Begins.refl (s : BitStream) : s.Begins s.remaining s := ⟨rfl, Nat.le_refl _, fun _ _ => rfl, Nat.le_refl _⟩

theorem Begins.align (h : s.Begins left t) : s.align.Begins left t.align where
  position := by unfold BitStream.align; rw [h.position]
  size_le := h.size_le
  getElem_eq := h.getElem_eq
  remaining_le := Nat.le_trans (remaining_align_le s) h.remaining_le

theorem Begins.bit (h : s.Begins left t) : Agrees (Reads left) s.bit t.bit := by
  unfold BitStream.bit
  by_cases hlt : s.position / 8 < s.bytes.size
  · have hlt' : t.position / 8 < t.bytes.size := by
      rw [h.position]
      exact Nat.lt_of_lt_of_le hlt h.size_le
    rw [dif_pos hlt, dif_pos hlt']
    refine .ok ⟨?_, congrArg (· + 1) h.position, h.size_le, h.getElem_eq, ?_⟩
    · simp only [h.position, h.getElem_eq _ hlt]
    · exact Nat.le_trans (by simp only [remaining]; omega) h.remaining_le
  · rw [dif_neg hlt]
    exact .incomplete

theorem Begins.bits (h : s.Begins left t) (count : Nat) :
    Agrees (Reads left) (s.bits count) (t.bits count) := by
  induction count with
  | zero => exact .ok ⟨rfl, h⟩
  | succ count ih =>
    have hsucc (s : BitStream) : s.bits (count + 1) = s.bits count >>= fun p => p.2.bit >>= fun q =>
        .ok (if q.1 then p.1 + 1 <<< count else p.1, q.2) := by
      rw [BitStream.bits]
      rcases s.bits count with fault | ⟨value, s⟩
      · rfl
      · rcases hbit : s.bit with fault | ⟨bit, s⟩ <;> simp only [hbit, bind, Except.bind]
    rw [hsucc, hsucc]
    refine ih.bind fun p q hpq => hpq.2.bit.bind fun a b hab => .ok ⟨?_, hab.2⟩
    rw [hpq.1, hab.1]

end BitStream

open BitStream (Reads)

variable {s t : BitStream}

/-! ## Codes -/

theorem HuffmanTree.agrees_decode (tree : HuffmanTree) (h : s.Begins left t) :
    Agrees (Reads left) (tree.decode s) (tree.decode t) := by
  induction tree generalizing s t with
  | empty => exact .corrupt
  | leaf symbol => exact .ok ⟨rfl, h⟩
  | node zero one ihzero ihone =>
    have hnode (s : BitStream) : (node zero one).decode s =
        s.bit >>= fun p => if p.1 then one.decode p.2 else zero.decode p.2 := by
      rw [decode]
      rcases s.bit with fault | ⟨bit, s⟩ <;> rfl
    rw [hnode, hnode]
    refine h.bit.bind fun p q hpq => ?_
    rw [hpq.1]
    split
    · exact ihone hpq.2
    · exact ihzero hpq.2

theorem agrees_readCodeLengths (h : s.Begins left t) (order : List Nat) (lengths : Array Nat) :
    Agrees (Reads left) (readCodeLengths s order lengths) (readCodeLengths t order lengths) := by
  induction order generalizing s t lengths with
  | nil => exact .ok ⟨rfl, h⟩
  | cons symbol order ih =>
    have hcons (s : BitStream) : readCodeLengths s (symbol :: order) lengths =
        s.bits 3 >>= fun p => readCodeLengths p.2 order (lengths.setIfInBounds symbol p.1) := by
      rw [readCodeLengths]
      rcases s.bits 3 with fault | ⟨length, s⟩ <;> rfl
    rw [hcons, hcons]
    refine (h.bits 3).bind fun p q hpq => ?_
    rw [hpq.1]
    exact ih hpq.2 _

theorem agrees_readLengths (tree : HuffmanTree) (total : Nat) (h : s.Begins left t) (lengths : Array Nat) :
    Agrees (Reads left) (readLengths tree total s lengths) (readLengths tree total t lengths) := by
  induction hn : total - lengths.size using Nat.strongRecOn generalizing s t lengths with
  | ind n ih =>
    subst hn
    rw [readLengths, readLengths]
    split
    · split
      · exact .ok ⟨rfl, h⟩
      · exact .corrupt
    have hsymbol := tree.agrees_decode h
    generalize tree.decode s = x at hsymbol ⊢
    generalize tree.decode t = y at hsymbol ⊢
    obtain @⟨⟨symbol, s⟩, ⟨_, t⟩, ⟨rfl, h⟩⟩ | _ | _ := hsymbol
    case corrupt => exact .corrupt
    case incomplete => exact .incomplete
    dsimp only
    split
    · exact ih _ (by simp only [Array.size_push]; omega) h _ rfl
    split
    · exact .corrupt
    have hcount := h.bits (if symbol = 16 then (2, 3) else if symbol = 17 then (3, 3) else (7, 11) : Nat × Nat).1
    generalize s.bits _ = x at hcount ⊢
    generalize t.bits _ = y at hcount ⊢
    obtain @⟨⟨count, s⟩, ⟨_, t⟩, ⟨rfl, h⟩⟩ | _ | _ := hcount
    case corrupt => exact .corrupt
    case incomplete => exact .incomplete
    exact ih _ (by simp only [Array.size_push, Array.size_append]; omega) h _ rfl

/-- The same codes are read, and the streams go on as they did. -/
def ReadsTables (left : Nat) (p q : HuffmanTree × HuffmanTree × BitStream) : Prop :=
  p.1 = q.1 ∧ p.2.1 = q.2.1 ∧ p.2.2.Begins left q.2.2

theorem agrees_readTables (h : s.Begins left t) : Agrees (ReadsTables left) (readTables s) (readTables t) := by
  unfold readTables
  simp only [throw, throwThe, MonadExceptOf.throw]
  refine (h.bits 5).bind ?_
  rintro ⟨literalCount, s⟩ ⟨_, t⟩ ⟨rfl, h⟩
  refine (h.bits 5).bind ?_
  rintro ⟨distanceCount, s⟩ ⟨_, t⟩ ⟨rfl, h⟩
  refine (h.bits 4).bind ?_
  rintro ⟨codeCount, s⟩ ⟨_, t⟩ ⟨rfl, h⟩
  dsimp only
  split
  · exact .corrupt
  refine (agrees_readCodeLengths h _ _).bind ?_
  rintro ⟨lengths, s⟩ ⟨_, t⟩ ⟨rfl, h⟩
  dsimp only
  split
  · exact .corrupt
  refine (agrees_readLengths _ _ h _).bind ?_
  rintro ⟨lengths, s⟩ ⟨_, t⟩ ⟨rfl, h⟩
  dsimp only
  split
  · exact .corrupt
  · exact .ok ⟨rfl, rfl, h⟩

/-! ## Steps -/

namespace Inflater

/-- The first state is that of reading the beginning of the stream that the second reads. -/
structure Begins (left : Nat) (s t : Inflater) : Prop where
  input : s.input.Begins left t.input
  output : t.output = s.output
  stage : t.stage = s.stage

/-- A step that goes on leads to such states again; only the one that reads the trailer does not go on. -/
inductive Proceeds (left : Nat) (stage : Stage) : Progress Inflater → Progress Inflater → Prop
  | more {s t : Inflater} : s.Begins left t → Proceeds left stage (.more s) (.more t)
  | finished {s t : Inflater} : stage = .trailer → Proceeds left stage (.finished s) (.finished t)

variable {s t : Inflater}

theorem Begins.refl (s : Inflater) : s.Begins s.input.remaining s := ⟨.refl _, rfl, rfl⟩

theorem Begins.readPreamble (h : s.Begins left t) :
    Agrees (Proceeds left s.stage) s.readPreamble t.readPreamble := by
  unfold Inflater.readPreamble
  refine (h.input.bits 8).bind ?_
  rintro ⟨method, input⟩ ⟨_, input'⟩ ⟨rfl, hinput⟩
  refine (hinput.bits 8).bind ?_
  rintro ⟨flags, input⟩ ⟨_, input'⟩ ⟨rfl, hinput⟩
  dsimp only
  split
  · exact .corrupt
  · exact .ok (.more ⟨hinput, h.output, rfl⟩)

theorem Begins.readHeader (h : s.Begins left t) : Agrees (Proceeds left s.stage) s.readHeader t.readHeader := by
  unfold Inflater.readHeader
  refine h.input.bit.bind ?_
  rintro ⟨last, input⟩ ⟨_, input'⟩ ⟨rfl, hinput⟩
  refine (hinput.bits 2).bind ?_
  rintro ⟨kind, input⟩ ⟨_, input'⟩ ⟨rfl, hinput⟩
  dsimp only
  split
  · refine (hinput.align.bits 16).bind ?_
    rintro ⟨length, input⟩ ⟨_, input'⟩ ⟨rfl, hinput⟩
    refine (hinput.bits 16).bind ?_
    rintro ⟨complement, input⟩ ⟨_, input'⟩ ⟨rfl, hinput⟩
    dsimp only
    split
    · exact .corrupt
    · exact .ok (.more ⟨hinput, h.output, rfl⟩)
  · exact .ok (.more ⟨hinput, h.output, rfl⟩)
  · refine (agrees_readTables hinput).bind ?_
    rintro ⟨literals, distances, input⟩ ⟨_, _, input'⟩ ⟨rfl, rfl, hinput⟩
    exact .ok (.more ⟨hinput, h.output, rfl⟩)
  · exact .corrupt

theorem Begins.readSymbol (h : s.Begins left t) (last : Bool) (literals distances : HuffmanTree) :
    Agrees (Proceeds left s.stage) (s.readSymbol last literals distances) (t.readSymbol last literals distances) := by
  unfold Inflater.readSymbol
  refine (literals.agrees_decode h.input).bind ?_
  rintro ⟨symbol, input⟩ ⟨_, input'⟩ ⟨rfl, hinput⟩
  dsimp only
  split
  · exact .ok (.more ⟨hinput, by simp only [h.output], h.stage⟩)
  split
  · exact .ok (.more ⟨hinput, h.output, rfl⟩)
  split
  · refine (hinput.bits _).bind ?_
    rintro ⟨more, input⟩ ⟨_, input'⟩ ⟨rfl, hinput⟩
    refine (distances.agrees_decode hinput).bind ?_
    rintro ⟨symbol, input⟩ ⟨_, input'⟩ ⟨rfl, hinput⟩
    dsimp only
    split
    · refine (hinput.bits _).bind ?_
      rintro ⟨more, input⟩ ⟨_, input'⟩ ⟨rfl, hinput⟩
      exact .ok (.more ⟨hinput, by simp only [h.output], h.stage⟩)
    · exact .corrupt
  · exact .corrupt

theorem Begins.readTrailer (h : s.Begins left t) (htrailer : s.stage = .trailer) :
    Agrees (Proceeds left s.stage) s.readTrailer t.readTrailer := by
  unfold Inflater.readTrailer
  rw [h.output]
  refine (h.input.align.bits 8).bind ?_
  rintro ⟨b3, input⟩ ⟨_, input'⟩ ⟨rfl, hinput⟩
  refine (hinput.bits 8).bind ?_
  rintro ⟨b2, input⟩ ⟨_, input'⟩ ⟨rfl, hinput⟩
  refine (hinput.bits 8).bind ?_
  rintro ⟨b1, input⟩ ⟨_, input'⟩ ⟨rfl, hinput⟩
  refine (hinput.bits 8).bind ?_
  rintro ⟨b0, input⟩ ⟨_, input'⟩ ⟨rfl, hinput⟩
  dsimp only
  split
  · exact .ok (.finished htrailer)
  · exact .corrupt

theorem Begins.step (h : s.Begins left t) : Agrees (Proceeds left s.stage) s.step t.step := by
  unfold Inflater.step
  rw [h.stage]
  split
  · exact h.readPreamble
  · exact h.readHeader
  · refine (h.input.bits 8).bind ?_
    rintro ⟨byte, input⟩ ⟨_, input'⟩ ⟨rfl, hinput⟩
    exact .ok (.more ⟨hinput, by simp only [h.output], rfl⟩)
  · exact h.readSymbol ..
  · exact h.readTrailer ‹_›

/-! ## Streams -/

/-- Reading on in the beginning of a stream and in all of it comes to such states again. -/
theorem Begins.exists_reaches {u : Inflater} (h : s.Begins left t) (hs : inflater.Reaches s u) :
    ∃ v, inflater.Reaches t v ∧ u.Begins left v := by
  induction hs with
  | refl => exact ⟨t, .refl, h⟩
  | tail _ hstep ih =>
    obtain ⟨v, hv, hbegins⟩ := ih
    have hagrees := hbegins.step
    rw [show Inflater.step _ = _ from hstep] at hagrees
    generalize hstep' : v.step = y at hagrees
    obtain ⟨⟨hnext⟩⟩ := hagrees
    exact ⟨_, hv.tail hstep', hnext⟩

theorem begins_append (payload rest : List UInt8) :
    (ofBytes payload).Begins (8 * payload.length) (ofBytes (payload ++ rest)) where
  input := {
    position := rfl
    size_le := by
      show payload.toArray.size ≤ (payload ++ rest).toArray.size
      rw [List.size_toArray, List.size_toArray, List.length_append]
      exact Nat.le_add_right ..
    getElem_eq := fun i h => List.getElem_append_left h
    remaining_le := Nat.sub_le .. }
  output := rfl
  stage := rfl

/-- What is decoded in the beginning of a stream is decoded in all of it, corruption included. -/
theorem exists_reaches_append {payload : List UInt8} (h : inflater.Reaches (ofBytes payload) s)
    (rest : List UInt8) :
    ∃ t, inflater.Reaches (ofBytes (payload ++ rest)) t ∧ t.output = s.output ∧
      (s.step = .error .corrupt → t.step = .error .corrupt) := by
  obtain ⟨t, ht, hbegins⟩ := (begins_append payload rest).exists_reaches h
  refine ⟨t, ht, hbegins.output, fun hcorrupt => ?_⟩
  have hagrees := hbegins.step
  rw [hcorrupt] at hagrees
  generalize t.step = y at hagrees ⊢
  cases hagrees
  rfl

end Inflater

end FlashVolume.Zlib
