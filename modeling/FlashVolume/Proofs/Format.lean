/-
Values of an exact format. A value is read exactly from the bytes it is written as, and nothing else than a
short input keeps one from being read. Values written back to back take up their size each; reading as many of
them gives the values back, and writing what was read gives the bytes back.
-/
import FlashVolume.Format

namespace FlashVolume.Format

variable {α : Type} {f : Format α}

theorem length_flatMap_encode (hf : f.Exact) (as : List α) :
    (as.flatMap f.encode).length = as.length * f.size := by
  induction as with
  | nil => exact (Nat.zero_mul _).symm
  | cons a as ih =>
    rw [List.flatMap_cons, List.length_append, hf.length_encode, ih, List.length_cons, Nat.succ_mul,
      Nat.add_comm]

/-- Reading undoes writing, whatever follows. -/
theorem readAll_encode (hf : f.Exact) (as : List α) (rest : List UInt8) :
    f.readAll as.length (as.flatMap f.encode ++ rest) = as := by
  induction as with
  | nil => rfl
  | cons a as ih =>
    rw [List.flatMap_cons, List.append_assoc, List.length_cons, readAll, hf.decode_encode]
    simp only [ih]

/-- A value is read exactly from the bytes it is written as, whatever follows. -/
theorem read?_eq_some (hf : f.Exact) {bytes : List UInt8} {a : α} :
    f.read? bytes = some a ↔ ∃ rest, bytes = f.encode a ++ rest := by
  unfold read?
  rw [Option.map_eq_some_iff]
  constructor
  · rintro ⟨⟨b, rest⟩, hdecode, rfl⟩
    exact ⟨rest, (hf.encode_of_decode hdecode).symm⟩
  · rintro ⟨rest, rfl⟩
    exact ⟨(a, rest), hf.decode_encode a rest, rfl⟩

theorem encode_injective (hf : f.Exact) : Function.Injective f.encode := by
  intro a b h
  have ha := (read?_eq_some hf).2 ⟨[], (List.append_nil (f.encode a)).symm⟩
  rw [h, (read?_eq_some hf).2 ⟨[], (List.append_nil (f.encode b)).symm⟩] at ha
  exact (Option.some.inj ha).symm

/-- Bytes enough for a value are the bytes of one. -/
theorem exists_read? (hf : f.Exact) {bytes : List UInt8} (h : f.size ≤ bytes.length) :
    ∃ a, f.read? bytes = some a ∧ f.encode a = bytes.take f.size := by
  obtain ⟨⟨a, rest⟩, hdecode⟩ := Option.isSome_iff_exists.1 ((hf.decode_isSome bytes).2 h)
  have hbytes := hf.encode_of_decode hdecode
  refine ⟨a, (read?_eq_some hf).2 ⟨rest, hbytes.symm⟩, ?_⟩
  rw [← hbytes, ← hf.length_encode a, List.take_left]

theorem read?_eq_none (hf : f.Exact) {bytes : List UInt8} : f.read? bytes = none ↔ bytes.length < f.size := by
  have := hf.decode_isSome bytes
  unfold read?
  rw [Option.map_eq_none_iff, ← Option.not_isSome_iff_eq_none, this]
  omega

/-- Writing what was read gives the bytes back. -/
theorem readAll_spec (hf : f.Exact) {count : Nat} {bytes : List UInt8}
    (h : count * f.size ≤ bytes.length) :
    (f.readAll count bytes).length = count ∧
      (f.readAll count bytes).flatMap f.encode = bytes.take (count * f.size) := by
  induction count generalizing bytes with
  | zero => simp [readAll]
  | succ count ih =>
    rw [Nat.succ_mul] at h
    obtain ⟨⟨a, rest⟩, hdecode⟩ := Option.isSome_iff_exists.1 ((hf.decode_isSome bytes).2 (by omega))
    have hbytes := hf.encode_of_decode hdecode
    have hlength := hf.length_encode a
    rw [← hbytes, List.length_append, hlength] at h
    have hrest : count * f.size ≤ rest.length := by omega
    obtain ⟨hcount, hflat⟩ := ih hrest
    simp only [readAll, hdecode]
    refine ⟨congrArg (· + 1) hcount, ?_⟩
    rw [List.flatMap_cons, hflat, ← hbytes, Nat.succ_mul, Nat.add_comm, ← hlength, List.take_length_add_append]

end FlashVolume.Format
