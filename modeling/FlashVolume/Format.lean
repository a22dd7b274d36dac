/-
Binary formats of fixed size. A format writes every value of a type as the same number of bytes and
reads a value back from the front of a byte string. Little-endian words, byte blocks, pairs, vectors
and renamed tuples are built here, and `Format.Exact` says what a sound format keeps: writing and
reading undo each other in both directions, and reading fails only for want of bytes. Each
constructor of formats keeps it.
-/

namespace FlashVolume

/-- How values of a type are laid out in `size` bytes. -/
structure Format (α : Type) where
  size : Nat
  encode : α → List UInt8
  decode : List UInt8 → Option (α × List UInt8)

namespace Format

variable {α β : Type}

/-- Writing and reading are inverse to each other, and only a short input is refused. -/
structure Exact (f : Format α) : Prop where
  length_encode : ∀ a, (f.encode a).length = f.size
  decode_encode : ∀ a rest, f.decode (f.encode a ++ rest) = some (a, rest)
  encode_of_decode : ∀ {bytes a rest}, f.decode bytes = some (a, rest) → f.encode a ++ rest = bytes
  decode_isSome : ∀ bytes, (f.decode bytes).isSome = true ↔ f.size ≤ bytes.length

/-- The value at the front of `bytes`, if they hold a whole one. -/
def read? (f : Format α) (bytes : List UInt8) : Option α :=
  (f.decode bytes).map (·.1)

/-- Every whole value of a byte string, in order; a tail too short for another one is ignored. -/
def readAll (f : Format α) (count : Nat) (bytes : List UInt8) : List α :=
  match count with
  | 0 => []
  | count + 1 =>
    match f.decode bytes with
    | some (a, rest) => a :: readAll f count rest
    | none => []

/-! ## Words -/

/-- A single byte. -/
def u8 : Format UInt8 where
  size := 1
  encode b := [b]
  decode
    | b :: rest => some (b, rest)
    | [] => none

/-- The first value followed by the second. -/
def pair (f : Format α) (g : Format β) : Format (α × β) where
  size := f.size + g.size
  encode p := f.encode p.1 ++ g.encode p.2
  decode bytes :=
    match f.decode bytes with
    | none => none
    | some (a, rest) =>
      match g.decode rest with
      | none => none
      | some (b, rest) => some ((a, b), rest)

/-- The same bytes, read as another type. -/
def map (f : Format α) (build : α → β) (parts : β → α) : Format β where
  size := f.size
  encode b := f.encode (parts b)
  decode bytes :=
    match f.decode bytes with
    | none => none
    | some (a, rest) => some (build a, rest)

/-- Two bytes, the low one first. -/
def u16 : Format UInt16 :=
  (pair u8 u8).map (fun p => p.1.toUInt16 + p.2.toUInt16 * 256)
    (fun w => (w.toUInt8, (w / 256).toUInt8))

/-- Four bytes, the low half first. -/
def u32 : Format UInt32 :=
  (pair u16 u16).map (fun p => p.1.toUInt32 + p.2.toUInt32 * 65536)
    (fun w => (w.toUInt16, (w / 65536).toUInt16))

/-- Eight bytes, the low half first. -/
def u64 : Format UInt64 :=
  (pair u32 u32).map (fun p => p.1.toUInt64 + p.2.toUInt64 * 4294967296)
    (fun w => (w.toUInt32, (w / 4294967296).toUInt32))

/-! ## Vectors -/

/-- The next `n` values of a byte string. -/
def decodeVector (f : Format α) : (n : Nat) → List UInt8 → Option (Vector α n × List UInt8)
  | 0, bytes => some (#v[], bytes)
  | n + 1, bytes =>
    match decodeVector f n bytes with
    | none => none
    | some (v, rest) =>
      match f.decode rest with
      | none => none
      | some (a, rest) => some (v.push a, rest)

/-- A fixed number of values one after the other. -/
def vector (f : Format α) (n : Nat) : Format (Vector α n) where
  size := n * f.size
  encode v := v.toList.flatMap f.encode
  decode := decodeVector f n

/-- A block of bytes kept as they are. -/
def bytes (n : Nat) : Format (Vector UInt8 n) := u8.vector n

/-! ## Exactness -/

theorem exact_u8 : u8.Exact where
  length_encode _ := rfl
  decode_encode _ _ := rfl
  encode_of_decode {bytes a rest} h := by
    cases bytes with
    | nil => simp [u8] at h
    | cons b bs => simp [u8] at h; simp [u8, h]
  decode_isSome bytes := by cases bytes <;> simp [u8]

theorem Exact.pair {f : Format α} {g : Format β} (hf : f.Exact) (hg : g.Exact) :
    (f.pair g).Exact where
  length_encode p := by simp [Format.pair, hf.length_encode, hg.length_encode]
  decode_encode p rest := by
    simp [Format.pair, List.append_assoc, hf.decode_encode, hg.decode_encode]
  encode_of_decode {bytes p rest} h := by
    simp only [Format.pair] at h ⊢
    split at h
    · cases h
    · rename_i a mid ha
      split at h
      · cases h
      · rename_i b tail hb
        cases h
        rw [List.append_assoc, hg.encode_of_decode hb, hf.encode_of_decode ha]
  decode_isSome bytes := by
    simp only [Format.pair]
    split
    · rename_i ha
      have := hf.decode_isSome bytes
      simp only [ha, Option.isSome_none, Bool.false_eq_true, false_iff] at this ⊢
      omega
    · rename_i a rest ha
      have hl : bytes.length = f.size + rest.length := by
        rw [← hf.encode_of_decode ha, List.length_append, hf.length_encode]
      have := hg.decode_isSome rest
      split
      · rename_i hb
        simp only [hb, Option.isSome_none, Bool.false_eq_true, false_iff] at this ⊢
        omega
      · rename_i hb
        simp only [hb, Option.isSome_some, true_iff] at this ⊢
        omega

theorem Exact.map {f : Format α} (hf : f.Exact) {build : α → β} {parts : β → α}
    (build_parts : ∀ b, build (parts b) = b) (parts_build : ∀ a, parts (build a) = a) :
    (f.map build parts).Exact where
  length_encode b := hf.length_encode (parts b)
  decode_encode b rest := by simp [Format.map, hf.decode_encode, build_parts]
  encode_of_decode {bytes b rest} h := by
    simp only [Format.map] at h ⊢
    split at h
    · cases h
    · rename_i a mid ha
      cases h
      rw [parts_build, hf.encode_of_decode ha]
  decode_isSome bytes := by
    have := hf.decode_isSome bytes
    simp only [Format.map]
    split <;> simp_all

theorem exact_u16 : u16.Exact :=
  (exact_u8.pair exact_u8).map
    (fun w => by
      apply UInt16.toNat_inj.1
      have := w.toNat_lt
      simp [UInt16.toNat_add, UInt16.toNat_mul, UInt16.toNat_div]
      omega)
    (fun p => by
      obtain ⟨a, b⟩ := p
      have := a.toNat_lt
      have := b.toNat_lt
      refine Prod.ext (UInt8.toNat_inj.1 ?_) (UInt8.toNat_inj.1 ?_) <;>
        simp [UInt16.toNat_add, UInt16.toNat_mul, UInt16.toNat_div]
      omega)

theorem exact_u32 : u32.Exact :=
  (exact_u16.pair exact_u16).map
    (fun w => by
      apply UInt32.toNat_inj.1
      have := w.toNat_lt
      simp [UInt32.toNat_add, UInt32.toNat_mul, UInt32.toNat_div]
      omega)
    (fun p => by
      obtain ⟨a, b⟩ := p
      have := a.toNat_lt
      have := b.toNat_lt
      refine Prod.ext (UInt16.toNat_inj.1 ?_) (UInt16.toNat_inj.1 ?_) <;>
        simp [UInt32.toNat_add, UInt32.toNat_mul, UInt32.toNat_div]
      omega)

theorem exact_u64 : u64.Exact :=
  (exact_u32.pair exact_u32).map
    (fun w => by
      apply UInt64.toNat_inj.1
      have := w.toNat_lt
      simp [UInt64.toNat_add, UInt64.toNat_mul, UInt64.toNat_div]
      omega)
    (fun p => by
      obtain ⟨a, b⟩ := p
      have := a.toNat_lt
      have := b.toNat_lt
      refine Prod.ext (UInt32.toNat_inj.1 ?_) (UInt32.toNat_inj.1 ?_) <;>
        simp [UInt64.toNat_add, UInt64.toNat_mul, UInt64.toNat_div]
      omega)

theorem Exact.vector {f : Format α} (hf : f.Exact) (n : Nat) : (f.vector n).Exact := by
  induction n with
  | zero =>
    have nil_of_zero : ∀ v : Vector α 0, v = #v[] := fun v => by ext i hi; omega
    refine ⟨fun v => by simp [Format.vector, nil_of_zero v], fun v rest => ?_,
      fun {bytes v rest} h => ?_, fun bytes => ?_⟩
    · simp [Format.vector, decodeVector, nil_of_zero v]
    · simp only [Format.vector, decodeVector, Option.some.injEq, Prod.mk.injEq] at h ⊢
      simp [h.1.symm, h.2.symm]
    · simp [Format.vector, decodeVector]
  | succ n ih =>
    have split_push : ∀ v : Vector α (n + 1), v = v.pop.push v.back := fun v => by simp
    have encode_push : ∀ (v : Vector α n) a,
        (f.vector (n + 1)).encode (v.push a) = (f.vector n).encode v ++ f.encode a := fun v a => by
      simp [Format.vector, Vector.toList_push]
    refine ⟨fun v => ?_, fun v rest => ?_, fun {bytes v rest} h => ?_, fun bytes => ?_⟩
    · rw [split_push v, encode_push, List.length_append, hf.length_encode, ih.length_encode]
      simp only [Format.vector, Nat.add_mul, Nat.one_mul]
    · rw [split_push v, encode_push, List.append_assoc]
      have := ih.decode_encode v.pop (f.encode v.back ++ rest)
      simp only [Format.vector, decodeVector, Nat.add_one_sub_one] at this ⊢
      rw [this]
      simp [hf.decode_encode]
    · simp only [Format.vector, decodeVector] at h
      split at h
      · cases h
      · rename_i w mid hw
        split at h
        · cases h
        · rename_i a tail ha
          cases h
          rw [encode_push, List.append_assoc, hf.encode_of_decode ha]
          exact ih.encode_of_decode hw
    · have hi := ih.decode_isSome bytes
      simp only [Format.vector, decodeVector] at hi ⊢
      split
      · rename_i hw
        simp only [hw, Option.isSome_none] at hi ⊢
        simp only [Bool.false_eq_true, false_iff, Nat.not_le, Nat.add_mul] at hi ⊢
        omega
      · rename_i w rest hw
        have hl : bytes.length = n * f.size + rest.length := by
          rw [← ih.encode_of_decode hw, List.length_append, ih.length_encode]; rfl
        have := hf.decode_isSome rest
        split
        · rename_i hb
          simp only [hb, Option.isSome_none, Bool.false_eq_true, false_iff, Nat.add_mul] at this ⊢
          omega
        · rename_i hb
          simp only [hb, Option.isSome_some, true_iff, Nat.add_mul] at this ⊢
          omega

theorem exact_bytes (n : Nat) : (bytes n).Exact := exact_u8.vector n

end Format

end FlashVolume
