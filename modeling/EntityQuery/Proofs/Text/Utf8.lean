import EntityQuery.Text.Utf8
import EntityQuery.Proofs.Result

/-!
# Decoding what was encoded

The bytes of a text decode to the text.  A character has one to four bytes: the first one tells how
many follow, and each of them carries six bits of the code point.
-/

namespace EntityQuery.Text

theorem char_toNat_valid (c : Char) :
    c.toNat < 0xD800 ∨ 0xDFFF < c.toNat ∧ c.toNat < 0x110000 := c.valid

theorem toNat_byte {n : Nat} (h : n < 256) : (UInt8.ofNat n).toNat = n := by
  rw [UInt8.toNat_ofNat']
  exact Nat.mod_eq_of_lt h

/-! ## One sequence -/

/-- The bytes of a sequence behind the first one are passed over. -/
theorem decodeFrom_length (index : Nat) (tail rest : List UInt8) :
    decodeFrom index tail.length (tail ++ rest) = decodeFrom (index + tail.length) 0 rest := by
  induction tail generalizing index with
  | nil => rfl
  | cons byte tail ih =>
      have hindex : index + (tail.length + 1) = index + 1 + tail.length := by omega
      rw [List.length_cons, List.cons_append, decodeFrom, ih, hindex]

/-- A sequence is a character, if its code point is that of the character. -/
theorem decodeFrom_sequence {index bits : Nat} {c : Char} {lead : UInt8} {tail rest : List UInt8}
    (hlead : leadByte lead.toNat = (tail.length + 1, bits))
    (hcode : continueSequence bits 1 (secondByteRange lead.toNat) tail.length (tail ++ rest) =
      .ok c.toNat) :
    decodeFrom index 0 (lead :: tail ++ rest) =
      (decodeFrom (index + (tail.length + 1)) 0 rest).map (c :: ·) := by
  have hindex : index + (tail.length + 1) = index + 1 + tail.length := by omega
  rw [List.cons_append, decodeFrom]
  simp only [hlead, Nat.add_sub_cancel, hcode, decodeFrom_length, hindex, Char.ofNat_toNat]
  rfl

/-- A byte of a sequence adds its six bits. -/
theorem continueSequence_byte {code read n missing : Nat} {range : Nat × Nat} {rest : List UInt8}
    (hn : n < 64) (hlow : range.1 ≤ n + 0x80) (hhigh : n + 0x80 ≤ range.2) :
    continueSequence code read range (missing + 1) (UInt8.ofNat (n + 0x80) :: rest) =
      continueSequence (code * 64 + n) (read + 1) (0x80, 0xBF) missing rest := by
  have hbyte : (UInt8.ofNat (n + 0x80)).toNat = n + 0x80 := toNat_byte (by omega)
  simp only [continueSequence, hbyte, Nat.add_sub_cancel, hlow, hhigh, decide_true, Bool.and_self,
    if_true]

/-! ## Characters -/

theorem leadByte_two {n : Nat} (hlow : 2 ≤ n) (hhigh : n < 0x20) :
    leadByte (n + 0xC0) = (2, n) := by
  have h1 : ¬n + 0xC0 < 0x80 := by omega
  have h2 : 0xC2 ≤ n + 0xC0 := by omega
  have h3 : n + 0xC0 ≤ 0xDF := by omega
  simp [leadByte, h1, h2, h3]

theorem leadByte_three {n : Nat} (hhigh : n < 0x10) : leadByte (n + 0xE0) = (3, n) := by
  have h1 : ¬n + 0xE0 < 0x80 := by omega
  have h2 : ¬n + 0xE0 ≤ 0xDF := by omega
  have h3 : n + 0xE0 ≤ 0xEF := by omega
  simp [leadByte, h1, h2, h3]

theorem leadByte_four {n : Nat} (hhigh : n < 5) : leadByte (n + 0xF0) = (4, n) := by
  have h1 : ¬n + 0xF0 < 0x80 := by omega
  have h2 : ¬n + 0xF0 ≤ 0xDF := by omega
  have h3 : ¬n + 0xF0 ≤ 0xEF := by omega
  have h4 : n + 0xF0 ≤ 0xF4 := by omega
  simp [leadByte, h1, h2, h3, h4]

/-- The second byte of a character stays in the range that its first byte leaves: shorter sequences
and surrogates have no characters. -/
theorem secondByteRange_of_char {c : Char} {lead second : Nat}
    (h : lead = c.toNat / 4096 + 0xE0 ∧ second = c.toNat / 64 % 64 ∧ 0x7FF < c.toNat ∧
        c.toNat ≤ 0xFFFF ∨
      lead = c.toNat / 262144 + 0xF0 ∧ second = c.toNat / 4096 % 64 ∧ 0xFFFF < c.toNat ∨
      lead < 0xE0 ∧ second < 64) :
    (secondByteRange lead).1 ≤ second + 0x80 ∧ second + 0x80 ≤ (secondByteRange lead).2 := by
  have hvalid := char_toNat_valid c
  simp only [secondByteRange, beq_iff_eq]
  split
  · omega
  · split
    · omega
    · split
      · omega
      · split <;> omega

theorem decodeFrom_oneByte {c : Char} (index : Nat) (hc : c.toNat ≤ 0x7F) (rest : List UInt8) :
    decodeFrom index 0 ([UInt8.ofNat c.toNat] ++ rest) =
      (decodeFrom (index + 1) 0 rest).map (c :: ·) := by
  have hlead : leadByte (UInt8.ofNat c.toNat).toNat = (1, c.toNat) := by
    rw [toNat_byte (by omega), leadByte, if_pos (by omega)]
  exact decodeFrom_sequence hlead rfl

theorem decodeFrom_twoBytes {c : Char} (index : Nat) (hlow : 0x7F < c.toNat)
    (hhigh : c.toNat ≤ 0x7FF) (rest : List UInt8) :
    decodeFrom index 0 ([UInt8.ofNat (c.toNat / 64 % 32 + 0xC0),
        UInt8.ofNat (c.toNat % 64 + 0x80)] ++ rest) =
      (decodeFrom (index + 2) 0 rest).map (c :: ·) := by
  have hmod : c.toNat / 64 % 32 = c.toNat / 64 := by omega
  have hlead : (UInt8.ofNat (c.toNat / 64 + 0xC0)).toNat = c.toNat / 64 + 0xC0 :=
    toNat_byte (by omega)
  have hrange := secondByteRange_of_char (c := c) (.inr (.inr
    ⟨(by omega : c.toNat / 64 + 0xC0 < 0xE0), (by omega : c.toNat % 64 < 64)⟩))
  have hcode : c.toNat / 64 * 64 + c.toNat % 64 = c.toNat := by omega
  rw [hmod]
  refine decodeFrom_sequence (by rw [hlead]; exact leadByte_two (by omega) (by omega)) ?_
  rw [hlead, List.length_singleton, List.singleton_append,
    continueSequence_byte (by omega) hrange.1 hrange.2, hcode]
  rfl

theorem decodeFrom_threeBytes {c : Char} (index : Nat) (hlow : 0x7FF < c.toNat)
    (hhigh : c.toNat ≤ 0xFFFF) (rest : List UInt8) :
    decodeFrom index 0 ([UInt8.ofNat (c.toNat / 4096 % 16 + 0xE0),
        UInt8.ofNat (c.toNat / 64 % 64 + 0x80), UInt8.ofNat (c.toNat % 64 + 0x80)] ++ rest) =
      (decodeFrom (index + 3) 0 rest).map (c :: ·) := by
  have hmod : c.toNat / 4096 % 16 = c.toNat / 4096 := by omega
  have hlead : (UInt8.ofNat (c.toNat / 4096 + 0xE0)).toNat = c.toNat / 4096 + 0xE0 :=
    toNat_byte (by omega)
  have hrange := secondByteRange_of_char (c := c) (.inl ⟨rfl, rfl, hlow, hhigh⟩)
  have hcode : (c.toNat / 4096 * 64 + c.toNat / 64 % 64) * 64 + c.toNat % 64 = c.toNat := by omega
  rw [hmod]
  refine decodeFrom_sequence (by rw [hlead]; exact leadByte_three (by omega)) ?_
  simp only [hlead, List.length_cons, List.length_nil, List.cons_append, List.nil_append]
  rw [continueSequence_byte (by omega) hrange.1 hrange.2,
    continueSequence_byte (by omega) (by simp) (by simp; omega), hcode]
  rfl

theorem decodeFrom_fourBytes {c : Char} (index : Nat) (hlow : 0xFFFF < c.toNat)
    (rest : List UInt8) :
    decodeFrom index 0 ([UInt8.ofNat (c.toNat / 262144 % 8 + 0xF0),
        UInt8.ofNat (c.toNat / 4096 % 64 + 0x80), UInt8.ofNat (c.toNat / 64 % 64 + 0x80),
        UInt8.ofNat (c.toNat % 64 + 0x80)] ++ rest) =
      (decodeFrom (index + 4) 0 rest).map (c :: ·) := by
  have hvalid := char_toNat_valid c
  have hmod : c.toNat / 262144 % 8 = c.toNat / 262144 := by omega
  have hlead : (UInt8.ofNat (c.toNat / 262144 + 0xF0)).toNat = c.toNat / 262144 + 0xF0 :=
    toNat_byte (by omega)
  have hrange := secondByteRange_of_char (c := c) (.inr (.inl ⟨rfl, rfl, hlow⟩))
  have hcode : ((c.toNat / 262144 * 64 + c.toNat / 4096 % 64) * 64 + c.toNat / 64 % 64) * 64 +
      c.toNat % 64 = c.toNat := by omega
  rw [hmod]
  refine decodeFrom_sequence (by rw [hlead]; exact leadByte_four (by omega)) ?_
  simp only [hlead, List.length_cons, List.length_nil, List.cons_append, List.nil_append]
  rw [continueSequence_byte (by omega) hrange.1 hrange.2,
    continueSequence_byte (by omega) (by simp) (by simp; omega),
    continueSequence_byte (by omega) (by simp) (by simp; omega), hcode]
  rfl

/-- The first byte of a character and the six bits of each byte behind it. -/
theorem decodeFrom_encodeChar (index : Nat) (c : Char) (rest : List UInt8) :
    decodeFrom index 0 (String.utf8EncodeChar c ++ rest) =
      (decodeFrom (index + (String.utf8EncodeChar c).length) 0 rest).map (c :: ·) := by
  have hval : c.val.toNat = c.toNat := rfl
  unfold String.utf8EncodeChar
  simp only [hval]
  split
  · rename_i hone
    exact decodeFrom_oneByte index hone rest
  · rename_i hone
    split
    · rename_i htwo
      exact decodeFrom_twoBytes index (Nat.lt_of_not_le hone) htwo rest
    · rename_i htwo
      split
      · rename_i hthree
        exact decodeFrom_threeBytes index (Nat.lt_of_not_le htwo) hthree rest
      · rename_i hthree
        exact decodeFrom_fourBytes index (Nat.lt_of_not_le hthree) rest

/-- Texts are what their bytes decode to. -/
theorem utf8Decode_utf8Bytes (cs : List Char) : utf8Decode (utf8Bytes cs) = .ok cs := by
  have hfrom (index : Nat) : decodeFrom index 0 (utf8Bytes cs) = .ok cs := by
    induction cs generalizing index with
    | nil => rfl
    | cons c cs ih =>
        rw [utf8Bytes, List.flatMap_cons, decodeFrom_encodeChar]
        change (decodeFrom _ 0 (utf8Bytes cs)).map (c :: ·) = .ok (c :: cs)
        rw [ih]
        rfl
  exact hfrom 0

end EntityQuery.Text
