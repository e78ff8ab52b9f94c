import EntityQuery.Text.Percent
import EntityQuery.Proofs.Text.Utf8

/-!
# Decoding a link

What percent encoding writes consists of unreserved characters and percent signs, so nothing in it
separates options or stands for a blank.  Decoding it gives the text that was encoded.
-/

namespace EntityQuery.Text

/-! ## Characters of a link -/

/-- The characters that percent encoding writes. -/
def isLinkChar (c : Char) : Bool := isUnreserved c || c == '%'

theorem isUnreserved_hexCapital {n : Nat} (h : n < 16) : isUnreserved (hexCapital n) = true := by
  have hall : ∀ m < 16, isUnreserved (hexCapital m) = true := by decide
  exact hall n h

theorem isLinkChar_percentByte {c : Char} {b : UInt8} (h : c ∈ percentByte b) :
    isLinkChar c = true := by
  have hlt : b.toNat < 256 := b.toNat_lt
  simp only [percentByte, List.mem_cons, List.not_mem_nil, or_false] at h
  rcases h with rfl | rfl | rfl
  · rfl
  · rw [isLinkChar, isUnreserved_hexCapital (by omega), Bool.true_or]
  · rw [isLinkChar, isUnreserved_hexCapital (by omega), Bool.true_or]

theorem isLinkChar_percentEncode {c : Char} {cs : List Char} (h : c ∈ percentEncode cs) :
    isLinkChar c = true := by
  obtain ⟨d, -, hd⟩ := List.mem_flatMap.1 h
  unfold percentChar at hd
  split at hd
  · rename_i hunreserved
    rw [List.mem_singleton.1 hd, isLinkChar, hunreserved, Bool.true_or]
  · obtain ⟨b, -, hb⟩ := List.mem_flatMap.1 hd
    exact isLinkChar_percentByte hb

/-! ## Decoding -/

theorem hexValue?_hexCapital {n : Nat} (h : n < 16) : hexValue? (hexCapital n) = some n := by
  have hall : ∀ m < 16, hexValue? (hexCapital m) = some m := by decide
  exact hall n h

theorem percentBytes_percentByte (b : UInt8) (rest : List Char) :
    percentBytes (percentByte b ++ rest) = b :: percentBytes rest := by
  have hlt : b.toNat < 256 := b.toNat_lt
  have hvalue : b.toNat / 16 * 16 + b.toNat % 16 = b.toNat := by omega
  have hpair : hexPair? (hexCapital (b.toNat / 16)) (hexCapital (b.toNat % 16)) = some b := by
    rw [hexPair?, hexValue?_hexCapital (by omega), hexValue?_hexCapital (by omega)]
    simp only [hvalue, UInt8.ofNat_toNat]
  simp only [percentByte, List.cons_append, List.nil_append, percentBytes, hpair]

theorem percentBytes_cons {c : Char} (h : c ≠ '%') (rest : List Char) :
    percentBytes (c :: rest) = String.utf8EncodeChar c ++ percentBytes rest := by
  rw [percentBytes.eq_2]
  rintro a b cs hc -
  exact h hc

theorem percentBytes_percentChar (c : Char) (rest : List Char) :
    percentBytes (percentChar c ++ rest) = String.utf8EncodeChar c ++ percentBytes rest := by
  unfold percentChar
  split
  · rename_i hunreserved
    apply percentBytes_cons
    rintro rfl
    exact absurd hunreserved (by decide)
  · induction String.utf8EncodeChar c with
    | nil => rfl
    | cons b bytes ih =>
        rw [List.flatMap_cons, List.append_assoc, percentBytes_percentByte, ih, List.cons_append]

theorem percentBytes_percentEncode (cs : List Char) :
    percentBytes (percentEncode cs) = utf8Bytes cs := by
  induction cs with
  | nil => rfl
  | cons c cs ih =>
      rw [percentEncode, List.flatMap_cons, percentBytes_percentChar, ← percentEncode, ih]
      rfl

/-- In front of an encoded text anything but a percent sign stands for itself. -/
theorem percentDecode_append {name : List Char} (h : '%' ∉ name) (value : List Char) :
    percentDecode (name ++ percentEncode value) = .ok (name ++ value) := by
  have hbytes : percentBytes (name ++ percentEncode value) = utf8Bytes (name ++ value) := by
    induction name with
    | nil => exact percentBytes_percentEncode value
    | cons c name ih =>
        rw [List.mem_cons, not_or] at h
        rw [List.cons_append, percentBytes_cons (Ne.symm h.1), ih h.2]
        rfl
  rw [percentDecode, hbytes, utf8Decode_utf8Bytes]

end EntityQuery.Text
