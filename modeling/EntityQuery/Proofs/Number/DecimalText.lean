import EntityQuery.Number.Decimal
import EntityQuery.Proofs.Number.PaddedDigits

/-!
# Reading decimals

A decimal is written with every digit of its scale, and all of them fit when they are read: what has
been read so far is never larger than the coefficient, and the scale is reached with the last digit.
So no digit is rounded away.  Only zero loses something, the sign it may have.
-/

namespace EntityQuery.Decimal

open Number

variable {cs rest whole fraction : List Char} {c : Char} {n s : Nat} {negative saw point : Bool}

/-! ## Writing -/

/-- The digits a decimal is written with. -/
theorem exists_unsignedDigits (d : Decimal) : ∃ whole fraction,
    d.unsignedDigits = whole ++ pointed fraction ∧ whole ≠ [] ∧
      (∀ c ∈ whole, c.isDigit = true) ∧ (∀ c ∈ fraction, c.isDigit = true) ∧
      fraction.length = d.scale ∧ digitsValue 0 (whole ++ fraction) = d.coefficient := by
  have hlength := le_length_paddedDigits (d.scale + 1) d.coefficient
  have hdigit : ∀ c ∈ paddedDigits (d.scale + 1) d.coefficient, c.isDigit = true :=
    fun _ => isDigit_of_mem_paddedDigits
  have hvalue := digitsValue_paddedDigits (d.scale + 1) d.coefficient
  unfold unsignedDigits
  generalize paddedDigits (d.scale + 1) d.coefficient = all at hlength hdigit hvalue
  refine ⟨all.take (all.length - d.scale), all.drop (all.length - d.scale), ?_, ?_, ?_, ?_, ?_, ?_⟩
  · by_cases hscale : d.scale = 0
    · simp [hscale, pointed]
    · have hne : all.drop (all.length - d.scale) ≠ [] := by
        rw [ne_eq, List.drop_eq_nil_iff]
        omega
      rw [pointed_of_ne_nil hne]
      simp [hscale]
  · rw [ne_eq, List.take_eq_nil_iff]
    rintro (hzero | rfl)
    · omega
    · simp at hlength
  · exact fun c hc => hdigit c (List.mem_of_mem_take hc)
  · exact fun c hc => hdigit c (List.mem_of_mem_drop hc)
  · rw [List.length_drop]
    omega
  · rw [List.take_append_drop, hvalue]

/-! ## Reading -/

/-- Digits that fit are read one after the other; behind the point each of them counts. -/
theorem run?_digits (hcs : ∀ c ∈ cs, c.isDigit = true) (hlt : digitsValue n cs < 2 ^ (96 : Nat))
    (hscale : point = true → s + cs.length ≤ 28) :
    Reading.run? negative ⟨n, if point then s else 0, saw, point⟩ (cs ++ rest) =
      Reading.run? negative ⟨digitsValue n cs, if point then s + cs.length else 0,
        saw || !cs.isEmpty, point⟩ rest := by
  induction cs generalizing n s saw with
  | nil => simp [digitsValue_nil]
  | cons c cs ih =>
      have hdigit : c.isDigit = true := hcs c List.mem_cons_self
      rw [digitsValue_cons] at hlt
      have hfits : n * 10 + (c.toNat - 48) < 2 ^ (96 : Nat) :=
        Nat.lt_of_le_of_lt (le_digitsValue _ cs) hlt
      have hroom : (point && saw && decide ((if point then s else 0) ≥ maxScale) &&
          !(c == '_' && decide (n ≥ Reading.wide))) = false := by
        cases point with
        | false => rfl
        | true =>
            have hshort := hscale rfl
            rw [List.length_cons] at hshort
            have hbelow : decide (s ≥ maxScale) = false := decide_eq_false (by
              show ¬28 ≤ s
              omega)
            simp [hbelow]
      have hnext : (if point then (if point then s else 0) + 1 else 0) =
          (if point then s + 1 else 0) := by
        cases point <;> rfl
      have hlast : (if point then s + 1 + cs.length else 0) =
          (if point then s + (c :: cs).length else 0) := by
        rw [List.length_cons, Nat.add_right_comm, Nat.add_assoc]
      rw [List.cons_append, Reading.run?]
      simp only [hroom, hdigit, hfits, Bool.false_eq_true, if_true, if_false, hnext]
      rw [ih (fun d hd => hcs d (List.mem_cons_of_mem c hd)) hlt, digitsValue_cons, hlast]
      · simp
      · intro hpoint
        have hshort := hscale hpoint
        rw [List.length_cons] at hshort
        omega

theorem run?_whole (hne : whole ≠ []) (hwhole : ∀ c ∈ whole, c.isDigit = true)
    (hlt : digitsValue 0 whole < 2 ^ (96 : Nat)) :
    Reading.run? negative ⟨0, 0, false, false⟩ (whole ++ rest) =
      Reading.run? negative ⟨digitsValue 0 whole, 0, true, false⟩ rest := by
  have hempty : whole.isEmpty = false := List.isEmpty_eq_false_iff.2 hne
  have hrun : Reading.run? negative ⟨0, if false then 0 else 0, false, false⟩ (whole ++ rest) =
      Reading.run? negative ⟨digitsValue 0 whole, if false then 0 + whole.length else 0,
        false || !whole.isEmpty, false⟩ rest := run?_digits hwhole hlt (by simp)
  simpa [hempty] using hrun

theorem run?_fraction (hfraction : ∀ c ∈ fraction, c.isDigit = true)
    (hlength : fraction.length ≤ 28) (hlt : digitsValue n fraction < 2 ^ (96 : Nat)) :
    Reading.run? negative ⟨n, 0, true, true⟩ fraction =
      ofParts? negative (digitsValue n fraction) fraction.length := by
  have hrun : Reading.run? negative ⟨n, if true then 0 else 0, true, true⟩ (fraction ++ []) =
      Reading.run? negative ⟨digitsValue n fraction, if true then 0 + fraction.length else 0,
        true || !fraction.isEmpty, true⟩ [] := run?_digits hfraction hlt (by simpa using hlength)
  rw [List.append_nil] at hrun
  rw [show (⟨n, 0, true, true⟩ : Reading) = ⟨n, if true then 0 else 0, true, true⟩ from rfl, hrun]
  simp [Reading.run?, Reading.finish?]

/-- Digits with a fraction behind the point are read in full. -/
theorem run?_pointed (hne : whole ≠ []) (hwhole : ∀ c ∈ whole, c.isDigit = true)
    (hfraction : ∀ c ∈ fraction, c.isDigit = true) (hlength : fraction.length ≤ 28)
    (hlt : digitsValue 0 (whole ++ fraction) < 2 ^ (96 : Nat)) :
    Reading.run? negative ⟨0, 0, false, false⟩ (whole ++ pointed fraction) =
      ofParts? negative (digitsValue 0 (whole ++ fraction)) fraction.length := by
  rw [digitsValue_append] at hlt ⊢
  rw [run?_whole hne hwhole (Nat.lt_of_le_of_lt (le_digitsValue _ fraction) hlt)]
  by_cases hempty : fraction = []
  · rw [hempty]
    simp [pointed, Reading.run?, Reading.finish?, digitsValue_nil]
  · rw [pointed_of_ne_nil hempty, Reading.run?, ← run?_fraction hfraction hlength hlt]
    rfl

/-- The decimal without the sign that zero may have. -/
def unsignZero (d : Decimal) : Decimal :=
  { d with negative := d.negative && d.coefficient != 0 }

/-- The text of a decimal is made of digits, a point and a minus. -/
theorem mem_text (d : Decimal) (hc : c ∈ d.text.toList) :
    c.isDigit = true ∨ c = '.' ∨ c = '-' := by
  obtain ⟨whole, fraction, hdigits, -, hwhole, hfraction, -⟩ := d.exists_unsignedDigits
  have hunsigned (hc : c ∈ d.unsignedDigits) : c.isDigit = true ∨ c = '.' := by
    rw [hdigits] at hc
    rcases List.mem_append.1 hc with hc | hc
    · exact .inl (hwhole c hc)
    · rcases mem_pointed hc with hc | hc
      · exact .inr hc
      · exact .inl (hfraction c hc)
  rw [text, String.toList_ofList] at hc
  split at hc
  · rcases List.mem_cons.1 hc with rfl | hc
    · exact .inr (.inr rfl)
    · exact (hunsigned hc).imp_right .inl
  · exact (hunsigned hc).imp_right .inl

/-- The unsigned digits of a decimal are read in full. -/
theorem run?_unsignedDigits (d : Decimal) (negative : Bool) :
    Reading.run? negative ⟨0, 0, false, false⟩ d.unsignedDigits =
      ofParts? negative d.coefficient d.scale := by
  obtain ⟨whole, fraction, hdigits, hne, hwhole, hfraction, hlength, hvalue⟩ :=
    d.exists_unsignedDigits
  have hlt : digitsValue 0 (whole ++ fraction) < 2 ^ (96 : Nat) := hvalue ▸ d.coefficient_lt
  rw [hdigits, run?_pointed hne hwhole hfraction (hlength ▸ d.scale_le) hlt, hvalue, hlength]

/-- A minus before the digits is the sign. -/
theorem ofPlainChars?_digits (hne : whole ≠ []) (hwhole : ∀ c ∈ whole, c.isDigit = true) :
    ofPlainChars? (if negative then '-' :: (whole ++ rest) else whole ++ rest) =
      Reading.run? negative ⟨0, 0, false, false⟩ (whole ++ rest) := by
  cases negative with
  | true => rfl
  | false =>
      obtain ⟨c, cs, rfl⟩ := List.exists_cons_of_ne_nil hne
      have hdigit := hwhole c List.mem_cons_self
      rw [if_neg Bool.false_ne_true, List.cons_append]
      unfold ofPlainChars?
      split
      · rename_i heq
        exact absurd (List.cons.inj heq).1 (ne_of_isDigit hdigit rfl)
      · rename_i heq
        exact absurd (List.cons.inj heq).1 (ne_of_isDigit hdigit rfl)
      · rfl

theorem ofPlainChars?_text (d : Decimal) :
    ofPlainChars? d.text.toList = ofParts? d.negative d.coefficient d.scale := by
  obtain ⟨whole, fraction, hdigits, hne, hwhole, -⟩ := d.exists_unsignedDigits
  rw [← d.run?_unsignedDigits, text, String.toList_ofList, hdigits,
    ofPlainChars?_digits hne hwhole]

/-- Without the mark of an exponent the text is that of a number alone. -/
theorem ofChars?_of_plain (h : ∀ c ∈ cs, c.isDigit = true ∨ c = '.' ∨ c = '-') :
    ofChars? cs = ofPlainChars? cs := by
  have hplain : ∀ c ∈ cs, (!isExponentMark c) = true := by
    intro c hc
    rcases h c hc with hdigit | rfl | rfl
    · have he : c ≠ 'e' := ne_of_isDigit hdigit rfl
      have hE : c ≠ 'E' := ne_of_isDigit hdigit rfl
      simp [isExponentMark, he, hE]
    · rfl
    · rfl
  unfold ofChars?
  rw [List.dropWhile_eq_nil_iff.2 hplain]

/-- A decimal is read back from its text. -/
theorem ofChars?_text (d : Decimal) : ofChars? d.text.toList = some d.unsignZero := by
  have hmem : d.coefficient < 2 ^ (96 : Nat) ∧ d.scale ≤ 28 := ⟨d.coefficient_lt, d.scale_le⟩
  rw [ofChars?_of_plain fun _ => d.mem_text, ofPlainChars?_text, ofParts?, ofSignedParts?,
    dif_pos hmem]
  rfl

/-- The sign of zero plays no part in the order. -/
theorem compare_unsignZero (d : Decimal) : compare d.unsignZero d = .eq := by
  have hsigned : d.unsignZero.signedCoefficient = d.signedCoefficient := by
    unfold signedCoefficient unsignZero
    by_cases hzero : d.coefficient = 0
    · simp [hzero]
    · simp [hzero]
  have hscale : d.unsignZero.scale = d.scale := rfl
  rw [compare, hsigned, hscale]
  exact Std.ReflCmp.compare_self

end EntityQuery.Decimal
