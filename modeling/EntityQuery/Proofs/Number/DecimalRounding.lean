import EntityQuery.Proofs.Number.DecimalText
import EntityQuery.Proofs.Number.Rationals
import EntityQuery.Proofs.Number.WrittenNumbers
import Mathlib.Tactic.Linarith

/-!
# Decimals with more digits than fit

A number may be written with more digits than a decimal has room for.  Its whole part has to fit.
Behind the point the digits are taken as long as there is room, and the first one that is left out
decides whether the last one that stays goes up.  Should that carry make the coefficient too large,
the last digit goes as well.

In the end a decimal has as many digits behind the point as the number allows, and denotes the
nearest of the numbers with so many digits.  There is none exactly where the number rounds to a
whole one that is too large.
-/

namespace EntityQuery.Decimal

open Number

variable {cs rest : List Char} {m k : Nat} {negative saw : Bool} {n : WrittenNumber}

/-! ## Rounding -/

/-- From here on a number rounds to a coefficient that is too large. -/
def overflow : ℚ := 2 ^ (96 : Nat) - 1 / 2

/-- A decimal is the number that is written, rounded at the last place there is room for.  A half
goes up, and zero has no sign. -/
structure Rounds (negative : Bool) (n : WrittenNumber) (d : Decimal) : Prop where
  negative_eq : d.negative = (negative && d.coefficient != 0)
  scale_le : d.scale ≤ n.places
  above : d.coefficient ≤ n.value * 10 ^ d.scale + 1 / 2
  below : n.value * 10 ^ d.scale < d.coefficient + 1 / 2
  full : d.scale < n.places → d.scale = 28 ∨ overflow ≤ n.value * 10 ^ (d.scale + 1)

/-- A number rounds to a decimal, or to none where it is too large. -/
def RoundsTo (negative : Bool) (n : WrittenNumber) : Option Decimal → Prop
  | some d => d.Rounds negative n
  | none => overflow ≤ n.value

theorem roundsTo_ofParts? {s : Nat} (hm : m < 2 ^ (96 : Nat)) (hs : s ≤ 28) (hplaces : s ≤ n.places)
    (habove : (m : ℚ) ≤ n.value * 10 ^ s + 1 / 2) (hbelow : n.value * 10 ^ s < m + 1 / 2)
    (hfull : s < n.places → s = 28 ∨ overflow ≤ n.value * 10 ^ (s + 1)) :
    RoundsTo negative n (ofParts? negative m s) := by
  rw [ofParts?, ofSignedParts?, dif_pos ⟨hm, hs⟩]
  exact ⟨rfl, hplaces, habove, hbelow, hfull⟩

/-- A decimal that a number rounds to is below the numbers that are too large. -/
theorem Rounds.value_lt {d : Decimal} (h : d.Rounds negative n) : n.value < overflow := by
  have hbelow := h.below
  have hcoefficient : (d.coefficient : ℚ) + 1 ≤ 2 ^ (96 : Nat) := by exact_mod_cast d.coefficient_lt
  have hscale : n.value * 1 ≤ n.value * 10 ^ d.scale :=
    mul_le_mul_of_nonneg_left (one_le_pow₀ (by norm_num)) n.value_nonneg
  rw [overflow]
  linarith

/-- The number is not rounded where it has no digit behind the place that is rounded at. -/
theorem Rounds.toRat_eq {d : Decimal} (h : d.Rounds negative n) {m : Nat}
    (hm : n.value * 10 ^ d.scale = m) : d.toRat = n.signedValue negative := by
  have hscale : (10 : ℚ) ^ d.scale ≠ 0 := by positivity
  have habove := h.above
  have hbelow := h.below
  rw [hm] at habove hbelow
  have heq : d.coefficient = m := by
    have hle : (d.coefficient : ℚ) < m + 1 := by linarith
    have hge : (m : ℚ) < d.coefficient + 1 := by linarith
    norm_cast at hle hge
    omega
  have hvalue : n.value = d.coefficient / 10 ^ d.scale := by
    rw [heq, ← hm, mul_div_cancel_right₀ _ hscale]
  rw [toRat, signedCoefficient, h.negative_eq, WrittenNumber.signedValue, hvalue]
  by_cases hzero : d.coefficient = 0
  · simp [hzero]
  · have hne : (d.coefficient != 0) = true := bne_iff_ne.2 hzero
    rw [hne, Bool.and_true]
    cases negative with
    | false => simp
    | true => simp [neg_div]

/-- There would have been room for the digits of any other decimal that denotes the number. -/
theorem Rounds.le_scale {d e : Decimal} (h : d.Rounds negative n) (hlt : d.scale < n.places)
    (he : n.value * 10 ^ e.scale = e.coefficient) : e.scale ≤ d.scale := by
  by_contra hmore
  rcases h.full hlt with hscale | hfull
  · have hle := e.scale_le
    omega
  · have hpow : (10 : ℚ) ^ (d.scale + 1) ≤ 10 ^ e.scale :=
      pow_le_pow_right₀ (by norm_num) (by omega)
    have hlarge : overflow ≤ e.coefficient :=
      calc overflow ≤ n.value * 10 ^ (d.scale + 1) := hfull
        _ ≤ n.value * 10 ^ e.scale := mul_le_mul_of_nonneg_left hpow n.value_nonneg
        _ = e.coefficient := he
    have hfits : (e.coefficient : ℚ) + 1 ≤ 2 ^ (96 : Nat) := by exact_mod_cast e.coefficient_lt
    rw [overflow] at hlarge
    linarith

/-- A number that some decimal denotes is not rounded at all. -/
theorem Rounds.toRat_eq_iff {d : Decimal} (h : d.Rounds negative n) :
    d.toRat = n.signedValue negative ↔ ∃ e : Decimal, e.toRat = n.signedValue negative := by
  refine ⟨fun heq => ⟨d, heq⟩, fun ⟨e, he⟩ => ?_⟩
  have hunit : (10 : ℚ) ^ e.scale ≠ 0 := by positivity
  have hvalue : n.value * 10 ^ e.scale = e.coefficient := by
    have habs : |n.signedValue negative| = n.value := by
      rw [WrittenNumber.signedValue]
      split
      · rw [abs_neg, abs_of_nonneg n.value_nonneg]
      · rw [abs_of_nonneg n.value_nonneg]
    rw [← habs, ← he, abs_toRat, div_mul_cancel₀ _ hunit]
  rcases Nat.lt_or_eq_of_le h.scale_le with hlt | heq
  · have hle := h.le_scale hlt hvalue
    apply h.toRat_eq (m := e.coefficient * 10 ^ (d.scale - e.scale))
    calc n.value * 10 ^ d.scale
        = n.value * 10 ^ e.scale * 10 ^ (d.scale - e.scale) := by
          rw [mul_assoc, ← pow_add, Nat.add_sub_cancel' hle]
      _ = (e.coefficient * 10 ^ (d.scale - e.scale) : ℕ) := by
          rw [hvalue]
          push_cast
          rfl
  · apply h.toRat_eq (m := n.mantissa)
    rw [heq, n.value_mul_pow]

/-! ## The digits there is room for -/

/-- A whole part that is too large is refused. -/
theorem run?_overflow (hcs : ∀ c ∈ cs, c.isDigit = true) (hm : m < 2 ^ (96 : Nat))
    (hlarge : 2 ^ (96 : Nat) ≤ digitsValue m cs) :
    Reading.run? negative ⟨m, 0, saw, false⟩ (cs ++ rest) = none := by
  induction cs generalizing m saw with
  | nil =>
      rw [digitsValue_nil] at hlarge
      omega
  | cons c cs ih =>
      have hdigit : c.isDigit = true := hcs c List.mem_cons_self
      rw [digitsValue_cons] at hlarge
      rw [List.cons_append, Reading.run?]
      simp only [Bool.false_and, Bool.false_eq_true, if_false, hdigit, if_true]
      split
      · rename_i hnext
        exact ih (fun d hd => hcs d (List.mem_cons_of_mem c hd)) hnext hlarge
      · rfl

/-- There is room for the digits up to a place behind the point, and for no more of them. -/
structure Room (n : WrittenNumber) (k : Nat) : Prop where
  le_places : k ≤ n.places
  le_maxScale : k ≤ 28
  fits : n.upTo k < 2 ^ (96 : Nat)
  full : k < n.places → k = 28 ∨ 2 ^ (96 : Nat) ≤ n.upTo (k + 1)

/-- What has been read of a number up to a place behind the point. -/
def Reading.upTo (n : WrittenNumber) (k : Nat) : Reading := ⟨n.upTo k, k, true, true⟩

/-- One more digit is read where there is room for it. -/
theorem run?_next (hk : k < n.fraction.length) (hscale : k < 28)
    (hfits : n.upTo (k + 1) < 2 ^ (96 : Nat)) :
    (Reading.upTo n k).run? negative (n.fraction.drop k) =
      (Reading.upTo n (k + 1)).run? negative (n.fraction.drop (k + 1)) := by
  have hdigit : n.fraction[k].isDigit = true := n.isDigit_fraction _ (List.getElem_mem hk)
  have hbelow : decide (k ≥ maxScale) = false := decide_eq_false (by
    show ¬28 ≤ k
    omega)
  rw [n.upTo_succ hk] at hfits
  rw [List.drop_eq_getElem_cons hk, Reading.run?, Reading.upTo, Reading.upTo]
  simp only [hbelow, Bool.and_false, Bool.false_and, Bool.false_eq_true, hdigit, hfits, if_true,
    if_false, n.upTo_succ hk]

/-- The first digit there is no room for is the last one that is looked at. -/
theorem run?_full (hk : k < n.fraction.length)
    (hfull : k = 28 ∨ 2 ^ (96 : Nat) ≤ n.upTo (k + 1)) :
    (Reading.upTo n k).run? negative (n.fraction.drop k) =
      (Reading.upTo n k).round? negative n.fraction[k] := by
  have hdigit : n.fraction[k].isDigit = true := n.isDigit_fraction _ (List.getElem_mem hk)
  have hplain : (n.fraction[k] == '_') = false :=
    beq_eq_false_iff_ne.2 (ne_of_isDigit hdigit rfl)
  rw [List.drop_eq_getElem_cons hk, Reading.run?, Reading.upTo]
  rcases hfull with rfl | hlarge
  · simp [maxScale, hplain]
  · rw [n.upTo_succ hk] at hlarge
    have hlarge : ¬n.upTo k * 10 + (n.fraction[k].toNat - 48) < 2 ^ (96 : Nat) := by omega
    simp only [hplain, hdigit, hlarge, if_true, if_false, ite_self]

/-- The digits behind the point are read up to the place there is room for. -/
theorem exists_room (negative : Bool) (hplaces : k ≤ n.places) (hscale : k ≤ 28)
    (hfits : n.upTo k < 2 ^ (96 : Nat)) :
    ∃ j, Room n j ∧ (Reading.upTo n k).run? negative (n.fraction.drop k) =
      (Reading.upTo n j).run? negative (n.fraction.drop j) := by
  induction hrest : n.places - k generalizing k with
  | zero => exact ⟨k, ⟨hplaces, hscale, hfits, fun h => by omega⟩, rfl⟩
  | succ rest ih =>
      by_cases hroom : k < 28 ∧ n.upTo (k + 1) < 2 ^ (96 : Nat)
      · have hnext : k < n.fraction.length := by
          change n.fraction.length - k = rest + 1 at hrest
          omega
        obtain ⟨j, hj, hrun⟩ := ih hnext hroom.1 hroom.2 (by omega)
        exact ⟨j, hj, (run?_next hnext hroom.1 hroom.2).trans hrun⟩
      · exact ⟨k, ⟨hplaces, hscale, hfits, fun _ => by omega⟩, rfl⟩

/-! ## The digit that rounds -/

/-- The digit behind those that stay tells on which side of the half the number is. -/
theorem half_bounds (hk : k < n.fraction.length) :
    (n.fraction[k].toNat - 48 ≥ 5 → (n.upTo k : ℚ) + 1 / 2 ≤ n.value * 10 ^ k) ∧
      (¬n.fraction[k].toNat - 48 ≥ 5 → n.value * 10 ^ k < n.upTo k + 1 / 2) := by
  obtain ⟨hlow, hhigh⟩ := n.upTo_bounds (k := k + 1) hk
  rw [n.upTo_succ hk, pow_succ] at hlow hhigh
  generalize n.fraction[k].toNat - 48 = digit at hlow hhigh ⊢
  push_cast at hlow hhigh
  constructor
  · intro hdigit
    have hdigit : (5 : ℚ) ≤ digit := by exact_mod_cast hdigit
    linarith
  · intro hdigit
    have hdigit : (digit : ℚ) ≤ 4 := by exact_mod_cast (by omega : digit ≤ 4)
    linarith

/-- What there is no room for is at least the next power of two, a place further. -/
theorem Room.overflow_le (h : Room n k) (hlt : k < n.places) :
    k = 28 ∨ overflow ≤ n.value * 10 ^ (k + 1) := by
  refine (h.full hlt).imp_right fun hlarge => ?_
  have hlarge : (2 : ℚ) ^ (96 : Nat) ≤ n.upTo (k + 1) := by exact_mod_cast hlarge
  have hlow := (n.upTo_bounds (k := k + 1) hlt).1
  rw [overflow]
  linarith

/-- Rounding up.  A carry that makes the coefficient too large costs one more digit. -/
theorem roundsTo_roundUp? (h : Room n k) (hlt : k < n.places)
    (hhalf : (n.upTo k : ℚ) + 1 / 2 ≤ n.value * 10 ^ k) :
    RoundsTo negative n ((Reading.upTo n k).roundUp? negative) := by
  have hhigh := (n.upTo_bounds hlt.le).2
  unfold Reading.roundUp? Reading.upTo
  dsimp only
  split
  · rename_i hfits
    refine roundsTo_ofParts? hfits h.le_maxScale h.le_places ?_ ?_ fun _ => h.overflow_le hlt
    · push_cast
      linarith
    · push_cast
      linarith
  · have hfits := h.fits
    have hcarry : n.upTo k + 1 = 2 ^ (96 : Nat) := by omega
    have hcast : (n.upTo k : ℚ) + 1 = 2 ^ (96 : Nat) := by exact_mod_cast hcarry
    split
    · rename_i hzero
      obtain rfl : k = 0 := by simpa using hzero
      rw [pow_zero, mul_one] at hhalf
      show overflow ≤ n.value
      rw [overflow]
      linarith
    · rename_i hzero
      obtain ⟨k, rfl⟩ : ∃ j, k = j + 1 := ⟨k - 1, by
        rw [beq_iff_eq] at hzero
        omega⟩
      have hscale := h.le_maxScale
      rw [hcarry, Nat.add_sub_cancel]
      refine roundsTo_ofParts? (by decide) (by omega) (by omega) ?_ ?_ fun _ => .inr ?_
      · rw [pow_succ] at hhalf
        norm_num at hcast ⊢
        linarith
      · rw [pow_succ] at hhigh
        norm_num at hcast ⊢
        linarith
      · rw [overflow]
        linarith

theorem roundsTo_room (h : Room n k) :
    RoundsTo negative n ((Reading.upTo n k).run? negative (n.fraction.drop k)) := by
  rcases Nat.lt_or_eq_of_le h.le_places with hlt | rfl
  · obtain ⟨hup, hdown⟩ := half_bounds hlt
    have hdigit : n.fraction[k].isDigit = true := n.isDigit_fraction _ (List.getElem_mem hlt)
    rw [run?_full hlt (h.full hlt), Reading.round?, if_pos hdigit]
    split
    · rename_i hfive
      exact roundsTo_roundUp? h hlt (hup hfive)
    · rename_i hfour
      have hlow := (n.upTo_bounds hlt.le).1
      show RoundsTo negative n (ofParts? negative (n.upTo k) k)
      refine roundsTo_ofParts? h.fits h.le_maxScale h.le_places ?_ (hdown hfour)
        fun _ => h.overflow_le hlt
      linarith
  · have hvalue : n.value * 10 ^ n.places = n.upTo n.places := by
      rw [n.upTo_places, n.value_mul_pow]
    have hend : n.fraction.drop n.places = [] := List.drop_length
    rw [hend]
    show RoundsTo negative n (ofParts? negative (n.upTo n.places) n.places)
    refine roundsTo_ofParts? h.fits h.le_maxScale h.le_places ?_ ?_ fun hlt => by omega
    · rw [hvalue]
      linarith
    · rw [hvalue]
      linarith

/-! ## Reading what is written -/

theorem run?_chars (hfits : n.upTo 0 < 2 ^ (96 : Nat)) :
    Reading.run? negative ⟨0, 0, false, false⟩ n.chars =
      (Reading.upTo n 0).run? negative n.fraction := by
  rw [n.upTo_zero] at hfits
  rw [WrittenNumber.chars, run?_whole n.whole.ne_nil n.whole.isDigit hfits, Reading.upTo,
    n.upTo_zero]
  by_cases hempty : n.fraction = []
  · rw [hempty]
    rfl
  · rw [pointed_of_ne_nil hempty]
    rfl

/-- Any number that is written is read as the decimal it rounds to. -/
theorem roundsTo_ofPlainChars? (negative : Bool) (n : WrittenNumber) :
    RoundsTo negative n (ofPlainChars? (if negative then '-' :: n.chars else n.chars)) := by
  rw [WrittenNumber.chars, ofPlainChars?_digits n.whole.ne_nil n.whole.isDigit]
  by_cases hfits : n.upTo 0 < 2 ^ (96 : Nat)
  · obtain ⟨k, hk, hrun⟩ := exists_room negative (Nat.zero_le _) (Nat.zero_le _) hfits
    rw [← WrittenNumber.chars, run?_chars hfits]
    exact hrun.symm ▸ roundsTo_room hk
  · have hlarge : 2 ^ (96 : Nat) ≤ n.whole.value := by
      rw [n.upTo_zero] at hfits
      omega
    have hcast : (2 : ℚ) ^ (96 : Nat) ≤ n.upTo 0 := by
      rw [n.upTo_zero]
      exact_mod_cast hlarge
    have hlow := (n.upTo_bounds (Nat.zero_le _)).1
    rw [pow_zero, mul_one] at hlow
    rw [run?_overflow n.whole.isDigit (by decide) hlarge]
    show overflow ≤ n.value
    rw [overflow]
    linarith

end EntityQuery.Decimal
