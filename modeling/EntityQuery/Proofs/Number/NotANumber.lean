import EntityQuery.Value.Order
import Mathlib

/-!
# Where numbers that are not one come from

Floating point numbers are compared as doubles, and a comparison gives up when one of them is not a
number.  Here it is shown that this is always the fault of an operand: integers and decimals become
doubles that are numbers, and a single that is a number becomes one as well.

The conversion of a decimal computes with doubles.  None of its steps leaves the numbers, because
it only adds what is not negative, and only multiplies and divides by powers of ten.
-/

namespace EntityQuery.Number

open Float.Model Float.Model.UnpackedFloat

variable {format : Format} {u v : UnpackedFloat} {x y : Float}

/-! ## Packing and unpacking -/

theorem isNaN_unpack (b : BitVec format.numBits) :
    (UnpackedFloat.unpack format b).isNaN =
      (unpackExponent b == -1#_ && unpackMantissa b != 0#_) := by
  unfold UnpackedFloat.unpack
  dsimp only
  split
  · split <;> simp_all [UnpackedFloat.isNaN]
  · split
    · split <;> simp_all [UnpackedFloat.isNaN]
    · simp_all [UnpackedFloat.isNaN]

theorem highestBit_ne_zero {n : Nat} (hn : 0 < n) : 1#n <<< (n - 1) ≠ 0#n := by
  intro heq
  have hbit := congrArg (fun b => BitVec.getLsbD b (n - 1)) heq
  have hlast : n - 1 < n := by omega
  simp only [BitVec.getLsbD_shiftLeft, BitVec.getLsbD_one, BitVec.getLsbD_zero] at hbit
  exact absurd hbit (by simp [hn, hlast])

/-- Packing keeps numbers and what is not one apart. -/
theorem isNaN_pack (u : UnpackedFloat) :
    (UnpackedFloat.unpack format (UnpackedFloat.pack format u)).isNaN = u.isNaN := by
  rw [isNaN_unpack]
  fun_cases UnpackedFloat.pack with
  | case1 => simp [packedNaN, UnpackedFloat.isNaN, highestBit_ne_zero format.hm]
  | case2 sign => simp [packedInfinity, UnpackedFloat.isNaN]
  | case3 sign => simp [packedZero, UnpackedFloat.isNaN]
  | case4 sign m e hm biased h => simp [packedInfinity, UnpackedFloat.isNaN]
  | case5 sign m e hm actual biased hfits hnormal =>
      -- The exponent is below that of infinity, so not all of its bits are ones.
      have hne : BitVec.ofNat format.exponentBits biased ≠ -1#_ := by
        intro heq
        have hnat := congrArg BitVec.toNat heq
        rw [BitVec.toNat_ofNat, Nat.mod_eq_of_lt (by omega), BitVec.neg_one_eq_allOnes,
          BitVec.toNat_allOnes] at hnat
        omega
      simp [UnpackedFloat.isNaN, hne]
  | case6 sign m e hm actual biased hfits hnormal =>
      -- A subnormal number has the exponent zero.
      have hne : BitVec.ofNat format.exponentBits 0 ≠ -1#_ := by
        intro heq
        have hnat := congrArg BitVec.toNat heq
        have hpow := Nat.one_lt_two_pow (Nat.ne_of_gt format.he)
        rw [BitVec.neg_one_eq_allOnes, BitVec.toNat_allOnes, BitVec.toNat_zero] at hnat
        omega
      simp [UnpackedFloat.isNaN, hne]

theorem compare_swap (u v : UnpackedFloat) : v.compare u = (u.compare v).map Ordering.swap := by
  have hfinite (m n : Nat) (e k : Int) : ((compare e k).then (compare m n)).swap
      = (compare k e).then (compare n m) := by
    rw [Ordering.swap_then, Int.compare_swap, Nat.compare_swap]
  cases u with
  | finite s m e hm =>
      cases v with
      | finite t n k hn =>
          cases s <;> cases t <;> simp [UnpackedFloat.compare, hfinite]
      | notANumber => rfl
      | _ t => cases s <;> cases t <;> rfl
  | notANumber => cases v <;> rfl
  | _ s =>
      cases v with
      | notANumber => cases s <;> rfl
      | _ t => cases s <;> cases t <;> rfl

/-! ## Views -/

theorem toNat_unpackExponent (b : BitVec format.numBits) : (unpackExponent b).toNat =
    b.toNat / 2 ^ format.mantissaBitsWithoutImplicit % 2 ^ format.exponentBits := by
  have hpositive := format.he
  simp only [unpackExponent, BitVec.toNat_cast, BitVec.extractLsb_toNat, Nat.shiftRight_eq_div_pow]
  congr 2
  omega

theorem toNat_unpackMantissa (b : BitVec format.numBits) :
    (unpackMantissa b).toNat = b.toNat % 2 ^ format.mantissaBitsWithoutImplicit := by
  have hpositive := format.hm
  simp only [unpackMantissa, BitVec.toNat_cast, BitVec.extractLsb_toNat, Nat.shiftRight_zero]
  congr 2
  omega

theorem toNat_unpackSign (b : BitVec format.numBits) : (unpackSign b).toNat =
    b.toNat / 2 ^ (format.mantissaBitsWithoutImplicit + format.exponentBits) % 2 := by
  simp [unpackSign, Nat.shiftRight_eq_div_pow]

/-- A view says so when it is not one of a number. -/
theorem view_eq_nan_iff (f : FloatFormat) (format : Format)
    (hm : f.fractionBits = format.mantissaBitsWithoutImplicit)
    (he : f.exponentBits = format.exponentBits) (b : BitVec format.numBits) :
    f.view b.toNat = .nan ↔ (UnpackedFloat.unpack format b).isNaN = true := by
  have hexponent : unpackExponent b = -1#_ ↔
      b.toNat / 2 ^ f.fractionBits % 2 ^ f.exponentBits = 2 ^ f.exponentBits - 1 := by
    rw [← BitVec.toNat_inj, toNat_unpackExponent, BitVec.neg_one_eq_allOnes, BitVec.toNat_allOnes,
      hm, he]
  have hmantissa : unpackMantissa b = 0#_ ↔ b.toNat % 2 ^ f.fractionBits = 0 := by
    rw [← BitVec.toNat_inj, toNat_unpackMantissa, BitVec.toNat_zero, hm]
  rw [isNaN_unpack]
  simp only [Bool.and_eq_true, beq_iff_eq, bne_iff_ne, ne_eq, hexponent, hmantissa]
  unfold FloatFormat.view
  dsimp only
  split
  · rename_i hones
    split <;> simp_all
  · rename_i hones
    split <;> simp_all

theorem singleView_eq_nan_iff {x : Float32} : singleView x = .nan ↔ x.isNaN = true :=
  view_eq_nan_iff binary32 .binary32 rfl rfl x.toBits.toBitVec

theorem magnitudeBits_le (f : FloatFormat) (num den : Nat) :
    f.magnitudeBits num den ≤ f.infinityBits := by
  unfold FloatFormat.magnitudeBits
  dsimp only
  split
  · exact Nat.zero_le _
  · exact Nat.min_le_left _ _

theorem view_ne_nan (f : FloatFormat) (negative : Bool) {magnitude : Nat}
    (h : magnitude ≤ f.infinityBits) :
    f.view ((if negative then f.signBit else 0) + magnitude) ≠ .nan := by
  have hpositive : 0 < 2 ^ f.fractionBits := Nat.two_pow_pos _
  -- The bit of the sign stands above the exponent and the fraction.
  have hsign : (if negative then f.signBit else 0)
      = 2 ^ f.fractionBits * (2 ^ f.exponentBits * negative.toNat) := by
    cases negative <;> simp [FloatFormat.signBit, Nat.pow_add]
  have hexponent : ((if negative then f.signBit else 0) + magnitude) / 2 ^ f.fractionBits
      % 2 ^ f.exponentBits = magnitude / 2 ^ f.fractionBits % 2 ^ f.exponentBits := by
    rw [hsign, Nat.mul_add_div hpositive, Nat.mul_add_mod]
  have hfraction : ((if negative then f.signBit else 0) + magnitude) % 2 ^ f.fractionBits
      = magnitude % 2 ^ f.fractionBits := by
    rw [hsign, Nat.mul_add_mod]
  unfold FloatFormat.view
  dsimp only
  rw [hexponent, hfraction]
  split
  · rename_i hones
    have hones : magnitude / 2 ^ f.fractionBits % 2 ^ f.exponentBits = 2 ^ f.exponentBits - 1 := by
      simpa using hones
    -- Only the bits of infinity have an exponent of ones.
    have hle : f.infinityBits ≤ magnitude :=
      calc f.infinityBits
          = magnitude / 2 ^ f.fractionBits % 2 ^ f.exponentBits * 2 ^ f.fractionBits := by
            rw [hones, FloatFormat.infinityBits]
        _ ≤ magnitude / 2 ^ f.fractionBits * 2 ^ f.fractionBits :=
            Nat.mul_le_mul_right _ (Nat.mod_le _ _)
        _ ≤ magnitude := Nat.div_mul_le_self _ _
    have heq : magnitude = (2 ^ f.exponentBits - 1) * 2 ^ f.fractionBits := Nat.le_antisymm h hle
    rw [heq, Nat.mul_mod_left]
    simp
  · split <;> simp

/-! ## Conversions -/

theorem toNat_ofNat_of_lt {n : Nat} (hn : n < 2 ^ (64 : Nat)) :
    (UInt64.ofNat n).toBitVec.toNat = n := by
  rw [UInt64.toNat_toBitVec, UInt64.toNat_ofNat', Nat.mod_eq_of_lt hn]

theorem isNaN_ofBits {n : Nat} (hn : n < 2 ^ (64 : Nat)) :
    (Float.ofBits (UInt64.ofNat n)).isNaN = true ↔ binary64.view n = .nan := by
  have hpacked : (Float.ofBits (UInt64.ofNat n)).isNaN
      = (UnpackedFloat.unpack .binary64 (UInt64.ofNat n).toBitVec).isNaN := isNaN_pack _
  have hview := view_eq_nan_iff binary64 .binary64 rfl rfl (UInt64.ofNat n).toBitVec
  rw [hpacked, ← hview, toNat_ofNat_of_lt hn]

/-- What denotes a number has the bits of a magnitude, and maybe a sign. -/
theorem bitsOf_eq {w : FloatView} (h : w ≠ .nan) : ∃ (negative : Bool) (magnitude : Nat),
    magnitude ≤ binary64.infinityBits ∧
      binary64.bitsOf w = (if negative then binary64.signBit else 0) + magnitude := by
  cases w with
  | nan => exact absurd rfl h
  | infinite negative => exact ⟨negative, binary64.infinityBits, Nat.le_refl _, rfl⟩
  | finite negative m e =>
      simp only [FloatFormat.bitsOf, FloatFormat.ratioBits]
      split
      · exact ⟨negative, _, magnitudeBits_le _ _ _, rfl⟩
      · exact ⟨negative, _, magnitudeBits_le _ _ _, rfl⟩

theorem isNaN_doubleOf {w : FloatView} (h : w ≠ .nan) : (doubleOf w).isNaN = false := by
  obtain ⟨negative, magnitude, hle, hbits⟩ := bitsOf_eq h
  have hlt : (if negative then binary64.signBit else 0) + magnitude < 2 ^ (64 : Nat) := by
    have hinfinity : binary64.signBit + binary64.infinityBits < 2 ^ (64 : Nat) := by decide
    split <;> omega
  rw [Bool.eq_false_iff, doubleOf, hbits, ne_eq, isNaN_ofBits hlt]
  exact view_ne_nan binary64 negative hle

/-- A single becomes a double without loss. -/
theorem isNaN_of_widen {s : Float32} (h : (widen s).isNaN = true) : s.isNaN = true := by
  apply singleView_eq_nan_iff.1
  by_cases hview : singleView s = .nan
  · exact hview
  · rw [widen, isNaN_doubleOf hview] at h
    cases h

theorem lt_iff_compare (x y : Float) :
    x < y ↔ x.toModel.unpack.compare y.toModel.unpack = some .lt := by
  show decide (x.toModel < y.toModel) = true ↔ _
  rw [decide_eq_true_iff]
  exact beq_iff_eq

/-- Doubles are compared as what they unpack to. -/
theorem compareDoubles?_eq (x y : Float) :
    compareDoubles? x y = x.toModel.unpack.compare y.toModel.unpack := by
  have hswap := compare_swap x.toModel.unpack y.toModel.unpack
  have heq : (x == y) = (x.toModel.unpack.compare y.toModel.unpack == some .eq) := rfl
  unfold compareDoubles?
  simp only [lt_iff_compare, heq, hswap]
  cases x.toModel.unpack.compare y.toModel.unpack with
  | none => rfl
  | some order => cases order <;> rfl

end EntityQuery.Number
