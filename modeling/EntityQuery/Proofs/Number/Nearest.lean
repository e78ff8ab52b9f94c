import EntityQuery.Proofs.Number.NotANumber

/-!
# Doubles near a quotient

A quotient that is not too far from one becomes a double with all bits of its significand in use,
and it is missed by half a unit of the last of them at most.  So is a product of such doubles.  All
of them denote `m * 2 ^ e`, so what is near what can be said without fractions.

A double near a whole number is rounded to it in the end.  That is how a number of seconds becomes
one of nanoseconds.
-/

namespace EntityQuery.Number

open Float.Model Float.Model.UnpackedFloat

variable {m k n j num den : Nat} {e : Int}

/-- A significand with all bits in use. -/
structure Full (m : Nat) : Prop where
  low : 2 ^ (52 : Nat) ≤ m
  high : m < 2 ^ (53 : Nat)

/-- The bits of the double `m * 2 ^ e` for a full significand. -/
def fullBits (m : Nat) (e : Int) : Nat := (e + 1074).toNat * 2 ^ (52 : Nat) + m

/-- An exponent that is not among the last ones on either side. -/
structure Placed (e : Int) : Prop where
  low : -1000 ≤ e
  high : e ≤ 900

/-- The exponent of a full significand, as it is stored. -/
theorem exists_biased (he : Placed e) : ∃ b : Nat, b = e + 1074 ∧ 74 ≤ b ∧ b ≤ 1974 ∧
    ∀ m, fullBits m e = b * 2 ^ (52 : Nat) + m := by
  obtain ⟨hlow, hhigh⟩ := he
  exact ⟨(e + 1074).toNat, by omega, by omega, by omega, fun _ => rfl⟩

theorem fullBits_neg (m k : Nat) : fullBits m (-(k : Int)) = (1074 - k) * 2 ^ (52 : Nat) + m := by
  have hexponent : (-(k : Int) + 1074).toNat = 1074 - k := by omega
  rw [fullBits, hexponent]

theorem view_fullBits (hm : Full m) (he : Placed e) :
    binary64.view (fullBits m e) = .finite false m e := by
  obtain ⟨hlow, hhigh⟩ := hm
  obtain ⟨b, hb, hbLow, hbHigh, hbits⟩ := exists_biased he
  rw [hbits]
  have hsign : (b * 2 ^ (52 : Nat) + m) / binary64.signBit % 2 = 0 := by
    show (b * 2 ^ (52 : Nat) + m) / 2 ^ (63 : Nat) % 2 = 0
    omega
  have hexponent : (b * 2 ^ (52 : Nat) + m) / 2 ^ binary64.fractionBits % 2 ^ binary64.exponentBits
      = b + 1 := by
    show (b * 2 ^ (52 : Nat) + m) / 2 ^ (52 : Nat) % 2 ^ (11 : Nat) = b + 1
    omega
  have hfraction : (b * 2 ^ (52 : Nat) + m) % 2 ^ binary64.fractionBits = m - 2 ^ (52 : Nat) := by
    show (b * 2 ^ (52 : Nat) + m) % 2 ^ (52 : Nat) = m - 2 ^ (52 : Nat)
    omega
  have hmin : binary64.minExponent = -1074 := rfl
  have hones : (b + 1 == 2 ^ binary64.exponentBits - 1) = false := by
    rw [beq_eq_false_iff_ne]
    show b + 1 ≠ 2 ^ (11 : Nat) - 1
    omega
  have hzero : (b + 1 == 0) = false := rfl
  have hm : m - 2 ^ (52 : Nat) + 2 ^ binary64.fractionBits = m := by
    show m - 2 ^ (52 : Nat) + 2 ^ (52 : Nat) = m
    omega
  have he : (-1074 : Int) + ((b + 1 - 1 : Nat) : Int) = e := by omega
  unfold FloatFormat.view
  simp only [hsign, hexponent, hfraction, hones, hzero, hmin, hm, he]
  rfl

/-! ## The double nearest to a quotient -/

theorem divHalfEven_near (num : Nat) (hden : 0 < den) :
    2 * (divHalfEven num den * den) ≤ 2 * num + den ∧
      2 * num ≤ 2 * (divHalfEven num den * den) + den := by
  have hsplit := Nat.div_add_mod num den
  have hlt := Nat.mod_lt num hden
  rw [Nat.mul_comm] at hsplit
  unfold divHalfEven
  simp only [Bool.or_eq_true, decide_eq_true_eq, Bool.and_eq_true, beq_iff_eq]
  split
  · rw [Nat.add_mul]
    omega
  · omega

/-- A quotient rounded at a place where all bits of the significand are in use. -/
theorem divHalfEven_bounds (hden : 0 < den) (hlow : 2 ^ (52 : Nat) * den ≤ num)
    (hhigh : num < 2 ^ (53 : Nat) * den) :
    2 ^ (52 : Nat) ≤ divHalfEven num den ∧ divHalfEven num den ≤ 2 ^ (53 : Nat) := by
  obtain ⟨habove, hbelow⟩ := divHalfEven_near num hden
  generalize divHalfEven num den = s at habove hbelow ⊢
  constructor
  · by_contra hlt
    have hle : (s + 1) * den ≤ 2 ^ (52 : Nat) * den := Nat.mul_le_mul_right den (by omega)
    rw [Nat.add_mul] at hle
    omega
  · by_contra hlt
    have hle : (2 ^ (53 : Nat) + 1) * den ≤ s * den := Nat.mul_le_mul_right den (by omega)
    rw [Nat.add_mul] at hle
    omega

theorem min_infinityBits {l s : Nat} (hl : 0 < l ∧ l ≤ 1000) (hs : s ≤ 2 ^ (53 : Nat)) :
    min binary64.infinityBits ((-(l : Int) - binary64.minExponent).toNat *
      2 ^ binary64.fractionBits + s) = (1074 - l) * 2 ^ (52 : Nat) + s := by
  have hexponent : (-(l : Int) - binary64.minExponent).toNat = 1074 - l := by
    show (-(l : Int) - -1074).toNat = 1074 - l
    omega
  rw [hexponent]
  show min (2047 * 2 ^ (52 : Nat)) ((1074 - l) * 2 ^ (52 : Nat) + s) = _
  omega

/-- A number is told to within a factor of two by its length. -/
theorem log2_bounds (hnum : 0 < num) : 2 ^ num.log2 ≤ num ∧ num < 2 ^ (num.log2 + 1) :=
  ⟨Nat.log2_self_le (by omega), Nat.lt_log2_self⟩

theorem log2_near (hnum : 0 < num) (hden : 0 < den) (hlow : den ≤ num * 2 ^ (100 : Nat))
    (hhigh : num < den * 2 ^ (50 : Nat)) :
    den.log2 < num.log2 + 101 ∧ num.log2 < den.log2 + 51 := by
  obtain ⟨hnumLow, hnumHigh⟩ := log2_bounds hnum
  obtain ⟨hdenLow, hdenHigh⟩ := log2_bounds hden
  constructor
  · apply (Nat.pow_lt_pow_iff_right (a := 2) (by decide)).1
    calc 2 ^ den.log2 ≤ den := hdenLow
      _ ≤ num * 2 ^ (100 : Nat) := hlow
      _ < 2 ^ (num.log2 + 1) * 2 ^ (100 : Nat) :=
        Nat.mul_lt_mul_of_pos_right hnumHigh (by decide)
      _ = 2 ^ (num.log2 + 101) := by rw [← Nat.pow_add]
  · apply (Nat.pow_lt_pow_iff_right (a := 2) (by decide)).1
    calc 2 ^ num.log2 ≤ num := hnumLow
      _ < den * 2 ^ (50 : Nat) := hhigh
      _ < 2 ^ (den.log2 + 1) * 2 ^ (50 : Nat) := Nat.mul_lt_mul_of_pos_right hdenHigh (by decide)
      _ = 2 ^ (den.log2 + 51) := by rw [← Nat.pow_add]

/-- The quotient that is scaled by the lengths of the numbers has 53 or 54 bits. -/
theorem scaled_bounds (hnum : 0 < num) (hden : 0 < den) (hk : k + num.log2 = 53 + den.log2) :
    2 ^ (52 : Nat) * den ≤ num * 2 ^ k ∧ num * 2 ^ k < 2 ^ (54 : Nat) * den := by
  obtain ⟨hnumLow, hnumHigh⟩ := log2_bounds hnum
  obtain ⟨hdenLow, hdenHigh⟩ := log2_bounds hden
  constructor
  · calc 2 ^ (52 : Nat) * den
        ≤ 2 ^ (52 : Nat) * 2 ^ (den.log2 + 1) := Nat.mul_le_mul_left _ hdenHigh.le
      _ = 2 ^ num.log2 * 2 ^ k := by rw [← Nat.pow_add, ← Nat.pow_add]; congr 1; omega
      _ ≤ num * 2 ^ k := Nat.mul_le_mul_right _ hnumLow
  · calc num * 2 ^ k
        < 2 ^ (num.log2 + 1) * 2 ^ k := Nat.mul_lt_mul_of_pos_right hnumHigh (Nat.two_pow_pos k)
      _ = 2 ^ (54 : Nat) * 2 ^ den.log2 := by rw [← Nat.pow_add, ← Nat.pow_add]; congr 1; omega
      _ ≤ 2 ^ (54 : Nat) * den := Nat.mul_le_mul_left _ hdenLow

/-- The place of the last bit is found from the lengths of the numbers. -/
theorem exists_place (hnum : 0 < num) (hden : 0 < den) (hlow : den ≤ num * 2 ^ (100 : Nat))
    (hhigh : num < den * 2 ^ (50 : Nat)) :
    ∃ l, 2 ≤ l ∧ l ≤ 153 ∧ 2 ^ (52 : Nat) * den ≤ num * 2 ^ l ∧ num * 2 ^ l < 2 ^ (53 : Nat) * den ∧
      binary64.magnitudeBits num den
        = (1074 - l) * 2 ^ (52 : Nat) + divHalfEven (num * 2 ^ l) den := by
  obtain ⟨hba, hab⟩ := log2_near hnum hden hlow hhigh
  obtain ⟨k, hk⟩ : ∃ k, k + num.log2 = 53 + den.log2 := ⟨53 + den.log2 - num.log2, by omega⟩
  obtain ⟨hscaledLow, hscaledHigh⟩ := scaled_bounds hnum hden hk
  generalize ha : num.log2 = a at hba hab hk
  generalize hb : den.log2 = b at hba hab hk
  have hfirst : max binary64.minExponent ((a : Int) - b - binary64.precision) = -(k : Int) := by
    show max (-1074) ((a : Int) - b - 53) = -(k : Int)
    omega
  have hnegative : -(k : Int) < 0 := by omega
  have hne : (num == 0) = false := beq_eq_false_iff_ne.2 (by omega)
  by_cases hbig : 2 ^ binary64.precision * den ≤ num * 2 ^ k
  · -- The quotient has one bit more than its numbers let expect.
    obtain ⟨l, rfl⟩ : ∃ l, k = l + 1 := ⟨k - 1, by omega⟩
    have hquotient : num * 2 ^ (l + 1) / den ≥ 2 ^ binary64.precision :=
      (Nat.le_div_iff_mul_le hden).2 hbig
    have hdouble : num * 2 ^ (l + 1) = num * 2 ^ l * 2 := by rw [Nat.pow_succ, Nat.mul_assoc]
    have hlow : 2 ^ (52 : Nat) * den ≤ num * 2 ^ l := by
      have htwice : 2 ^ (53 : Nat) * den ≤ num * 2 ^ l * 2 := hdouble ▸ hbig
      omega
    have hhigh : num * 2 ^ l < 2 ^ (53 : Nat) * den := by
      rw [hdouble] at hscaledHigh
      omega
    have hnext : -((l + 1 : Nat) : Int) + 1 = -(l : Int) := by omega
    have hpos : -(l : Int) < 0 := by omega
    refine ⟨l, by omega, by omega, hlow, hhigh, ?_⟩
    unfold FloatFormat.magnitudeBits
    simp only [hne, ha, hb, hfirst, hnegative, hquotient, hnext, hpos, if_true, Int.neg_neg,
      Int.toNat_natCast, Bool.false_eq_true, if_false]
    exact min_infinityBits (by omega) (divHalfEven_bounds hden hlow hhigh).2
  · have hquotient : ¬num * 2 ^ k / den ≥ 2 ^ binary64.precision :=
      fun h => hbig ((Nat.le_div_iff_mul_le hden).1 h)
    have hhigh : num * 2 ^ k < 2 ^ (53 : Nat) * den := Nat.lt_of_not_le hbig
    refine ⟨k, by omega, by omega, hscaledLow, hhigh, ?_⟩
    unfold FloatFormat.magnitudeBits
    simp only [hne, ha, hb, hfirst, hnegative, hquotient, if_true, Int.neg_neg,
      Int.toNat_natCast, Bool.false_eq_true, if_false]
    exact min_infinityBits (by omega) (divHalfEven_bounds hden hscaledLow hhigh).2

/-- `m / 2 ^ k` misses a quotient by half a unit of the last bit at most. -/
structure Near (num den m k : Nat) : Prop where
  above : 2 * (m * den) ≤ 2 * (num * 2 ^ k) + den
  below : 2 * (num * 2 ^ k) ≤ 2 * (m * den) + den

/-- The nearest double to a quotient is near it. -/
theorem magnitudeBits_near (hnum : 0 < num) (hden : 0 < den) (hlow : den ≤ num * 2 ^ (100 : Nat))
    (hhigh : num < den * 2 ^ (50 : Nat)) :
    ∃ m k, Full m ∧ 0 < k ∧ k ≤ 153 ∧ Near num den m k ∧
      binary64.magnitudeBits num den = fullBits m (-(k : Int)) := by
  obtain ⟨l, hl, hlHigh, hlow, hhigh, hbits⟩ := exists_place hnum hden hlow hhigh
  obtain ⟨habove, hbelow⟩ := divHalfEven_near (num * 2 ^ l) hden
  obtain ⟨hsLow, hsHigh⟩ := divHalfEven_bounds hden hlow hhigh
  rw [hbits]
  generalize divHalfEven (num * 2 ^ l) den = s at habove hbelow hsLow hsHigh
  rcases Nat.lt_or_eq_of_le hsHigh with hlt | rfl
  · exact ⟨s, l, ⟨hsLow, hlt⟩, by omega, by omega, ⟨habove, hbelow⟩, (fullBits_neg s l).symm⟩
  · -- The significand has been rounded up to the next power of two.
    obtain ⟨l, rfl⟩ : ∃ k, l = k + 1 := ⟨l - 1, by omega⟩
    have hdouble : num * 2 ^ (l + 1) = num * 2 ^ l * 2 := by rw [Nat.pow_succ, Nat.mul_assoc]
    rw [hdouble] at habove hbelow
    refine ⟨2 ^ (52 : Nat), l, ⟨by omega, by omega⟩, by omega, by omega, ⟨by omega, by omega⟩, ?_⟩
    rw [fullBits_neg]
    omega

/-- A double is the nearest one to itself. -/
theorem bitsOf_finite (hm : Full m) (hlow : 3 ≤ k) (hhigh : k ≤ 152) :
    binary64.bitsOf (.finite false m (-(k : Int))) = fullBits m (-(k : Int)) := by
  obtain ⟨hmLow, hmHigh⟩ := hm
  have hpos : 0 < 2 ^ k := Nat.two_pow_pos k
  obtain ⟨l, -, -, hlLow, hlHigh, hbits⟩ := exists_place (show 0 < m by omega) hpos
    (calc 2 ^ k ≤ 2 ^ (152 : Nat) := Nat.pow_le_pow_right (by decide) hhigh
      _ = 2 ^ (52 : Nat) * 2 ^ (100 : Nat) := by rw [← Nat.pow_add]
      _ ≤ m * 2 ^ (100 : Nat) := Nat.mul_le_mul_right _ hmLow)
    (calc m < 2 ^ (53 : Nat) := hmHigh
      _ = 2 ^ (3 : Nat) * 2 ^ (50 : Nat) := by rw [← Nat.pow_add]
      _ ≤ 2 ^ k * 2 ^ (50 : Nat) :=
        Nat.mul_le_mul_right _ (Nat.pow_le_pow_right (by decide) hlow))
  -- No other place leaves the significand as long as it is.
  have hle : l < k + 1 := by
    apply (Nat.pow_lt_pow_iff_right (a := 2) (by decide)).1
    have h : 2 ^ (52 : Nat) * 2 ^ l < 2 ^ (53 : Nat) * 2 ^ k :=
      Nat.lt_of_le_of_lt (Nat.mul_le_mul_right _ hmLow) hlHigh
    rw [Nat.pow_succ]
    omega
  have hge : k < l + 1 := by
    apply (Nat.pow_lt_pow_iff_right (a := 2) (by decide)).1
    have h : 2 ^ (52 : Nat) * 2 ^ k < 2 ^ (53 : Nat) * 2 ^ l :=
      Nat.lt_of_le_of_lt hlLow (Nat.mul_lt_mul_of_pos_right hmHigh (Nat.two_pow_pos l))
    rw [Nat.pow_succ]
    omega
  obtain rfl : l = k := by omega
  have hnegative : -(l : Int) < 0 := by omega
  rw [FloatFormat.bitsOf, if_pos hnegative, FloatFormat.ratioBits, Int.neg_neg, Int.toNat_natCast,
    hbits, divHalfEven_mul hpos, fullBits_neg]
  exact Nat.zero_add _

/-! ## Packing a significand -/

theorem log2_full (hm : Full m) : m.log2 = 52 := by
  have hne : m ≠ 0 := by
    have hlow := hm.low
    omega
  exact (Nat.log2_eq_iff hne).2 ⟨hm.low, hm.high⟩

theorem toNat_packComponents (exponent : BitVec 11) (mantissa : BitVec 52) :
    (packComponents .binary64 .positive exponent mantissa).toNat
      = exponent.toNat * 2 ^ (52 : Nat) + mantissa.toNat := by
  have hexponent := exponent.isLt
  have hmantissa := mantissa.isLt
  show ((Sign.positive.toBitVec ++ exponent) ++ mantissa).toNat = _
  rw [BitVec.toNat_append, BitVec.toNat_append, ← Nat.shiftLeft_add_eq_or_of_lt hmantissa,
    ← Nat.shiftLeft_add_eq_or_of_lt hexponent, Nat.shiftLeft_eq, Nat.shiftLeft_eq]
  show (0 * 2 ^ 11 + exponent.toNat) * 2 ^ 52 + mantissa.toNat = _
  rw [Nat.zero_mul, Nat.zero_add]

theorem toNat_pack (hm : Full m) (he : Placed e) (hpos : 0 < m) :
    (UnpackedFloat.pack .binary64 (.finite .positive m e hpos)).toNat = fullBits m e := by
  obtain ⟨b, hb, hbLow, hbHigh, hbits⟩ := exists_biased he
  have hbiased : (e + (Format.binary64.exponentBias : Nat) +
      (Format.binary64.mantissaBitsWithoutImplicit : Nat)).toNat = b + 1 := by
    show (e + 1023 + 52).toNat = b + 1
    omega
  have hfinite : ¬2 ^ Format.binary64.exponentBits ≤ b + 1 + 1 := by
    show ¬2 ^ (11 : Nat) ≤ b + 1 + 1
    omega
  have hnormal : m.log2 + 1 = Format.binary64.mantissaBits := by
    rw [log2_full hm]
    rfl
  unfold UnpackedFloat.pack
  simp only [hbiased, hfinite, hnormal, if_true, if_false]
  rw [toNat_packComponents, BitVec.toNat_ofNat, BitVec.toNat_ofNat, hbits]
  have hlow := hm.low
  have hhigh := hm.high
  show (b + 1) % 2 ^ (11 : Nat) * 2 ^ (52 : Nat) + m % 2 ^ (52 : Nat) = b * 2 ^ (52 : Nat) + m
  omega

theorem fullBits_lt (hm : Full m) (he : Placed e) : fullBits m e < 2 ^ (64 : Nat) := by
  obtain ⟨b, -, -, hbHigh, hbits⟩ := exists_biased he
  have hhigh := hm.high
  rw [hbits]
  omega

theorem unpack_fullBits (hm : Full m) (he : Placed e) :
    UnpackedFloat.unpack .binary64 (UInt64.ofNat (fullBits m e)).toBitVec =
      .finite .positive m e (Nat.lt_of_lt_of_le (by decide) hm.low) := by
  have hnat := toNat_ofNat_of_lt (fullBits_lt hm he)
  obtain ⟨hlow, hhigh⟩ := hm
  obtain ⟨b, hb, hbLow, hbHigh, hbits⟩ := exists_biased he
  rw [hbits] at hnat ⊢
  generalize (UInt64.ofNat (b * 2 ^ (52 : Nat) + m)).toBitVec = v at hnat
  have hexponent : (@unpackExponent .binary64 v).toNat = b + 1 := by
    rw [toNat_unpackExponent, hnat]
    show (b * 2 ^ (52 : Nat) + m) / 2 ^ (52 : Nat) % 2 ^ (11 : Nat) = b + 1
    omega
  have hmantissa : (@unpackMantissa .binary64 v).toNat = m - 2 ^ (52 : Nat) := by
    rw [toNat_unpackMantissa, hnat]
    show (b * 2 ^ (52 : Nat) + m) % 2 ^ (52 : Nat) = m - 2 ^ (52 : Nat)
    omega
  have hsign : @unpackSign .binary64 v = 0#1 := by
    rw [← BitVec.toNat_inj, toNat_unpackSign, hnat]
    show (b * 2 ^ (52 : Nat) + m) / 2 ^ (63 : Nat) % 2 = 0
    omega
  have hones : @unpackExponent .binary64 v ≠ -1#_ := by
    rw [ne_eq, ← BitVec.toNat_inj, hexponent]
    show ¬b + 1 = 2047
    omega
  have hzero : @unpackExponent .binary64 v ≠ 0#_ := by
    rw [ne_eq, ← BitVec.toNat_inj, hexponent]
    show ¬b + 1 = 0
    omega
  have hfull : (1#1 ++ @unpackMantissa .binary64 v).toNat = m := by
    rw [BitVec.toNat_append, ← Nat.shiftLeft_add_eq_or_of_lt (BitVec.isLt _), hmantissa]
    show 1 <<< 52 + (m - 2 ^ (52 : Nat)) = m
    rw [Nat.shiftLeft_eq]
    omega
  have hplace : ((@unpackExponent .binary64 v).toNat : Int) -
      ((Format.binary64.exponentBias : Nat) + (Format.binary64.mantissaBitsWithoutImplicit : Nat))
        = e := by
    rw [hexponent]
    show ((b + 1 : Nat) : Int) - (1023 + 52) = e
    omega
  unfold UnpackedFloat.unpack
  simp only [hones, hzero, if_false, hsign, hfull, hplace]
  rfl

/-! ## Products -/

/-- What has been shifted out of a significand, as the two bits behind it tell. -/
structure Shifted (p t : Nat) (em : ExtendedMantissa) : Prop where
  mantissa_eq : em.mantissa = p / 2 ^ t
  upper : em.roundBit = true → 2 ^ t ≤ 2 * (p % 2 ^ t)
  lower : em.roundBit = false → 2 * (p % 2 ^ t) < 2 ^ t
  exact : em.stickyBit = false → 2 * (p % 2 ^ t) = if em.roundBit then 2 ^ t else 0

theorem Shifted.shiftRightOne {p t : Nat} {em : ExtendedMantissa} (h : Shifted p t em) :
    Shifted p (t + 1) em.shiftRightOne := by
  have hrest : p % 2 ^ t < 2 ^ t := Nat.mod_lt _ (Nat.two_pow_pos t)
  have hmod : p % 2 ^ (t + 1) = p % 2 ^ t + 2 ^ t * (p / 2 ^ t % 2) := Nat.mod_pow_succ
  have hpow : 2 ^ (t + 1) = 2 * 2 ^ t := by rw [Nat.pow_succ, Nat.mul_comm]
  have hmantissa : em.shiftRightOne.mantissa = p / 2 ^ (t + 1) := by
    show em.mantissa / 2 = p / 2 ^ (t + 1)
    rw [h.mantissa_eq, Nat.div_div_eq_div_mul, Nat.pow_succ]
  have hround : em.shiftRightOne.roundBit = (p / 2 ^ t % 2 != 0) := by
    rw [← h.mantissa_eq]
    rfl
  -- Nothing has been shifted out before where no bit of it is kept.
  have hnone (hsticky : em.shiftRightOne.stickyBit = false) : p % 2 ^ t = 0 := by
    obtain ⟨hdown, hexact⟩ := Bool.or_eq_false_iff.1 hsticky
    have hzero := h.exact hexact
    rw [hdown, if_neg Bool.false_ne_true] at hzero
    omega
  rcases Nat.mod_two_eq_zero_or_one (p / 2 ^ t) with hbit | hbit
  · rw [hbit, Nat.mul_zero, Nat.add_zero] at hmod
    have hdown : em.shiftRightOne.roundBit = false := by rw [hround, hbit]; rfl
    refine ⟨hmantissa, fun hup => ?_, fun _ => by omega, fun hsticky => ?_⟩
    · rw [hdown] at hup
      cases hup
    · rw [hdown, if_neg Bool.false_ne_true, hmod, hnone hsticky]
  · rw [hbit, Nat.mul_one] at hmod
    have hup : em.shiftRightOne.roundBit = true := by rw [hround, hbit]; rfl
    refine ⟨hmantissa, fun _ => by omega, fun hdown => ?_, fun hsticky => ?_⟩
    · rw [hup] at hdown
      cases hdown
    · rw [hup, if_pos rfl, hmod, hnone hsticky]
      omega

theorem shifted_shiftRight (p t : Nat) :
    Shifted p t (ExtendedMantissa.ofMantissaAndAccuracy p .exact >>> t) := by
  induction t with
  | zero =>
      have hzero : p % 2 ^ 0 = 0 := Nat.mod_one p
      exact ⟨(Nat.div_one p).symm, fun hup => Bool.noConfusion hup, fun _ => by omega,
        fun _ => by rw [hzero]; rfl⟩
  | succ t ih => exact ih.shiftRightOne

/-- Rounding goes to one of the two neighbours. -/
theorem roundedMantissa_bounds (em : ExtendedMantissa) :
    em.mantissa ≤ em.roundedMantissa ∧ em.roundedMantissa ≤ em.mantissa + 1 := by
  obtain ⟨mantissa, roundBit, stickyBit⟩ := em
  show mantissa ≤ Accuracy.roundToNearestEven mantissa _ ∧
    Accuracy.roundToNearestEven mantissa _ ≤ mantissa + 1
  cases roundBit <;> cases stickyBit <;>
    simp only [ExtendedMantissa.accuracy, Accuracy.roundToNearestEven] <;> omega

/-- Rounding goes to the nearer of the two neighbours. -/
theorem Shifted.near {p t : Nat} {em : ExtendedMantissa} (h : Shifted p t em) :
    2 * (em.roundedMantissa * 2 ^ t) ≤ 2 * p + 2 ^ t ∧
      2 * p ≤ 2 * (em.roundedMantissa * 2 ^ t) + 2 ^ t := by
  have hsplit := Nat.div_add_mod' p (2 ^ t)
  have hrest : p % 2 ^ t < 2 ^ t := Nat.mod_lt _ (Nat.two_pow_pos t)
  obtain ⟨hmantissa, hupper, hlower, hexact⟩ := h
  obtain ⟨mantissa, roundBit, stickyBit⟩ := em
  dsimp only at hmantissa hupper hlower hexact
  have hup : (mantissa + 1) * 2 ^ t = mantissa * 2 ^ t + 2 ^ t := by rw [Nat.add_mul, Nat.one_mul]
  rw [← hmantissa] at hsplit
  cases roundBit with
  | false =>
      have hlt := hlower rfl
      have hdown : ExtendedMantissa.roundedMantissa ⟨mantissa, false, stickyBit⟩ = mantissa := by
        cases stickyBit <;> rfl
      rw [hdown]
      omega
  | true =>
      have hle := hupper rfl
      cases stickyBit with
      | true =>
          show 2 * ((mantissa + 1) * 2 ^ t) ≤ _ ∧ _ ≤ 2 * ((mantissa + 1) * 2 ^ t) + _
          omega
      | false =>
          -- A half goes to the even neighbour, which is no farther than the other one.
          have hhalf := hexact rfl
          have heven : ExtendedMantissa.roundedMantissa ⟨mantissa, true, false⟩ =
              mantissa + mantissa % 2 := rfl
          rw [if_pos rfl] at hhalf
          rcases Nat.mod_two_eq_zero_or_one mantissa with hbit | hbit
          · rw [heven, hbit, Nat.add_zero]
            omega
          · rw [heven, hbit]
            omega

/-- Shifting to the target exponent leaves as many bits as a significand has. -/
theorem shiftToTargetExponent_eq {p bits : Nat} (t : Nat) {e : Int} (hbits : p.log2 = bits)
    (ht : bits = 52 + t) (he : -1000 ≤ e) :
    shiftToTargetExponent .binary64 p e .exact =
      (ExtendedMantissa.ofMantissaAndAccuracy p .exact >>> t, e + t) := by
  have htarget : (Format.binary64.targetExponent (totalExponent p e) - e).toNat = t := by
    show (max ((p.log2 : Int) + 1 + e - 53) (-1074) - e).toNat = t
    omega
  unfold shiftToTargetExponent shiftToExponent
  simp only [htarget]

theorem finite_eq {sign : Sign} {a : Nat} {e e' : Int} (ha : a = m) (he : e = e') (hm : 0 < m) :
    (if h : a = 0 then UnpackedFloat.zero sign
      else .finite sign a e (Nat.pos_of_ne_zero h)) = .finite sign m e' hm := by
  subst ha he
  rw [dif_neg (Nat.ne_of_gt hm)]

/-- `m * 2 ^ t` is the nearest to a product of the numbers with a full significand: it misses the
product by half of the unit `2 ^ u` at most. -/
structure NearProduct (p m t u : Nat) : Prop where
  full : Full m
  unit_low : 52 ≤ u
  unit_high : u ≤ 53
  low : 2 ^ (52 + u) ≤ p
  shift_low : u ≤ t
  shift_high : t ≤ u + 1
  above : 2 * (m * 2 ^ t) ≤ 2 * p + 2 ^ u
  below : 2 * p ≤ 2 * (m * 2 ^ t) + 2 ^ u

/-- Rounding a product of significands gives the nearest number. -/
theorem roundWithAccuracy_near {p : Nat} (sign : Sign) (hlow : 2 ^ (104 : Nat) ≤ p)
    (hhigh : p < 2 ^ (106 : Nat)) (he : -1000 ≤ e) :
    ∃ (m t u : Nat) (hpos : 0 < m), NearProduct p m t u ∧
      roundWithAccuracy .binary64 sign p e .exact = .finite sign m (e + t) hpos := by
  obtain ⟨u, hu, hlog⟩ : ∃ u, (u = 52 ∨ u = 53) ∧ p.log2 = 52 + u := by
    rcases Nat.lt_or_ge p (2 ^ (105 : Nat)) with hlt | hge
    · exact ⟨52, .inl rfl, (Nat.log2_eq_iff (by omega)).2 ⟨hlow, hlt⟩⟩
    · exact ⟨53, .inr rfl, (Nat.log2_eq_iff (by omega)).2 ⟨hge, hhigh⟩⟩
  have hunit : 0 < 2 ^ u := Nat.two_pow_pos u
  obtain ⟨hpLow, hpHigh⟩ := (Nat.log2_eq_iff (by omega)).1 hlog
  have hshifted := shifted_shiftRight p u
  obtain ⟨hroundLow, hroundHigh⟩ :=
    roundedMantissa_bounds (ExtendedMantissa.ofMantissaAndAccuracy p .exact >>> u)
  obtain ⟨habove, hbelow⟩ := hshifted.near
  rw [hshifted.mantissa_eq] at hroundLow hroundHigh
  unfold roundWithAccuracy
  rw [shiftToTargetExponent_eq u hlog rfl he]
  dsimp only
  generalize (ExtendedMantissa.ofMantissaAndAccuracy p .exact >>> u).roundedMantissa = r
    at hroundLow hroundHigh habove hbelow ⊢
  have hqLow : 2 ^ (52 : Nat) ≤ p / 2 ^ u :=
    (Nat.le_div_iff_mul_le hunit).2 (by rw [← Nat.pow_add]; exact hpLow)
  have hqHigh : p / 2 ^ u < 2 ^ (53 : Nat) :=
    (Nat.div_lt_iff_lt_mul hunit).2 (by rwa [← Nat.pow_add, Nat.add_right_comm 52 1 u])
  rcases Nat.lt_or_eq_of_le (show r ≤ 2 ^ (53 : Nat) by omega) with hlt | rfl
  · have hfull : Full r := ⟨by omega, hlt⟩
    refine ⟨r, u, u, by omega,
      ⟨hfull, by omega, by omega, hpLow, by omega, by omega, habove, hbelow⟩, ?_⟩
    rw [shiftToTargetExponent_eq 0 (log2_full hfull) rfl (by omega)]
    exact finite_eq rfl (by omega) _
  · -- The significand has been rounded up to the next power of two.
    have hlog : (2 ^ (53 : Nat)).log2 = 53 := Nat.log2_two_pow
    have hdouble : 2 ^ (52 : Nat) * 2 ^ (u + 1) = 2 ^ (53 : Nat) * 2 ^ u := by
      rw [← Nat.pow_add, ← Nat.pow_add]
      congr 1
      omega
    refine ⟨2 ^ (52 : Nat), u + 1, u, by decide,
      ⟨⟨Nat.le_refl _, by decide⟩, by omega, by omega, hpLow, by omega, by omega, ?_, ?_⟩, ?_⟩
    · rwa [hdouble]
    · rwa [hdouble]
    · rw [shiftToTargetExponent_eq 1 hlog rfl (by omega)]
      exact finite_eq rfl (by omega) _

/-! ## Doubles that are full -/

theorem unpack_pack (hm : Full m) (he : Placed e) (hpos : 0 < m) :
    (Float.Model.pack (.finite .positive m e hpos)).unpack = .finite .positive m e hpos := by
  have hbits : UnpackedFloat.pack .binary64 (.finite .positive m e hpos) =
      (UInt64.ofNat (fullBits m e)).toBitVec := by
    rw [← BitVec.toNat_inj, toNat_pack hm he, toNat_ofNat_of_lt (fullBits_lt hm he)]
  show UnpackedFloat.unpack .binary64
    (UInt64.ofBitVec (UnpackedFloat.pack .binary64 (.finite .positive m e hpos))).toBitVec = _
  rw [hbits]
  exact unpack_fullBits hm he

theorem doubleView_of_toModel {x : Float} (hm : Full m) (he : Placed e) {hpos : 0 < m}
    (hx : x.toModel = Float.Model.pack (.finite .positive m e hpos)) :
    doubleView x = .finite false m e := by
  have hbits : x.toBits.toNat =
      (UnpackedFloat.pack .binary64 (.finite .positive m e hpos)).toNat := by
    show x.toModel.toBits.toNat = _
    rw [hx]
    rfl
  rw [doubleView, hbits, toNat_pack hm he, view_fullBits hm he]

theorem unpack_doubleOf (hm : Full m) (hlow : 3 ≤ k) (hhigh : k ≤ 152) (hpos : 0 < m) :
    (doubleOf (.finite false m (-(k : Int)))).toModel.unpack =
      .finite .positive m (-(k : Int)) hpos := by
  have he : Placed (-(k : Int)) := ⟨by omega, by omega⟩
  have hmodel : (doubleOf (.finite false m (-(k : Int)))).toModel =
      Float.Model.pack (.finite .positive m (-(k : Int)) hpos) := by
    rw [doubleOf, bitsOf_finite hm hlow hhigh]
    show Float.Model.pack
      (UnpackedFloat.unpack .binary64 (UInt64.ofNat (fullBits m (-(k : Int)))).toBitVec) = _
    rw [unpack_fullBits hm he]
  rw [hmodel, unpack_pack hm he]

/-! ## Times a billion -/

theorem mul_add_le (unit : Nat) {a b : Nat} (h : a < b) : a * unit + unit ≤ b * unit := by
  rw [← Nat.succ_mul]
  exact Nat.mul_le_mul_right unit h

theorem divHalfUp_near (num : Nat) (hden : 0 < den) :
    2 * (divHalfUp num den * den) ≤ 2 * num + den ∧
      2 * num < 2 * (divHalfUp num den * den) + den := by
  have hsplit := Nat.div_add_mod num den
  have hlt := Nat.mod_lt num hden
  rw [Nat.mul_comm] at hsplit
  unfold divHalfUp
  split
  · rw [Nat.add_mul]
    omega
  · omega

/-- There is one whole number that is near, with a half going up. -/
theorem divHalfUp_eq (hden : 0 < den) (habove : 2 * (n * den) ≤ 2 * num + den)
    (hbelow : 2 * num < 2 * (n * den) + den) : divHalfUp num den = n := by
  obtain ⟨hup, hdown⟩ := divHalfUp_near num hden
  generalize divHalfUp num den = r at hup hdown ⊢
  rcases Nat.lt_trichotomy r n with hlt | heq | hgt
  · have hle := mul_add_le den hlt
    omega
  · exact heq
  · have hle := mul_add_le den hgt
    omega

/-- Multiples of a unit are the same if they are no more than half of it apart. -/
theorem eq_of_mul_near {a b unit : Nat} (hunit : 0 < unit)
    (habove : 2 * (a * unit) ≤ 2 * (b * unit) + unit)
    (hbelow : 2 * (b * unit) ≤ 2 * (a * unit) + unit) : a = b := by
  rcases Nat.lt_trichotomy a b with hlt | heq | hgt
  · have hle := mul_add_le unit hlt
    omega
  · exact heq
  · have hle := mul_add_le unit hgt
    omega

/-- A product that a full significand has room for is not rounded. -/
theorem NearProduct.eq {p t u q i : Nat} (h : NearProduct p m t u) (hp : p = q * 2 ^ i)
    (hq : q < 2 ^ (53 : Nat)) : m * 2 ^ t = p := by
  have hu : u ≤ i := by
    have hlt : 2 ^ (52 + u) < 2 ^ (53 + i) :=
      calc 2 ^ (52 + u) ≤ q * 2 ^ i := hp ▸ h.low
        _ < 2 ^ (53 : Nat) * 2 ^ i := Nat.mul_lt_mul_of_pos_right hq (Nat.two_pow_pos i)
        _ = 2 ^ (53 + i) := by rw [← Nat.pow_add]
    have hle := (Nat.pow_lt_pow_iff_right (a := 2) (by decide)).1 hlt
    omega
  -- Both sides are multiples of the unit, and half a unit does not lie between two of them.
  have hmultiple {a j : Nat} (hj : u ≤ j) : a * 2 ^ j = a * 2 ^ (j - u) * 2 ^ u := by
    rw [Nat.mul_assoc, ← Nat.pow_add, Nat.sub_add_cancel hj]
  have hunit : 0 < 2 ^ u := Nat.two_pow_pos u
  have habove := h.above
  have hbelow := h.below
  rw [hp, hmultiple h.shift_low, hmultiple hu] at *
  rw [eq_of_mul_near hunit habove hbelow]

/-- A billion, as a double. -/
def billion : Nat := 1000000000 * 2 ^ (23 : Nat)

/-- A full double times a billion. -/
theorem toModel_billionfold (hm : Full m) (hlow : 3 ≤ k) (hhigh : k ≤ 152) :
    ∃ (r t u : Nat) (hpos : 0 < r), NearProduct (m * billion) r t u ∧
      (doubleOf (.finite false m (-(k : Int))) * 1e9).toModel =
        Float.Model.pack (.finite .positive r (-((k + 23 : Nat) : Int) + t) hpos) := by
  have hpos : 0 < m := Nat.lt_of_lt_of_le (by decide) hm.low
  have hbillion : (1e9 : Float).toModel.unpack = .finite .positive billion (-23) (by decide) := rfl
  obtain ⟨hmLow, hmHigh⟩ := hm
  obtain ⟨r, t, u, hr, hnear, hround⟩ :=
    roundWithAccuracy_near .positive (p := m * billion) (e := -((k + 23 : Nat) : Int))
      (by unfold billion; omega) (by unfold billion; omega) (by omega)
  refine ⟨r, t, u, hr, hnear, ?_⟩
  have hplaces : -(k : Int) + -23 = -((k + 23 : Nat) : Int) := by omega
  show Float.Model.pack
    (UnpackedFloat.mul _ (doubleOf _).toModel.unpack (1e9 : Float).toModel.unpack) = _
  rw [unpack_doubleOf ⟨hmLow, hmHigh⟩ hlow hhigh hpos, hbillion, ← hround, ← hplaces]
  rfl

/-- Numbers below the bound of 64 bits with a sign stay below it as doubles. -/
theorem abs_lt_of_toModel {x : Float} (hm : Full m) (he : Placed e) (hle : e ≤ 10) (hpos : 0 < m)
    (hx : x.toModel = Float.Model.pack (.finite .positive m e hpos)) :
    x.abs < 9223372036854775808.0 := by
  have habs : x.abs.toModel.unpack = .finite .positive m e hpos := by
    show (Float.Model.pack x.toModel.unpack.abs).unpack = _
    rw [hx, unpack_pack hm he]
    exact unpack_pack hm he hpos
  have hbound : (9223372036854775808.0 : Float).toModel.unpack =
      .finite .positive (2 ^ (52 : Nat)) 11 (by decide) := rfl
  have hless : compare e 11 = .lt := Int.compare_eq_lt.2 (by omega)
  rw [lt_iff_compare, habs, hbound, UnpackedFloat.compare, hless]
  rfl

/-- A double that is less than a half away from a whole number of 63 bits is rounded to it. -/
theorem toWhole_near {x : Float} {t : Nat} (hm : Full m) (hpos : 0 < m) (hk : k ≤ 900) (ht : t ≤ 54)
    (hx : x.toModel = Float.Model.pack (.finite .positive m (-(k : Int) + t) hpos))
    (habove : 2 * (n * 2 ^ k) ≤ 2 * (m * 2 ^ t) + 2 ^ k)
    (hbelow : 2 * (m * 2 ^ t) < 2 * (n * 2 ^ k) + 2 ^ k) (hn : n < 2 ^ (63 : Nat)) :
    x.abs < 9223372036854775808.0 ∧
      ∃ r e, (doubleView x).toWhole .nearest = .finite false r e ∧ r * 2 ^ e.toNat = n := by
  have he : Placed (-(k : Int) + t) := ⟨by omega, by omega⟩
  have hkPos : 0 < 2 ^ k := Nat.two_pow_pos k
  rcases Nat.lt_or_ge t k with hlt | hge
  · -- There are places behind the point to round at.
    obtain ⟨l, rfl⟩ : ∃ l, k = l + t := ⟨k - t, by omega⟩
    have hplace : -((l + t : Nat) : Int) + t = -(l : Int) := by omega
    have hnegative : -(l : Int) < 0 := by omega
    have hscale (a : Nat) : a * 2 ^ (l + t) = a * 2 ^ l * 2 ^ t := by
      rw [Nat.pow_add, Nat.mul_assoc]
    refine ⟨abs_lt_of_toModel hm he (by omega) hpos hx, n, 0, ?_, by simp⟩
    have hrounded : divHalfUp m (2 ^ l) = n := by
      rw [hscale, Nat.pow_add] at habove hbelow
      refine divHalfUp_eq (Nat.two_pow_pos l) ?_ ?_
      · refine Nat.le_of_mul_le_mul_right ?_ (Nat.two_pow_pos t)
        rw [Nat.add_mul, Nat.mul_assoc, Nat.mul_assoc 2 m]
        exact habove
      · refine Nat.lt_of_mul_lt_mul_right (a := 2 ^ t) ?_
        rw [Nat.add_mul, Nat.mul_assoc, Nat.mul_assoc 2 (n * 2 ^ l)]
        exact hbelow
    rw [doubleView_of_toModel hm he hx, hplace, FloatView.toWhole, if_pos hnegative, Int.neg_neg,
      Int.toNat_natCast, WholeRule.apply, hrounded]
  · -- The double is whole already.
    obtain ⟨i, rfl⟩ : ∃ i, t = i + k := ⟨t - k, by omega⟩
    have hplace : -(k : Int) + (i + k : Nat) = i := by omega
    have hwhole : m * 2 ^ i = n := by
      have hscale : m * 2 ^ (i + k) = m * 2 ^ i * 2 ^ k := by rw [Nat.pow_add, Nat.mul_assoc]
      rw [hscale] at habove hbelow
      exact eq_of_mul_near hkPos hbelow.le habove
    have hsmall : i ≤ 10 := by
      by_contra hlarge
      have hle : 2 ^ (52 : Nat) * 2 ^ (11 : Nat) ≤ m * 2 ^ i :=
        Nat.mul_le_mul hm.low (Nat.pow_le_pow_right (by decide) (by omega))
      omega
    refine ⟨abs_lt_of_toModel hm he (by omega) hpos hx, m, i, ?_, hwhole⟩
    rw [doubleView_of_toModel hm he hx, hplace, FloatView.toWhole, if_neg (by omega)]

end EntityQuery.Number
