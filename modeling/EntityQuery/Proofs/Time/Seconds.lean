import EntityQuery.Proofs.Number.Nearest
import EntityQuery.Proofs.Number.WrittenNumbers
import EntityQuery.Time.Duration

/-!
# Reading seconds

Seconds take a detour over a double, which is multiplied by a billion and rounded to a whole number
of nanoseconds.  With at most nine digits behind the point this does no harm in two cases.  Below
2^22 seconds the two roundings together miss the nanoseconds by less than a half.  Whole seconds are
doubles themselves, and so are their nanoseconds as long as their odd part has 53 bits.
-/

namespace EntityQuery

open Number

variable {number whole fraction rest : List Char} {num places m k : Nat} {c : Char}

/-! ## Floating point numbers without a sign -/

namespace Number

theorem toLower_of_isDigit (h : c.isDigit = true) : c.toLower = c := by
  simp only [Char.isDigit, Bool.and_eq_true, decide_eq_true_eq, UInt32.le_iff_toNat_le] at h
  have hhigh := h.2
  simp at hhigh
  rw [Char.toLower, dif_neg]
  rw [ge_iff_le, UInt32.le_iff_toNat_le]
  simp
  omega

/-- What starts with a digit is no word and has no sign. -/
theorem read?_of_isDigit (f : FloatFormat) (hc : c.isDigit = true) :
    f.read? (c :: rest) = (readScientific? (c :: rest)).map (f.ofScientific false) := by
  have hword (d : Char) (ds : List Char) (hd : d.isDigit = false) :
      (String.ofList ((c :: rest).map Char.toLower) == String.ofList (d :: ds)) = false := by
    rw [beq_eq_false_iff_ne, ne_eq, String.ofList_inj, List.map_cons, toLower_of_isDigit hc]
    exact fun h => ne_of_isDigit hc hd (List.cons.inj h).1
  have hi (ds : List Char) := hword 'i' ds rfl
  have hn (ds : List Char) := hword 'n' ds rfl
  have hmagnitude : f.readMagnitude? false (c :: rest) =
      (readScientific? (c :: rest)).map (f.ofScientific false) := by
    unfold FloatFormat.readMagnitude?
    simp only [show "inf" = String.ofList ['i', 'n', 'f'] from rfl,
      show "infinity" = String.ofList ['i', 'n', 'f', 'i', 'n', 'i', 't', 'y'] from rfl,
      show "nan" = String.ofList ['n', 'a', 'n'] from rfl, hi, hn, Bool.or_self,
      Bool.false_eq_true, if_false]
  unfold FloatFormat.read?
  split
  · rename_i heq
    exact absurd (List.cons.inj heq).1 (ne_of_isDigit hc rfl)
  · rename_i heq
    exact absurd (List.cons.inj heq).1 (ne_of_isDigit hc rfl)
  · exact hmagnitude

theorem readScientific?_digits (hne : whole ≠ []) (hwhole : ∀ c ∈ whole, c.isDigit = true) :
    readScientific? whole = some ⟨digitsValue 0 whole, -((0 : Nat) : Int)⟩ := by
  unfold readScientific?
  simp only [List.takeWhile_eq_self_iff.2 hwhole, List.dropWhile_eq_nil_iff.2 hwhole,
    List.isEmpty_eq_false_iff.2 hne, Bool.false_and, Bool.false_eq_true, if_false]
  rfl

theorem readScientific?_point (hne : whole ≠ []) (hwhole : ∀ c ∈ whole, c.isDigit = true)
    (hfraction : ∀ c ∈ fraction, c.isDigit = true) :
    readScientific? (whole ++ '.' :: fraction) =
      some ⟨digitsValue 0 (whole ++ fraction), -(fraction.length : Int)⟩ := by
  have hpoint : Char.isDigit '.' = false := rfl
  unfold readScientific?
  simp only [List.takeWhile_append_of_pos hwhole, List.dropWhile_append_of_pos hwhole,
    List.takeWhile_cons, List.dropWhile_cons, hpoint, Bool.false_eq_true, if_false,
    List.append_nil, List.takeWhile_eq_self_iff.2 hfraction, List.dropWhile_eq_nil_iff.2 hfraction,
    List.isEmpty_eq_false_iff.2 hne, Bool.false_and, readExponent?, Option.map_some,
    digitsValue_append, Int.zero_sub]

/-- A written number becomes the double nearest to it. -/
theorem read?_chars (n : WrittenNumber) :
    binary64.read? n.chars =
      some (binary64.ofScientific false ⟨n.mantissa, -(n.places : Int)⟩) := by
  have hread : readScientific? n.chars = some ⟨n.mantissa, -(n.places : Int)⟩ := by
    rw [WrittenNumber.chars, WrittenNumber.mantissa, WrittenNumber.places]
    by_cases hempty : n.fraction = []
    · rw [hempty, List.append_nil]
      exact (congrArg readScientific? (List.append_nil _)).trans
        (readScientific?_digits n.whole.ne_nil n.whole.isDigit)
    · rw [pointed_of_ne_nil hempty]
      exact readScientific?_point n.whole.ne_nil n.whole.isDigit n.isDigit_fraction
  obtain ⟨c, rest, hwhole⟩ := List.exists_cons_of_ne_nil n.whole.ne_nil
  have hdigit : c.isDigit = true := n.whole.isDigit c (hwhole ▸ List.mem_cons_self)
  have hchars : n.chars = c :: (rest ++ pointed n.fraction) := by
    rw [WrittenNumber.chars, hwhole, List.cons_append]
  rw [hchars] at hread ⊢
  rw [read?_of_isDigit _ hdigit, hread, Option.map_some]

end Number

namespace Duration

/-! ## The double nearest to the seconds -/

/-- A decimal number of seconds has a double near it. -/
theorem ofScientific_near (hnum : 0 < num) (hplaces : places ≤ 9)
    (hsmall : num < 10 ^ places * 2 ^ (33 : Nat)) :
    ∃ m k, Full m ∧ 3 ≤ k ∧ k ≤ 152 ∧ Near num (10 ^ places) m k ∧
      binary64.ofScientific false ⟨num, -(places : Int)⟩ = .finite false m (-(k : Int)) := by
  have hden : 0 < 10 ^ places := Nat.pow_pos (by decide)
  have hdenLe : 10 ^ places ≤ 10 ^ (9 : Nat) := Nat.pow_le_pow_right (by decide) hplaces
  obtain ⟨m, k, hm, hkPos, hkLe, hnear, hbits⟩ :=
    magnitudeBits_near hnum hden
      (hdenLe.trans ((by decide : 10 ^ (9 : Nat) ≤ 2 ^ (100 : Nat)).trans
        (Nat.le_mul_of_pos_left _ hnum)))
      (hsmall.trans (Nat.mul_lt_mul_of_pos_left (by decide) hden))
  obtain ⟨habove, hbelow⟩ := hnear
  obtain ⟨hmLow, hmHigh⟩ := hm
  have hk : 3 ≤ k := by
    by_contra hlt
    have hunit : 2 ^ k ≤ 2 ^ (2 : Nat) := Nat.pow_le_pow_right (by decide) (by omega)
    have hscaled : num * 2 ^ k ≤ 10 ^ places * 2 ^ (33 : Nat) * 2 ^ (2 : Nat) :=
      Nat.mul_le_mul hsmall.le hunit
    have hfull : 2 ^ (52 : Nat) * 10 ^ places ≤ m * 10 ^ places := Nat.mul_le_mul_right _ hmLow
    omega
  have hk' : k ≤ 152 := by
    by_contra hgt
    obtain rfl : k = 153 := by omega
    have hscaled : 1 * 2 ^ (153 : Nat) ≤ num * 2 ^ (153 : Nat) := Nat.mul_le_mul_right _ hnum
    have hfull : m * 10 ^ places ≤ 2 ^ (53 : Nat) * 10 ^ (9 : Nat) :=
      Nat.mul_le_mul hmHigh.le hdenLe
    omega
  refine ⟨m, k, ⟨hmLow, hmHigh⟩, hk, hk', ⟨habove, hbelow⟩, ?_⟩
  have hlength : (digits num).length ≤ 19 := length_digits_le (by omega) (by decide)
  have hview : binary64.view (binary64.ratioBits false num (10 ^ places)) =
      .finite false m (-(k : Int)) := by
    have hratio : binary64.ratioBits false num (10 ^ places) = fullBits m (-(k : Int)) :=
      (Nat.zero_add _).trans hbits
    rw [hratio]
    exact view_fullBits ⟨hmLow, hmHigh⟩ ⟨by omega, by omega⟩
  have hrange : decimalRange = 400 := rfl
  unfold FloatFormat.ofScientific
  simp only [hrange, Int.neg_neg, Int.toNat_natCast]
  rw [if_neg, if_neg]
  · split
    · exact hview
    · obtain rfl : places = 0 := by omega
      simpa using hview
  · omega
  · simp only [Bool.or_eq_true, beq_iff_eq, decide_eq_true_eq]
    omega

/-- Below 2^22 seconds the double has 31 bits or more behind the point. -/
theorem place_ge (hm : Full m) (hplaces : places ≤ 9) (hnear : Near num (10 ^ places) m k)
    (hsmall : num < 10 ^ places * 2 ^ (22 : Nat)) : 31 ≤ k := by
  by_contra hlt
  have hden : 10 ^ places ≤ 10 ^ (9 : Nat) := Nat.pow_le_pow_right (by decide) hplaces
  have hunit : 2 ^ k ≤ 2 ^ (30 : Nat) := Nat.pow_le_pow_right (by decide) (by omega)
  have hscaled : num * 2 ^ k ≤ (10 ^ places * 2 ^ (22 : Nat) - 1) * 2 ^ (30 : Nat) :=
    Nat.mul_le_mul (by omega) hunit
  have hfull : 2 ^ (52 : Nat) * 10 ^ places ≤ m * 10 ^ places := Nat.mul_le_mul_right _ hm.low
  have habove := hnear.above
  omega

/-! ## Nanoseconds -/

/-- Less than 2^22 seconds, or a whole number of them that is not above 4611686018. -/
def Exact (num places : Nat) : Prop :=
  num < 10 ^ places * 2 ^ (22 : Nat) ∨ ∃ n ≤ 4611686018, num = n * 10 ^ places

theorem Exact.lt (h : Exact num places) : num < 10 ^ places * 2 ^ (33 : Nat) := by
  have hpos : 0 < 10 ^ places := Nat.pow_pos (by decide)
  rcases h with hsmall | ⟨n, hn, rfl⟩
  · exact hsmall.trans (Nat.mul_lt_mul_of_pos_left (by decide) hpos)
  · have hlt : n < 2 ^ (33 : Nat) := by omega
    rw [Nat.mul_comm]
    exact Nat.mul_lt_mul_of_pos_left hlt hpos

theorem pow_places (hplaces : places ≤ 9) : 10 ^ places * 10 ^ (9 - places) = 1000000000 := by
  rw [← Nat.pow_add, Nat.add_sub_cancel' hplaces]

/-- The nanoseconds have 63 bits. -/
theorem Exact.nanos_lt (h : Exact num places) (hplaces : places ≤ 9) :
    num * 10 ^ (9 - places) < 2 ^ (63 : Nat) := by
  have hlt : num * 10 ^ (9 - places) < 10 ^ places * 2 ^ (33 : Nat) * 10 ^ (9 - places) :=
    Nat.mul_lt_mul_of_pos_right h.lt (Nat.pow_pos (by decide))
  rw [Nat.mul_right_comm, pow_places hplaces] at hlt
  omega

/-- The nanoseconds, over the unit of the double. -/
theorem near_nanos (hplaces : places ≤ 9) (hnear : Near num (10 ^ places) m k) :
    2 * (m * 1000000000) ≤ 2 * (num * 10 ^ (9 - places) * 2 ^ k) + 1000000000 ∧
      2 * (num * 10 ^ (9 - places) * 2 ^ k) ≤ 2 * (m * 1000000000) + 1000000000 := by
  have hunits := pow_places hplaces
  have hmul {a b : Nat} (h : a ≤ b) : a * 10 ^ (9 - places) ≤ b * 10 ^ (9 - places) :=
    Nat.mul_le_mul_right _ h
  have habove := hmul hnear.above
  have hbelow := hmul hnear.below
  have hfull : 2 * (m * 10 ^ places) * 10 ^ (9 - places) = 2 * (m * 1000000000) := by
    rw [← hunits]
    ring
  rw [Nat.add_mul, hunits, hfull] at habove hbelow
  constructor <;> linarith

/-- Below 2^22 seconds the two roundings, of the seconds and of the product, miss the nanoseconds by
less than a half. -/
theorem product_near_of_lt {r t u : Nat} (hm : Full m) (hplaces : places ≤ 9)
    (hnear : Near num (10 ^ places) m k) (hsmall : num < 10 ^ places * 2 ^ (22 : Nat))
    (hproduct : NearProduct (m * billion) r t u) :
    2 * (num * 10 ^ (9 - places) * 2 ^ (k + 23)) ≤ 2 * (r * 2 ^ t) + 2 ^ (k + 23) ∧
      2 * (r * 2 ^ t) < 2 * (num * 10 ^ (9 - places) * 2 ^ (k + 23)) + 2 ^ (k + 23) := by
  have hbillion : m * billion = m * 1000000000 * 2 ^ (23 : Nat) := by rw [billion, Nat.mul_assoc]
  obtain ⟨hlow, hhigh⟩ := near_nanos hplaces hnear
  have habove := hproduct.above
  have hbelow := hproduct.below
  have hkUnit : 2 ^ (31 : Nat) ≤ 2 ^ k :=
    Nat.pow_le_pow_right (by decide) (place_ge hm hplaces hnear hsmall)
  have huUnit : 2 ^ u ≤ 2 ^ (53 : Nat) := Nat.pow_le_pow_right (by decide) hproduct.unit_high
  rw [hbillion] at habove hbelow
  rw [Nat.pow_add 2 k 23, ← Nat.mul_assoc (num * 10 ^ (9 - places))]
  constructor <;> linarith

/-- Whole seconds are not rounded, and neither is the product as long as its odd part fits. -/
theorem product_of_whole {r t u n : Nat} (hplaces : places ≤ 9) (hn : n ≤ 4611686018)
    (hnear : Near (n * 10 ^ places) (10 ^ places) m k)
    (hproduct : NearProduct (m * billion) r t u) :
    r * 2 ^ t = n * 10 ^ places * 10 ^ (9 - places) * 2 ^ (k + 23) := by
  have hswap : n * 10 ^ places * 2 ^ k = n * 2 ^ k * 10 ^ places := Nat.mul_right_comm _ _ _
  obtain ⟨habove, hbelow⟩ := hnear
  rw [hswap] at habove hbelow
  obtain rfl : m = n * 2 ^ k := eq_of_mul_near (Nat.pow_pos (by decide)) habove hbelow
  have hodd : n * 2 ^ k * billion = n * 1953125 * 2 ^ (k + 32) := by
    rw [billion, Nat.pow_add]
    ring
  calc r * 2 ^ t = n * 2 ^ k * billion := hproduct.eq hodd (by omega)
    _ = n * 1000000000 * 2 ^ (k + 23) := by
      rw [billion, Nat.pow_add]
      ring
    _ = n * 10 ^ places * 10 ^ (9 - places) * 2 ^ (k + 23) := by
      rw [Nat.mul_assoc n (10 ^ places), pow_places hplaces]

/-- The product of the double and a billion misses the nanoseconds by less than a half. -/
theorem product_near {r t u : Nat} (hm : Full m) (hplaces : places ≤ 9)
    (hnear : Near num (10 ^ places) m k) (hexact : Exact num places)
    (hproduct : NearProduct (m * billion) r t u) :
    2 * (num * 10 ^ (9 - places) * 2 ^ (k + 23)) ≤ 2 * (r * 2 ^ t) + 2 ^ (k + 23) ∧
      2 * (r * 2 ^ t) < 2 * (num * 10 ^ (9 - places) * 2 ^ (k + 23)) + 2 ^ (k + 23) := by
  rcases hexact with hsmall | ⟨n, hn, rfl⟩
  · exact product_near_of_lt hm hplaces hnear hsmall hproduct
  · have hpos : 0 < 2 ^ (k + 23) := Nat.two_pow_pos _
    rw [product_of_whole hplaces hn hnear hproduct]
    constructor <;> omega

/-- Seconds with at most nine digits behind the point are read to the nanosecond. -/
theorem secondsPart?_eq (hplaces : places ≤ 9) (hexact : Exact num places)
    (hread : binary64.read? number = some (binary64.ofScientific false ⟨num, -(places : Int)⟩)) :
    secondsPart? number = ofNanos? (num * 10 ^ (9 - places) : Nat) := by
  obtain ⟨x, hx, habs, m, e, hwhole, hvalue⟩ : ∃ x : Float,
      doubleOf (binary64.ofScientific false ⟨num, -(places : Int)⟩) * 1e9 = x ∧
      x.abs < 9223372036854775808.0 ∧
      ∃ m e, (doubleView x).toWhole .nearest = .finite false m e ∧
        m * 2 ^ e.toNat = num * 10 ^ (9 - places) := by
    refine ⟨_, rfl, ?_⟩
    rcases Nat.eq_zero_or_pos num with rfl | hnum
    · have hzero : binary64.ofScientific false ⟨0, -(places : Int)⟩ = .finite false 0 (-1074) := by
        unfold FloatFormat.ofScientific
        rfl
      rw [Nat.zero_mul, hzero]
      exact ⟨by decide +kernel, 0, 0, by decide +kernel, rfl⟩
    · obtain ⟨m, k, hm, hkLow, hkHigh, hnear, hview⟩ :=
        ofScientific_near hnum hplaces hexact.lt
      obtain ⟨r, t, u, hr, hproduct, hmodel⟩ := toModel_billionfold hm hkLow hkHigh
      obtain ⟨hlow, hhigh⟩ := product_near hm hplaces hnear hexact hproduct
      rw [hview]
      have ht : t ≤ 54 := hproduct.shift_high.trans (Nat.add_le_add_right hproduct.unit_high 1)
      exact toWhole_near hproduct.full hr (by omega) ht hmodel hlow hhigh (hexact.nanos_lt hplaces)
  unfold secondsPart?
  rw [hread, Option.bind_some]
  dsimp only
  rw [hx, hwhole]
  simp only [habs, if_true, hvalue]
  simp

/-- The nanoseconds of a number of seconds with at most nine digits behind the point. -/
def nanosOf (n : WrittenNumber) : Nat := n.mantissa * 10 ^ (9 - n.places)

theorem nanosOf_eq {n : WrittenNumber} (hplaces : n.places ≤ 9) :
    (nanosOf n : ℚ) = n.value * 1000000000 := by
  have hunit : (10 : ℚ) ^ n.places ≠ 0 := by positivity
  have hunits : (10 : ℚ) ^ n.places * 10 ^ (9 - n.places) = 1000000000 := by
    exact_mod_cast pow_places hplaces
  rw [nanosOf, WrittenNumber.value, ← hunits]
  push_cast
  field_simp

/-- Seconds that are read to the nanosecond: with nine digits behind the point at most, fewer than
2^22 or a whole number up to 4611686018. -/
structure ExactSeconds (n : WrittenNumber) : Prop where
  places_le : n.places ≤ 9
  bounded : n.value < 2 ^ (22 : Nat) ∨ n.value ≤ 4611686018 ∧ ∃ k : ℕ, n.value = k

theorem ExactSeconds.exact {n : WrittenNumber} (h : ExactSeconds n) :
    Exact n.mantissa n.places := by
  have hunit : (0 : ℚ) < 10 ^ n.places := by positivity
  rcases h.bounded with hsmall | ⟨hle, k, hk⟩
  · rw [WrittenNumber.value, div_lt_iff₀ hunit] at hsmall
    refine .inl ?_
    rw [Nat.mul_comm]
    exact_mod_cast hsmall
  · rw [hk] at hle
    rw [WrittenNumber.value, div_eq_iff hunit.ne'] at hk
    exact .inr ⟨k, by exact_mod_cast hle, by exact_mod_cast hk⟩

theorem secondsPart?_chars {n : WrittenNumber} (h : ExactSeconds n) :
    secondsPart? n.chars = ofNanos? (nanosOf n : Nat) :=
  secondsPart?_eq h.places_le h.exact (read?_chars n)

end Duration

end EntityQuery
