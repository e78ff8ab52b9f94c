import EntityQuery.Proofs.Number.PaddedDigits
import Mathlib.Data.Rat.Cast.Order
import Mathlib.Tactic.FieldSimp
import Mathlib.Tactic.Positivity

/-!
# Numbers as they are written

Literals write a number with digits, and behind a point with more of them.  There is no limit to
either run, so such a text denotes a number long before anything can say whether it has room for it.
Leaving out the last digits behind the point makes the number smaller, by less than a unit of the
last digit that stays.
-/

namespace EntityQuery

open Number

/-- One or more digits. -/
structure DigitRun where
  chars : List Char
  ne_nil : chars ≠ []
  isDigit : ∀ c ∈ chars, c.isDigit = true

/-- The number that is written. -/
def DigitRun.value (r : DigitRun) : Nat := digitsValue 0 r.chars

/-- The digits of a number. -/
def DigitRun.ofNat (n : Nat) : DigitRun :=
  ⟨digits n, digits_ne_nil n, fun _ => isDigit_of_mem_digits⟩

theorem DigitRun.value_ofNat (n : Nat) : (ofNat n).value = n := digitsValue_digits n

/-- A number as it is written, without a sign: digits, and behind a point more of them.  Without any
of those there is no point either. -/
structure WrittenNumber where
  whole : DigitRun
  fraction : List Char
  isDigit_fraction : ∀ c ∈ fraction, c.isDigit = true

namespace WrittenNumber

variable (n : WrittenNumber) {k : Nat}

/-- The characters of the number. -/
def chars : List Char := n.whole.chars ++ pointed n.fraction

/-- How many digits stand behind the point. -/
def places : Nat := n.fraction.length

/-- What all digits denote without the point. -/
def mantissa : Nat := digitsValue 0 (n.whole.chars ++ n.fraction)

/-- The number that is written. -/
def value : ℚ := n.mantissa / 10 ^ n.places

/-- The number with a minus before it, or without one. -/
def signedValue (negative : Bool) : ℚ := if negative then -n.value else n.value

/-- What the digits up to a place behind the point denote, without the point. -/
def upTo (k : Nat) : Nat := digitsValue 0 (n.whole.chars ++ n.fraction.take k)

theorem mem_chars {c : Char} (hc : c ∈ n.chars) : c.isDigit = true ∨ c = '.' := by
  rcases List.mem_append.1 hc with hc | hc
  · exact .inl (n.whole.isDigit c hc)
  · rcases mem_pointed hc with hc | hc
    · exact .inr hc
    · exact .inl (n.isDigit_fraction c hc)

theorem value_nonneg : 0 ≤ n.value := by
  unfold value
  positivity

theorem value_mul_pow : n.value * 10 ^ n.places = n.mantissa := by
  have hunit : (10 : ℚ) ^ n.places ≠ 0 := by positivity
  rw [value, div_mul_cancel₀ _ hunit]

theorem upTo_zero : n.upTo 0 = n.whole.value := by
  rw [upTo, List.take_zero, List.append_nil, DigitRun.value]

theorem upTo_places : n.upTo n.places = n.mantissa := by
  rw [upTo, places, List.take_length, mantissa]

/-- The next place has one digit more. -/
theorem upTo_succ (hk : k < n.fraction.length) :
    n.upTo (k + 1) = n.upTo k * 10 + (n.fraction[k].toNat - 48) := by
  rw [upTo, upTo, ← List.take_append_getElem hk, ← List.append_assoc, digitsValue_append,
    digitsValue_cons, digitsValue_nil]

/-- The digits up to a place are those of the number without the last ones. -/
theorem mantissa_eq (k : Nat) :
    n.mantissa = n.upTo k * 10 ^ (n.places - k) + digitsValue 0 (n.fraction.drop k) := by
  have hlength : (n.fraction.drop k).length = n.places - k := List.length_drop
  rw [mantissa, ← List.take_append_drop k n.fraction, ← List.append_assoc, digitsValue_append,
    digitsValue_eq, hlength, List.take_append_drop]
  rfl

/-- Without its last digits the number is smaller, by less than a unit of the last that stays. -/
theorem upTo_bounds (hk : k ≤ n.places) :
    (n.upTo k : ℚ) ≤ n.value * 10 ^ k ∧ n.value * 10 ^ k < n.upTo k + 1 := by
  have hrest : digitsValue 0 (n.fraction.drop k) < 10 ^ (n.places - k) := by
    have hlt : digitsValue 0 (n.fraction.drop k) < 10 ^ (n.fraction.drop k).length :=
      digitsValue_lt fun c hc => n.isDigit_fraction c (List.mem_of_mem_drop hc)
    rwa [List.length_drop] at hlt
  have hunit : (0 : ℚ) < 10 ^ (n.places - k) := by positivity
  have hpow : (10 : ℚ) ^ n.places = 10 ^ k * 10 ^ (n.places - k) := by
    rw [← pow_add, Nat.add_sub_cancel' hk]
  have hvalue : n.value * 10 ^ k = n.mantissa / 10 ^ (n.places - k) := by
    rw [value, hpow]
    field_simp
  rw [hvalue, le_div_iff₀ hunit, div_lt_iff₀ hunit]
  constructor
  · exact_mod_cast (n.mantissa_eq k).symm ▸ Nat.le_add_right _ _
  · have hlt : n.mantissa < (n.upTo k + 1) * 10 ^ (n.places - k) := by
      rw [n.mantissa_eq k, Nat.add_mul, Nat.one_mul]
      exact Nat.add_lt_add_left hrest _
    exact_mod_cast hlt

end WrittenNumber

end EntityQuery
