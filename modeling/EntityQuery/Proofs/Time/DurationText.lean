import EntityQuery.Proofs.Time.Periods

/-!
# Durations as they are written

The text of a duration is a period without the components that are zero.  It has less than a minute
of seconds, so it is read to the nanosecond, and gives the duration that was written.
-/

namespace EntityQuery.Duration

open Number

variable {c : Char} {n hours minutes seconds nanos : Nat}

/-! ## Components -/

/-- A number of days, hours or minutes, unless it is zero. -/
def count? (n : Nat) : Option DigitRun := if n > 0 then some (.ofNat n) else none

theorem value_count? (n : Nat) : (count? n).elim 0 DigitRun.value = n := by
  unfold count?
  split
  · exact DigitRun.value_ofNat n
  · rw [Option.elim_none]
    omega

theorem toList_component (n : Nat) (c : Char) :
    (component n (String.singleton c)).toList = withUnit c ((count? n).map DigitRun.chars) := by
  unfold component count?
  split
  · rw [String.toList_append, ← digits_eq_toString, String.toList_singleton]
    rfl
  · rfl

/-! ## Seconds -/

theorem isDigit_of_mem_fractionDigits (hc : c ∈ fractionDigits nanos) : c.isDigit = true :=
  isDigit_of_mem_paddedDigits ((stripZeros_sublist _).subset hc)

/-- The digits of a fraction, with the zeros that were left out, are nine. -/
theorem digitsValue_fractionDigits (hnanos : nanos < 10 ^ (9 : Nat)) :
    (fractionDigits nanos).length ≤ 9 ∧
      digitsValue 0 (fractionDigits nanos) * 10 ^ (9 - (fractionDigits nanos).length) = nanos := by
  have hfraction : fractionDigits nanos = stripZeros (paddedDigits 9 nanos) := rfl
  have hlength := length_paddedDigits hnanos (by decide)
  have hplaces := (stripZeros_sublist (paddedDigits 9 nanos)).length_le
  have hvalue := digitsValue_stripZeros 0 (paddedDigits 9 nanos)
  rw [hlength] at hplaces hvalue
  rw [digitsValue_paddedDigits] at hvalue
  rw [hfraction]
  exact ⟨hplaces, hvalue⟩

/-- The seconds of a time below a day, unless they are left out. -/
def secondsText (hours minutes seconds nanos : Nat) : String :=
  if nanos > 0 then toString seconds ++ "." ++ String.ofList (fractionDigits nanos) ++ "S"
  else if seconds > 0 || (hours == 0 && minutes == 0) then toString seconds ++ "S"
  else ""

theorem timeText_eq (hours minutes seconds nanos : Nat) :
    timeText hours minutes seconds nanos =
      component hours "H" ++ component minutes "M" ++ secondsText hours minutes seconds nanos := rfl

/-- Seconds are written in one of two forms, and they are left out only where there is an hour or a
minute. -/
theorem secondsText_cases (hours minutes seconds nanos : Nat) :
    (0 < nanos ∧ (secondsText hours minutes seconds nanos).toList =
        (digits seconds ++ '.' :: fractionDigits nanos) ++ ['S']) ∨
      (nanos = 0 ∧ (secondsText hours minutes seconds nanos).toList = digits seconds ++ ['S']) ∨
      (nanos = 0 ∧ seconds = 0 ∧ (0 < hours ∨ 0 < minutes) ∧
        (secondsText hours minutes seconds nanos).toList = []) := by
  unfold secondsText
  split
  · rename_i hnanos
    exact .inl ⟨hnanos, by simp [String.toList_append, digits_eq_toString]⟩
  · split
    · exact .inr (.inl ⟨by omega, by simp [String.toList_append, digits_eq_toString]⟩)
    · rename_i hleft
      simp only [Bool.or_eq_true, Bool.and_eq_true, decide_eq_true_eq, beq_iff_eq] at hleft
      exact .inr (.inr ⟨by omega, by omega, by omega, rfl⟩)

theorem fractionDigits_ne_nil (hpos : 0 < nanos) (hnanos : nanos < 10 ^ (9 : Nat)) :
    fractionDigits nanos ≠ [] := by
  intro hnil
  have hvalue := (digitsValue_fractionDigits hnanos).2
  rw [hnil, digitsValue_nil, Nat.zero_mul] at hvalue
  omega

/-- Seconds and their fraction as a number. -/
def secondsOf (seconds nanos : Nat) : WrittenNumber :=
  ⟨.ofNat seconds, fractionDigits nanos, fun _ => isDigit_of_mem_fractionDigits⟩

/-- The seconds of a time, unless they are left out. -/
def seconds? (hours minutes seconds nanos : Nat) : Option WrittenNumber :=
  if nanos > 0 || seconds > 0 || (hours == 0 && minutes == 0) then some (secondsOf seconds nanos)
  else none

theorem toList_secondsText (hours minutes seconds : Nat) (hnanos : nanos < 10 ^ (9 : Nat)) :
    (secondsText hours minutes seconds nanos).toList =
      withUnit 'S' ((seconds? hours minutes seconds nanos).map WrittenNumber.chars) := by
  have hchars : (secondsOf seconds nanos).chars =
      digits seconds ++ pointed (fractionDigits nanos) := rfl
  unfold secondsText seconds?
  rcases Nat.eq_zero_or_pos nanos with rfl | hpos
  · have hnone : pointed (fractionDigits 0) = [] := by decide
    simp only [gt_iff_lt, Nat.lt_irrefl, decide_false, Bool.false_or, if_false]
    split
    · rw [Option.map_some, hchars, hnone, List.append_nil, String.toList_append,
        ← digits_eq_toString]
      rfl
    · rfl
  · have hpoint := pointed_of_ne_nil (fractionDigits_ne_nil hpos hnanos)
    rw [if_pos hpos, if_pos (by simp [hpos]), Option.map_some, hchars, hpoint]
    simp [withUnit, String.toList_append, digits_eq_toString]

theorem nanosOf_secondsOf (seconds : Nat) (hnanos : nanos < 10 ^ (9 : Nat)) :
    nanosOf (secondsOf seconds nanos) = seconds * 1000000000 + nanos := by
  obtain ⟨hplaces, hvalue⟩ := digitsValue_fractionDigits hnanos
  have hmantissa : (secondsOf seconds nanos).mantissa =
      seconds * 10 ^ (fractionDigits nanos).length + digitsValue 0 (fractionDigits nanos) := by
    show digitsValue 0 (digits seconds ++ fractionDigits nanos) = _
    rw [digitsValue_append, digitsValue_digits, digitsValue_eq]
  have hunits := pow_places hplaces
  show (secondsOf seconds nanos).mantissa * 10 ^ (9 - (fractionDigits nanos).length) = _
  rw [hmantissa, Nat.add_mul, Nat.mul_assoc, hunits, hvalue]

/-- Less than a minute of seconds is read to the nanosecond. -/
theorem exactSeconds_secondsOf (hseconds : seconds < 60) (hnanos : nanos < 10 ^ (9 : Nat)) :
    ExactSeconds (secondsOf seconds nanos) := by
  refine ⟨(digitsValue_fractionDigits hnanos).1, .inl ?_⟩
  have hlt := ((secondsOf seconds nanos).upTo_bounds (Nat.zero_le _)).2
  have hwhole : (secondsOf seconds nanos).upTo 0 = seconds :=
    (WrittenNumber.upTo_zero _).trans (DigitRun.value_ofNat seconds)
  have hcast : (seconds : ℚ) < 60 := by exact_mod_cast hseconds
  rw [hwhole, pow_zero, mul_one] at hlt
  norm_num
  linarith

/-! ## Times and spans -/

/-- The time of a day that is written. -/
def clockOf (hours minutes seconds nanos : Nat) : Clock where
  hours := count? hours
  minutes := count? minutes
  seconds := seconds? hours minutes seconds nanos
  nonempty := by
    unfold count? seconds?
    split <;> split <;> split <;> simp_all

theorem toList_timeText (hours minutes seconds : Nat) (hnanos : nanos < 10 ^ (9 : Nat)) :
    (timeText hours minutes seconds nanos).toList =
      (clockOf hours minutes seconds nanos).chars := by
  have hH : "H" = String.singleton 'H' := rfl
  have hM : "M" = String.singleton 'M' := rfl
  rw [timeText_eq, String.toList_append, String.toList_append, hH, hM, toList_component,
    toList_component, toList_secondsText hours minutes seconds hnanos, List.append_assoc]
  rfl

theorem nanos_clockOf (hours minutes seconds : Nat) (hnanos : nanos < 10 ^ (9 : Nat)) :
    (clockOf hours minutes seconds nanos).nanos =
      (hours * 3600 + minutes * 60 + seconds) * 1000000000 + nanos := by
  have hseconds : (seconds? hours minutes seconds nanos).elim 0 nanosOf =
      seconds * 1000000000 + nanos := by
    unfold seconds?
    split
    · exact nanosOf_secondsOf seconds hnanos
    · rename_i hleft
      simp only [Bool.or_eq_true, Bool.and_eq_true, decide_eq_true_eq, beq_iff_eq] at hleft
      rw [Option.elim_none]
      omega
  show (count? hours).elim 0 DigitRun.value * 3600 * 1000000000 +
    (count? minutes).elim 0 DigitRun.value * 60 * 1000000000 +
      (seconds? hours minutes seconds nanos).elim 0 nanosOf = _
  rw [value_count?, value_count?, hseconds]
  omega

/-- The period that is written. -/
def periodOf (negative : Bool) (nanos : Nat) : Period where
  negative := negative
  days := count? (nanos / 1000000000 / 86400)
  clock :=
    let total := nanos / 1000000000
    if total / 3600 % 24 > 0 || total / 60 % 60 > 0 || total % 60 > 0 ||
        nanos % 1000000000 > 0 || total / 86400 == 0 then
      some (clockOf (total / 3600 % 24) (total / 60 % 60) (total % 60) (nanos % 1000000000))
    else none
  nonempty := by
    unfold count?
    dsimp only
    split
    · rfl
    · split
      · rfl
      · rename_i hdays hleft
        simp only [Bool.or_eq_true, decide_eq_true_eq, beq_iff_eq] at hleft
        omega

theorem toList_magnitudeText (negative : Bool) (n : Nat) :
    (magnitudeText n).toList = (periodOf negative n).magnitude := by
  have hrest : n % 1000000000 < 10 ^ (9 : Nat) := Nat.mod_lt _ (by decide)
  have hD : "D" = String.singleton 'D' := rfl
  have hP : "P".toList = ['P'] := rfl
  have hT : "T".toList = ['T'] := rfl
  unfold magnitudeText periodOf Period.magnitude
  dsimp only
  rw [String.toList_append, String.toList_append, hP, hD, toList_component, List.append_assoc,
    List.singleton_append]
  split
  · rw [String.toList_append, hT, toList_timeText _ _ _ hrest]
    rfl
  · rfl

theorem nanos_periodOf (negative : Bool) (n : Nat) : (periodOf negative n).nanos = n := by
  have hrest : n % 1000000000 < 10 ^ (9 : Nat) := Nat.mod_lt _ (by decide)
  unfold periodOf Period.nanos
  dsimp only
  rw [value_count?]
  split
  · rw [Option.elim_some, nanos_clockOf _ _ _ hrest]
    omega
  · rename_i hleft
    simp only [Bool.or_eq_true, decide_eq_true_eq, beq_iff_eq] at hleft
    rw [Option.elim_none]
    omega

theorem exactSeconds_periodOf (negative : Bool) (n : Nat) :
    (periodOf negative n).ExactSeconds := by
  have hseconds : n / 1000000000 % 60 < 60 := Nat.mod_lt _ (by decide)
  have hrest : n % 1000000000 < 10 ^ (9 : Nat) := Nat.mod_lt _ (by decide)
  intro c hc s hs
  unfold periodOf at hc
  dsimp only at hc
  split at hc
  · obtain rfl := Option.some.inj hc
    unfold clockOf seconds? at hs
    dsimp only at hs
    split at hs
    · obtain rfl := Option.some.inj hs
      exact exactSeconds_secondsOf hseconds hrest
    · cases hs
  · cases hc

/-- The text of a span is that of its period. -/
theorem toList_text (d : Duration) :
    d.text.toList = (periodOf (decide (d.nanos < 0)) d.nanos.natAbs).chars := by
  have hmagnitude := toList_magnitudeText (decide (d.nanos < 0)) d.nanos.natAbs
  have hnegative : (periodOf (decide (d.nanos < 0)) d.nanos.natAbs).negative =
      decide (d.nanos < 0) := rfl
  rw [text, String.toList_append, hmagnitude, Period.chars, hnegative]
  by_cases hlt : d.nanos < 0
  · simp [hlt]
  · simp [hlt]

theorem exists_magnitudeText (n : Nat) : ∃ rest, (magnitudeText n).toList = 'P' :: rest :=
  ⟨_, toList_magnitudeText false n⟩

/-- A span is read back from its text. -/
theorem ofChars?_text (d : Duration) : ofChars? d.text.toList = some d := by
  have hmem := d.nanos_mem
  rw [toList_text, ofChars?_chars _ (exactSeconds_periodOf _ _), nanos_periodOf]
  have hspan : (if (periodOf (decide (d.nanos < 0)) d.nanos.natAbs).negative then
      -(d.nanos.natAbs : Int) else d.nanos.natAbs) = d.nanos := by
    show (if decide (d.nanos < 0) = true then _ else _) = _
    split
    · rename_i hlt
      have hlt := of_decide_eq_true hlt
      omega
    · rename_i hge
      have hge := of_decide_eq_false (Bool.eq_false_iff.2 hge)
      omega
  rw [hspan]
  exact dif_pos hmem

end EntityQuery.Duration
