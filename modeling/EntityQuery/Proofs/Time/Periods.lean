import EntityQuery.Proofs.Time.Seconds

/-!
# Periods

A period is written as a number of days and a time of hours, minutes and seconds, each of which may
be missing, though not all of them.  It is read component by component.  What has been read so far
is the sum of the components, and once that is too long it stays so, because components only add to
it.  So a period is read exactly where its sum is in range, and as this sum, provided that the
seconds are among those a double does no harm to.
-/

namespace EntityQuery

open Number

/-! ## How periods are written -/

/-- A time of hours, minutes and seconds, at least one of them. -/
structure Clock where
  hours : Option DigitRun
  minutes : Option DigitRun
  seconds : Option WrittenNumber
  nonempty : (hours.isSome || minutes.isSome || seconds.isSome) = true

/-- Days and a time, or one of them, with or without a minus before it. -/
structure Period where
  negative : Bool
  days : Option DigitRun
  clock : Option Clock
  nonempty : (days.isSome || clock.isSome) = true

/-- A number with its unit, or nothing. -/
def withUnit (unit : Char) : Option (List Char) → List Char
  | none => []
  | some number => number ++ [unit]

namespace Clock

variable (c : Clock)

def chars : List Char :=
  withUnit 'H' (c.hours.map DigitRun.chars) ++ (withUnit 'M' (c.minutes.map DigitRun.chars) ++
    withUnit 'S' (c.seconds.map WrittenNumber.chars))

/-- The length in seconds. -/
def length : ℚ :=
  c.hours.elim 0 DigitRun.value * 3600 + c.minutes.elim 0 DigitRun.value * 60 +
    c.seconds.elim 0 WrittenNumber.value

/-- The length in nanoseconds, for seconds with at most nine digits behind the point. -/
def nanos : Nat :=
  c.hours.elim 0 DigitRun.value * 3600 * 1000000000 +
    c.minutes.elim 0 DigitRun.value * 60 * 1000000000 + c.seconds.elim 0 Duration.nanosOf

end Clock

namespace Period

variable (p : Period)

/-- The characters without the sign. -/
def magnitude : List Char :=
  'P' :: (withUnit 'D' (p.days.map DigitRun.chars) ++ p.clock.elim [] fun c => 'T' :: c.chars)

def chars : List Char := if p.negative then '-' :: p.magnitude else p.magnitude

/-- The length in seconds, without the sign. -/
def length : ℚ := p.days.elim 0 DigitRun.value * 86400 + p.clock.elim 0 Clock.length

/-- The span in seconds. -/
def seconds : ℚ := if p.negative then -p.length else p.length

/-- The length in nanoseconds, for seconds with at most nine digits behind the point. -/
def nanos : Nat := p.days.elim 0 DigitRun.value * 86400 * 1000000000 + p.clock.elim 0 Clock.nanos

/-- The seconds of the period, if it has any, are read to the nanosecond. -/
def ExactSeconds : Prop := ∀ c ∈ p.clock, ∀ s ∈ c.seconds, Duration.ExactSeconds s

end Period

namespace Duration

variable {number whole rest : List Char} {c : Char} {n x y : Nat}
  {inTime sawPart sawTimePart : Bool} {part : Part}

/-! ## Spans that are not negative -/

/-- A span that is not negative. -/
def ofNat (n : Nat) (h : n ≤ maxDurationNanos) : Duration :=
  ⟨n, by
    have hpos : 0 ≤ maxDurationNanos := by decide
    omega⟩

theorem ofNanos?_eq_some (h : n ≤ maxDurationNanos) : ofNanos? n = some (ofNat n h) := by
  have hmem : -maxDurationNanos ≤ (n : Int) ∧ (n : Int) ≤ maxDurationNanos := (ofNat n h).nanos_mem
  rw [ofNanos?, dif_pos hmem]
  rfl

theorem ofNanos?_eq_none (h : ¬n ≤ maxDurationNanos) : ofNanos? n = none :=
  dif_neg fun hmem => h hmem.2

/-- A sum is too long where one of its parts is. -/
theorem bind_add? (x y : Nat) :
    (ofNanos? x).bind (fun total => (ofNanos? y).bind total.add?) = ofNanos? (x + y : Nat) := by
  by_cases hx : x ≤ maxDurationNanos
  · by_cases hy : y ≤ maxDurationNanos
    · rw [ofNanos?_eq_some hx, ofNanos?_eq_some hy]
      rfl
    · have hsum : ¬((x + y : Nat) : Int) ≤ maxDurationNanos := by omega
      rw [ofNanos?_eq_none hy, ofNanos?_eq_none hsum, ofNanos?_eq_some hx]
      rfl
  · have hsum : ¬((x + y : Nat) : Int) ≤ maxDurationNanos := by omega
    rw [ofNanos?_eq_none hx, ofNanos?_eq_none hsum]
    rfl

theorem map_negate (n : Nat) : (ofNanos? n).map negate = ofNanos? (-n) := by
  unfold ofNanos?
  by_cases h : (n : Int) ≤ maxDurationNanos
  · rw [dif_pos (by omega), dif_pos (by omega)]
    rfl
  · rw [dif_neg (by omega), dif_neg (by omega)]
    rfl

/-! ## Components -/

/-- The seconds that a unit is long. -/
def Part.length : Part → Nat
  | .days => 86400
  | .hours => 3600
  | .minutes => 60
  | .seconds => 1

theorem wholePart?_digits (unit : Nat) (hne : number ≠ [])
    (hnumber : ∀ c ∈ number, c.isDigit = true) (hunit : 0 < unit) :
    wholePart? unit number = ofNanos? (digitsValue 0 number * unit * 1000000000 : Nat) := by
  have hread : readInt? number = some (digitsValue 0 number : Int) :=
    readInt?_of_isDigit hne hnumber
  rw [wholePart?, readIntIn?, hread]
  by_cases hlarge : digitsValue 0 number < 2 ^ (63 : Nat)
  · rw [Option.filter_some, if_pos (by
      simp only [Bool.and_eq_true, decide_eq_true_eq]
      omega), Option.bind_some]
    rfl
  · -- The number alone is out of range, and so is the span.
    have hle : digitsValue 0 number ≤ digitsValue 0 number * unit := Nat.le_mul_of_pos_right _ hunit
    have hbound : maxDurationNanos = (2 ^ (63 : Nat) - 1) * 1000000 := rfl
    rw [Option.filter_some, if_neg (by
      simp only [Bool.and_eq_true, decide_eq_true_eq]
      omega), Option.bind_none, ofNanos?_eq_none (by omega)]

/-- Days, hours and minutes are whole numbers of any size. -/
theorem Part.read?_digits (part : Part) (hpart : part ≠ .seconds) (r : DigitRun) :
    part.read? r.chars = ofNanos? (r.value * part.length * 1000000000 : Nat) := by
  cases part with
  | days => exact wholePart?_digits 86400 r.ne_nil r.isDigit (by decide)
  | hours => exact wholePart?_digits 3600 r.ne_nil r.isDigit (by decide)
  | minutes => exact wholePart?_digits 60 r.ne_nil r.isDigit (by decide)
  | seconds => exact absurd rfl hpart

theorem isNumberChar_of_isDigit (h : c.isDigit = true) : isNumberChar c = true := by
  rw [isNumberChar, h, Bool.true_or]

theorem isNumberChar_of_mem_chars {n : WrittenNumber} (hc : c ∈ n.chars) :
    isNumberChar c = true := by
  rcases n.mem_chars hc with hdigit | rfl
  · exact isNumberChar_of_isDigit hdigit
  · rfl

/-! ## Reading components -/

theorem run?_number {r : Reading} (hnumber : ∀ c ∈ number, isNumberChar c = true) :
    r.run? whole (number ++ rest) = r.run? (whole ++ number) rest := by
  induction number generalizing whole with
  | nil => rw [List.nil_append, List.append_nil]
  | cons c number ih =>
      rw [List.cons_append, Reading.run?, if_pos (hnumber c List.mem_cons_self),
        ih fun d hd => hnumber d (List.mem_cons_of_mem c hd), List.append_assoc]
      rfl

/-- Reads on from a sum, unless it is too long already. -/
def resume (x : Nat) (inTime sawPart sawTimePart : Bool) (cs : List Char) : Option Duration :=
  (ofNanos? x).bind fun total => Reading.run? ⟨total, inTime, sawPart, sawTimePart⟩ [] cs

/-- A number and its unit add to the sum. -/
theorem resume_part (hnumber : ∀ c ∈ number, isNumberChar c = true)
    (hc : Part.ofLetter? inTime c = some part) (hread : part.read? number = ofNanos? y) :
    resume x inTime sawPart sawTimePart (number ++ c :: rest) =
      resume (x + y) inTime true (sawTimePart || inTime) rest := by
  have hletter : isNumberChar c = false ∧ (c == 'T') = false := by
    unfold Part.ofLetter? at hc
    split at hc <;> first | exact ⟨rfl, rfl⟩ | cases hc
  rw [resume, resume, ← bind_add?]
  cases ofNanos? x with
  | none => rfl
  | some total =>
      rw [Option.bind_some, Option.bind_some, run?_number hnumber, List.nil_append, Reading.run?,
        hletter.1, hletter.2, Bool.false_and, if_neg Bool.false_ne_true, if_neg Bool.false_ne_true,
        hc]
      simp only [hread]
      cases (ofNanos? y).bind total.add? with
      | none => rfl
      | some sum => rfl

/-- A component that may be missing. -/
theorem resume_withUnit {α : Type} {number? : Option α} {chars : α → List Char} {nanos : α → Nat}
    (hc : Part.ofLetter? inTime c = some part)
    (hnumber : ∀ a ∈ number?, ∀ c ∈ chars a, isNumberChar c = true)
    (hread : ∀ a ∈ number?, part.read? (chars a) = ofNanos? (nanos a)) :
    resume x inTime sawPart sawTimePart (withUnit c (number?.map chars) ++ rest) =
      resume (x + number?.elim 0 nanos) inTime (sawPart || number?.isSome)
        (sawTimePart || (inTime && number?.isSome)) rest := by
  cases number? with
  | none => simp [withUnit]
  | some a =>
      show resume x inTime sawPart sawTimePart (chars a ++ [c] ++ rest) = _
      rw [List.append_assoc, List.singleton_append,
        resume_part (hnumber a rfl) hc (hread a rfl)]
      simp

theorem resume_digits {r? : Option DigitRun} (hc : Part.ofLetter? inTime c = some part)
    (hpart : part ≠ .seconds) :
    resume x inTime sawPart sawTimePart (withUnit c (r?.map DigitRun.chars) ++ rest) =
      resume (x + r?.elim 0 DigitRun.value * part.length * 1000000000) inTime
        (sawPart || r?.isSome) (sawTimePart || (inTime && r?.isSome)) rest := by
  rw [resume_withUnit hc (fun r _ d hd => isNumberChar_of_isDigit (r.isDigit d hd))
    fun r _ => part.read?_digits hpart r]
  cases r? with
  | none => simp
  | some r => rfl

theorem resume_time :
    resume x false sawPart sawTimePart ('T' :: rest) = resume x true sawPart sawTimePart rest := by
  have hT : ¬isNumberChar 'T' = true := by decide
  refine congrArg (ofNanos? x).bind (funext fun total => ?_)
  rw [Reading.run?, if_neg hT]
  rfl

theorem resume_nil (hpart : sawPart = true) (htime : (!inTime || sawTimePart) = true) :
    resume x inTime sawPart sawTimePart [] = ofNanos? x := by
  have hend (total : Duration) :
      Reading.run? ⟨total, inTime, sawPart, sawTimePart⟩ [] [] = some total := by
    rw [Reading.run?]
    simp only [hpart, htime, List.isEmpty_nil, Bool.and_self, if_true]
  rw [resume, funext hend, Option.bind_fun_some]

/-! ## Reading periods -/

theorem resume_clock (clock : Clock) (h : ∀ s ∈ clock.seconds, ExactSeconds s) :
    resume x true sawPart false clock.chars = ofNanos? (x + clock.nanos : Nat) := by
  have hseconds (x : Nat) (sawPart sawTimePart : Bool) :
      resume x true sawPart sawTimePart
          (withUnit 'S' (clock.seconds.map WrittenNumber.chars) ++ []) =
        resume (x + clock.seconds.elim 0 nanosOf) true (sawPart || clock.seconds.isSome)
          (sawTimePart || (true && clock.seconds.isSome)) [] :=
    resume_withUnit rfl (fun _ _ _ => isNumberChar_of_mem_chars)
      fun s hs => secondsPart?_chars (h s hs)
  have hnonempty := clock.nonempty
  rw [List.append_nil] at hseconds
  rw [Clock.chars, resume_digits rfl (by decide), resume_digits rfl (by decide), hseconds,
    resume_nil]
  · rw [Clock.nanos]
    congr 2
    simp only [Part.length]
    omega
  · simp only [Bool.or_assoc] at hnonempty ⊢
    rw [hnonempty, Bool.or_true]
  · simp only [Bool.not_true, Bool.false_or, Bool.true_and]
    exact hnonempty

theorem readMagnitude?_magnitude (p : Period) (h : p.ExactSeconds) :
    readMagnitude? p.magnitude = ofNanos? (p.nanos : Nat) := by
  have hstart : readMagnitude? p.magnitude = resume 0 false false false
      (withUnit 'D' (p.days.map DigitRun.chars) ++ p.clock.elim [] fun c => 'T' :: c.chars) := rfl
  have hnonempty := p.nonempty
  rw [hstart, resume_digits rfl (by decide), Nat.zero_add, Bool.false_or, Bool.false_and,
    Bool.or_false, Period.nanos, Part.length]
  cases hclock : p.clock with
  | none =>
      rw [hclock, Option.isSome_none, Bool.or_false] at hnonempty
      rw [Option.elim_none, Option.elim_none, Nat.add_zero, resume_nil hnonempty rfl]
  | some clock =>
      rw [Option.elim_some, Option.elim_some, resume_time,
        resume_clock clock (h clock hclock)]

/-- A period is read as its sum, where that is in range. -/
theorem ofChars?_chars (p : Period) (h : p.ExactSeconds) :
    ofChars? p.chars = ofNanos? (if p.negative then -(p.nanos : Int) else p.nanos) := by
  have hminus (cs : List Char) : ofChars? ('-' :: cs) = (readMagnitude? cs).map negate := rfl
  have hplain : ofChars? p.magnitude = readMagnitude? p.magnitude := rfl
  rw [Period.chars]
  split
  · rw [hminus, readMagnitude?_magnitude p h, map_negate]
  · rw [hplain, readMagnitude?_magnitude p h]

end Duration

/-! ## The span of a period -/

theorem Clock.nanos_eq (c : Clock) (h : ∀ s ∈ c.seconds, Duration.ExactSeconds s) :
    (c.nanos : ℚ) = c.length * 1000000000 := by
  have hseconds : ((c.seconds.elim 0 Duration.nanosOf : ℕ) : ℚ) =
      c.seconds.elim 0 WrittenNumber.value * 1000000000 := by
    cases hs : c.seconds with
    | none => simp
    | some s => exact Duration.nanosOf_eq (h s hs).places_le
  rw [nanos, length]
  push_cast
  rw [hseconds]
  ring

theorem Period.nanos_eq (p : Period) (h : p.ExactSeconds) :
    (p.nanos : ℚ) = p.length * 1000000000 := by
  have hclock : ((p.clock.elim 0 Clock.nanos : ℕ) : ℚ) =
      p.clock.elim 0 Clock.length * 1000000000 := by
    cases hc : p.clock with
    | none => simp
    | some c => exact c.nanos_eq (h c hc)
  rw [nanos, length]
  push_cast
  rw [hclock]
  ring

/-- A period of any size is read to the nanosecond where it is in range, and refused elsewhere,
unless its seconds are too many for the digits behind their point. -/
theorem Duration.ofChars?_period (p : Period) (h : p.ExactSeconds) :
    (|p.seconds * 1000000000| ≤ maxDurationNanos ∧
      ∃ d, ofChars? p.chars = some d ∧ (d.nanos : ℚ) = p.seconds * 1000000000) ∨
    (maxDurationNanos < |p.seconds * 1000000000| ∧ ofChars? p.chars = none) := by
  have hread := ofChars?_chars p h
  have hspan : p.seconds * 1000000000 =
      ((if p.negative then -(p.nanos : Int) else p.nanos : Int) : ℚ) := by
    rw [Period.seconds]
    split
    · push_cast
      rw [p.nanos_eq h, neg_mul]
    · push_cast
      rw [p.nanos_eq h]
  rw [hread, hspan]
  generalize (if p.negative then -(p.nanos : Int) else p.nanos) = n
  by_cases hmem : -maxDurationNanos ≤ n ∧ n ≤ maxDurationNanos
  · refine .inl ⟨?_, ⟨n, hmem⟩, dif_pos hmem, rfl⟩
    exact_mod_cast abs_le.2 hmem
  · refine .inr ⟨?_, dif_neg hmem⟩
    exact_mod_cast lt_of_not_ge fun hle => hmem (abs_le.1 hle)

/-- A time of seconds alone. -/
def Clock.ofSeconds (s : WrittenNumber) : Clock := ⟨none, none, some s, by simp⟩

theorem Clock.length_ofSeconds (s : WrittenNumber) : (ofSeconds s).length = s.value := by
  simp [length, ofSeconds]

/-- The most seconds that are read to the nanosecond with nine digits behind the point. -/
def WrittenNumber.mostSeconds : WrittenNumber :=
  ⟨.ofNat 4194303, List.replicate 9 '9', List.all_eq_true.1 rfl⟩

/-- A day and the most seconds, with a minus. -/
def Period.dayAndSeconds : Period :=
  ⟨true, some (.ofNat 1), some (.ofSeconds .mostSeconds), rfl⟩

theorem Duration.ofChars?_dayAndSeconds :
    Period.dayAndSeconds.ExactSeconds ∧ ∃ d, ofChars? Period.dayAndSeconds.chars = some d ∧
      (d.nanos : ℚ) = -4280703999999999 := by
  have hmantissa : WrittenNumber.mostSeconds.mantissa = 4194303999999999 := by decide +kernel
  have hvalue : WrittenNumber.mostSeconds.value = 4194303999999999 / 10 ^ (9 : Nat) := by
    rw [WrittenNumber.value, hmantissa]
    rfl
  have hexact : Period.dayAndSeconds.ExactSeconds := by
    intro c hc s hs
    obtain rfl := Option.some.inj hc
    obtain rfl := Option.some.inj hs
    refine ⟨by decide, .inl ?_⟩
    rw [hvalue]
    norm_num
  have hspan : Period.dayAndSeconds.seconds * 1000000000 = -4280703999999999 := by
    have hday : Period.dayAndSeconds.length =
        (DigitRun.ofNat 1).value * 86400 + (Clock.ofSeconds .mostSeconds).length := rfl
    have hminus : Period.dayAndSeconds.seconds = -Period.dayAndSeconds.length := rfl
    rw [hminus, hday, DigitRun.value_ofNat, Clock.length_ofSeconds, hvalue]
    norm_num
  refine ⟨hexact, ?_⟩
  rw [← hspan]
  rcases Duration.ofChars?_period Period.dayAndSeconds hexact with ⟨-, hread⟩ | ⟨hlarge, -⟩
  · exact hread
  · rw [hspan] at hlarge
    norm_num [maxDurationNanos] at hlarge

/-- Seconds with nine digits behind the point, and one too many before it. -/
def WrittenNumber.moreSeconds : WrittenNumber :=
  ⟨.ofNat 4194304, List.replicate 8 '0' ++ ['7'], List.all_eq_true.1 rfl⟩

/-- More seconds and nothing else. -/
def Period.moreSeconds : Period := ⟨false, none, some (.ofSeconds .moreSeconds), rfl⟩

/-- A nanosecond is added to them. -/
theorem Duration.ofChars?_moreSeconds : ∃ d, ofChars? Period.moreSeconds.chars = some d ∧
    (d.nanos : ℚ) = Period.moreSeconds.seconds * 1000000000 + 1 := by
  have hread : ofChars? Period.moreSeconds.chars = some ⟨4194304000000008, by decide⟩ := by
    decide +kernel
  have hmantissa : WrittenNumber.moreSeconds.mantissa = 4194304000000007 := by decide +kernel
  have hspan : Period.moreSeconds.seconds = 0 + (Clock.ofSeconds .moreSeconds).length := by
    have hdays : Period.moreSeconds.length =
        (0 : Nat) * 86400 + (Clock.ofSeconds .moreSeconds).length := rfl
    rw [← zero_mul 86400, ← Nat.cast_zero, ← hdays]
    rfl
  have hplaces : WrittenNumber.moreSeconds.places = 9 := rfl
  refine ⟨_, hread, ?_⟩
  rw [hspan, Clock.length_ofSeconds, WrittenNumber.value, hmantissa, hplaces]
  norm_num

end EntityQuery
