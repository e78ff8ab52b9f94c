import EntityQuery.Proofs.Number.PaddedDigits
import EntityQuery.Proofs.Time.Calendar
import EntityQuery.Time.Layout
import Mathlib.Data.List.Basic

/-!
# Reading dates, times and instants

Every field of a date or a clock is written with the width that the layouts expect, so it is read
back wherever it stands.  A leap second at the end of a minute comes back as second 60, and an
instant is found again from the date and the time its own clock shows.

A leap second that is kept within a minute is written like the second after it.  What is read from
its text is the time it settles to, which is another one.
-/

namespace EntityQuery

open Number Time

variable {width n low high : Nat} {cs rest fraction : List Char} {c : Char} {f : Fields}
  {items : List Item}

/-! ## Fields -/

namespace Time

theorem readDigits?_paddedDigits (hwidth : 0 < width) (h : n < 10 ^ width) :
    readDigits? width (paddedDigits width n ++ rest) = some (n, rest) := by
  have hlength := length_paddedDigits h hwidth
  have htake : (paddedDigits width n ++ rest).take width = paddedDigits width n :=
    List.take_left' hlength
  have hrun : (paddedDigits width n).takeWhile Char.isDigit = paddedDigits width n :=
    List.takeWhile_eq_self_iff.2 fun _ => isDigit_of_mem_paddedDigits
  have hempty : (paddedDigits width n).isEmpty = false :=
    List.isEmpty_eq_false_iff.2 (paddedDigits_ne_nil width n)
  simp [readDigits?, htake, hrun, hempty, digitsValue_paddedDigits]

/-- There is nothing to trim in front of a digit. -/
theorem trimFront_paddedDigits :
    Text.trimFront (paddedDigits width n ++ rest) = paddedDigits width n ++ rest := by
  obtain ⟨c, cs, hcs⟩ := List.exists_cons_of_ne_nil (paddedDigits_ne_nil width n)
  have hdigit : c.isDigit = true := isDigit_of_mem_paddedDigits (hcs ▸ List.mem_cons_self)
  rw [hcs, List.cons_append, Text.trimFront, List.dropWhile_cons, isBlank_of_isDigit hdigit]
  rfl

theorem readField?_paddedDigits (hlow : low ≤ n) (hhigh : n ≤ high) (hwidth : high < 100) :
    readField? low high (paddedDigits 2 n ++ rest) = some (n, rest) := by
  rw [readField?, trimFront_paddedDigits, readDigits?_paddedDigits (by decide) (by omega)]
  simp [hlow, hhigh]

theorem readYear?_paddedDigits (h : n < 10000) :
    readYear? (paddedDigits 4 n ++ rest) = some ((n : Int), rest) := by
  obtain ⟨c, cs, hcs⟩ := List.exists_cons_of_ne_nil (paddedDigits_ne_nil 4 n)
  have hdigit : c.isDigit = true := isDigit_of_mem_paddedDigits (hcs ▸ List.mem_cons_self)
  have hread : readDigits? 4 (paddedDigits 4 n ++ rest) = some (n, rest) :=
    readDigits?_paddedDigits (by decide) h
  rw [readYear?, trimFront_paddedDigits]
  rw [hcs, List.cons_append] at hread ⊢
  split
  · rename_i heq
    exact absurd (List.cons.inj heq).1 (ne_of_isDigit hdigit rfl)
  · rename_i heq
    exact absurd (List.cons.inj heq).1 (ne_of_isDigit hdigit rfl)
  · rw [hread]
    rfl

theorem readFraction?_pointed (hfraction : ∀ c ∈ fraction, c.isDigit = true)
    (hlength : fraction.length ≤ 9) (hrest : ∀ d ∈ rest.head?, d.isDigit = false ∧ d ≠ '.') :
    readFraction? (pointed fraction ++ rest) =
      some (digitsValue 0 fraction * 10 ^ (9 - fraction.length), rest) := by
  by_cases hempty : fraction = []
  · subst hempty
    have hnone : ∀ after, rest ≠ '.' :: after := by
      rintro after rfl
      exact (hrest '.' rfl).2 rfl
    unfold readFraction?
    split
    · rename_i heq
      exact absurd heq (hnone _)
    · simp [pointed, digitsValue_nil]
  · have hnone : rest.takeWhile Char.isDigit = [] := by
      cases rest with
      | nil => rfl
      | cons d rest => simp [(hrest d rfl).1]
    have hrun : (fraction ++ rest).takeWhile Char.isDigit = fraction := by
      rw [List.takeWhile_append_of_pos hfraction, hnone, List.append_nil]
    rw [pointed_of_ne_nil hempty, List.cons_append, readFraction?]
    simp [hrun, hempty, List.take_of_length_le hlength]

theorem readPair?_paddedDigits (h : n < 100) :
    readPair? (paddedDigits 2 n ++ rest) = some (n, rest) := by
  have hlength : (paddedDigits 2 n).length = 2 := length_paddedDigits h (by decide)
  obtain ⟨a, b, hcs⟩ := List.length_eq_two.1 hlength
  have hdigit : ∀ c ∈ [a, b], c.isDigit = true := fun c hc =>
    isDigit_of_mem_paddedDigits (hcs ▸ hc)
  have hvalue := digitsValue_paddedDigits 2 n
  rw [hcs] at hvalue ⊢
  simp [readPair?, hdigit, hvalue]

theorem readItems?_mark :
    readItems? f (.mark c :: items) (c :: rest) = readItems? f items rest := by
  simp [readItems?, Item.read?]

end Time

/-! ## Dates -/

theorem Date.toList_text (d : Date) (hyear : 0 ≤ d.year ∧ d.year ≤ 9999) :
    d.text.toList = paddedDigits 4 d.year.toNat ++ '-' :: (paddedDigits 2 d.month ++
      '-' :: paddedDigits 2 d.day) := by
  have hrange : (decide (0 ≤ d.year) && decide (d.year ≤ 9999)) = true := by simp [hyear]
  rw [Date.text, Date.yearText, if_pos hrange]
  simp [String.toList_append, toList_padded]

theorem daysInMonth_le (year : Int) (month : Nat) : daysInMonth year month ≤ 31 := by
  unfold daysInMonth
  split
  · split <;> decide
  · split <;> decide

/-- The fields that a date fills in. -/
def Time.Fields.setDate (f : Fields) (d : Date) : Fields :=
  { f with year := d.year, month := d.month, day := d.day }

theorem Time.readItems?_date (d : Date) (hyear : 0 ≤ d.year ∧ d.year ≤ 9999) :
    readItems? f (dateLayout ++ items) (d.text.toList ++ rest) =
      readItems? (f.setDate d) items rest := by
  have hmonth := d.month_mem
  have hday := d.day_mem
  have hlength := daysInMonth_le d.year d.month
  have hyearRead (rest : List Char) :
      readYear? (paddedDigits 4 d.year.toNat ++ rest) = some ((d.year.toNat : Int), rest) :=
    readYear?_paddedDigits (by omega)
  have hmonthRead (rest : List Char) :
      readField? 1 12 (paddedDigits 2 d.month ++ rest) = some (d.month, rest) :=
    readField?_paddedDigits hmonth.1 hmonth.2 (by decide)
  have hdayRead (rest : List Char) :
      readField? 1 31 (paddedDigits 2 d.day ++ rest) = some (d.day, rest) :=
    readField?_paddedDigits hday.1 (hday.2.trans hlength) (by decide)
  have hlayout : dateLayout ++ items = .year :: .mark '-' :: .month :: .mark '-' :: .day :: items :=
    rfl
  rw [d.toList_text hyear, hlayout]
  simp only [List.append_assoc, List.cons_append, readItems?, Item.read?, hyearRead, hmonthRead,
    hdayRead, Option.map_some, Option.bind_some, beq_self_eq_true, if_true,
    Int.toNat_of_nonneg hyear.1, Fields.setDate]

theorem Date.ofParts?_eq (d : Date) : Date.ofParts? d.year d.month d.day = some d := by
  rw [Date.ofParts?, dif_pos ⟨d.month_mem, d.day_mem⟩]

theorem Time.date?_setDate (d : Date) (hyear : 0 ≤ d.year ∧ d.year ≤ 9999) :
    (f.setDate d).date? = some d := by
  have hrange : (decide (Date.minYear ≤ d.year) && decide (d.year ≤ Date.maxYear)) = true := by
    rw [Bool.and_eq_true, decide_eq_true_iff, decide_eq_true_iff, Date.minYear, Date.maxYear]
    omega
  rw [Fields.date?, Fields.setDate, Date.readable?, if_pos hrange, d.ofParts?_eq]

/-- A date is read back from its text. -/
theorem Time.readDate?_text (d : Date) (hyear : 0 ≤ d.year ∧ d.year ≤ 9999) :
    readDate? d.text.toList = some d := by
  have hread : fields? dateLayout d.text.toList = some (Fields.start.setDate d) := by
    have hitems : readItems? Fields.start (dateLayout ++ []) (d.text.toList ++ []) =
        readItems? (Fields.start.setDate d) [] [] := readItems?_date d hyear
    rw [List.append_nil, List.append_nil] at hitems
    exact hitems
  rw [readDate?, hread, Option.bind_some, date?_setDate d hyear]

/-! ## Times -/

namespace TimeOfDay

/-- A fraction has as many digits as it needs, in groups of three. -/
theorem exists_fractionText {nanos : Nat} (h : nanos < nanosPerSecond) :
    ∃ fraction, (fractionText nanos).toList = pointed fraction ∧
      (∀ c ∈ fraction, c.isDigit = true) ∧ fraction.length ≤ 9 ∧
      digitsValue 0 fraction * 10 ^ (9 - fraction.length) = nanos := by
  have hnanos : nanos < 1000000000 := h
  have hpadded {width n : Nat} (hwidth : 0 < width) (hle : width ≤ 9) (hn : n < 10 ^ width)
      (hvalue : n * 10 ^ (9 - width) = nanos) :
      ∃ fraction, ("." ++ padded width n).toList = pointed fraction ∧
        (∀ c ∈ fraction, c.isDigit = true) ∧ fraction.length ≤ 9 ∧
        digitsValue 0 fraction * 10 ^ (9 - fraction.length) = nanos := by
    have hlength := length_paddedDigits hn hwidth
    refine ⟨paddedDigits width n, ?_, fun _ => isDigit_of_mem_paddedDigits, by omega, ?_⟩
    · rw [pointed_of_ne_nil (paddedDigits_ne_nil width n), String.toList_append, toList_padded]
      rfl
    · rw [hlength, digitsValue_paddedDigits, hvalue]
  unfold fractionText
  split
  · rename_i hzero
    exact ⟨[], rfl, by simp, by simp, by simpa [digitsValue_nil] using (beq_iff_eq.1 hzero).symm⟩
  · split
    · rename_i hmillis
      have hmillis : nanos % 1000000 = 0 := beq_iff_eq.1 hmillis
      exact hpadded (by decide) (by decide) (by omega) (by omega)
    · split
      · rename_i hmicros
        have hmicros : nanos % 1000 = 0 := beq_iff_eq.1 hmicros
        exact hpadded (by decide) (by decide) (by omega) (by omega)
      · exact hpadded (by decide) (by decide) (by omega) (by omega)

/-- The digits of a time. -/
theorem exists_text (t : TimeOfDay) : ∃ fraction,
    t.text.toList = paddedDigits 2 (t.seconds / 3600) ++ ':' ::
      (paddedDigits 2 (t.seconds / 60 % 60) ++ ':' ::
        (paddedDigits 2 (t.seconds % 60 + t.nanos / nanosPerSecond) ++ pointed fraction)) ∧
      (∀ c ∈ fraction, c.isDigit = true) ∧ fraction.length ≤ 9 ∧
      digitsValue 0 fraction * 10 ^ (9 - fraction.length) = t.nanos % nanosPerSecond := by
  obtain ⟨fraction, htext, hfraction⟩ :=
    exists_fractionText (Nat.mod_lt t.nanos (show 0 < nanosPerSecond by decide))
  refine ⟨fraction, ?_, hfraction⟩
  rw [← htext, text, clockText]
  simp [String.toList_append, toList_padded]

/-! ## Leap seconds -/

/-- A time that is no leap second, or the one at the end of its minute. -/
def LeapLast (t : TimeOfDay) : Prop := 1000000000 ≤ t.nanos → t.seconds % 60 = 59

/-- The time that the text of a time shows: a leap second within a minute looks like the second
after it. -/
def settled (t : TimeOfDay) : TimeOfDay :=
  if h : 1000000000 ≤ t.nanos ∧ t.seconds % 60 ≠ 59 then
    ⟨t.seconds + 1, t.nanos - 1000000000, by have := t.seconds_lt; omega,
      by have := t.nanos_lt; omega⟩
  else t

theorem settled_of_leapLast {t : TimeOfDay} (ht : t.LeapLast) : t.settled = t :=
  dif_neg fun h => h.2 (ht h.1)

/-- A leap second within a minute settles to a time that is no leap second. -/
theorem settled_of_within {t : TimeOfDay} (hge : 1000000000 ≤ t.nanos)
    (hwithin : t.seconds % 60 ≠ 59) :
    t.settled.seconds = t.seconds + 1 ∧ t.settled.nanos = t.nanos - 1000000000 := by
  rw [settled, dif_pos ⟨hge, hwithin⟩]
  exact ⟨rfl, rfl⟩

theorem leapLast_settled (t : TimeOfDay) : t.settled.LeapLast := by
  by_cases ht : t.LeapLast
  · rwa [settled_of_leapLast ht]
  · obtain ⟨hge, hwithin⟩ := Classical.not_imp.1 ht
    have hlt := t.nanos_lt
    have hnanos := (settled_of_within hge hwithin).2
    intro hleap
    omega

/-- A time and the one it settles to have the same text. -/
theorem text_settled (t : TimeOfDay) : t.settled.text = t.text := by
  by_cases ht : t.LeapLast
  · rw [settled_of_leapLast ht]
  · obtain ⟨hge, hwithin⟩ := Classical.not_imp.1 ht
    obtain ⟨hseconds, hnanos⟩ := settled_of_within hge hwithin
    have hlt := t.nanos_lt
    have hhour : (t.seconds + 1) / 3600 = t.seconds / 3600 := by omega
    have hminute : (t.seconds + 1) / 60 % 60 = t.seconds / 60 % 60 := by omega
    have hsecond : (t.seconds + 1) % 60 + (t.nanos - 1000000000) / 1000000000 =
        t.seconds % 60 + t.nanos / 1000000000 := by omega
    have hfraction : (t.nanos - 1000000000) % 1000000000 = t.nanos % 1000000000 := by omega
    simp only [text, clockText, hseconds, hnanos, nanosPerSecond, hhour, hminute, hsecond,
      hfraction]

end TimeOfDay

/-- The fields that a clock fills in. -/
def Time.Fields.setClock (f : Fields) (t : TimeOfDay) : Fields :=
  { f with hour := t.seconds / 3600, minute := t.seconds / 60 % 60
           second := t.seconds % 60 + t.nanos / nanosPerSecond, nanos := t.nanos % nanosPerSecond }

theorem Time.readItems?_clock (t : TimeOfDay) (hleap : t.LeapLast)
    (hrest : ∀ d ∈ rest.head?, d.isDigit = false ∧ d ≠ '.') :
    readItems? f (secondLayout ++ items) (t.text.toList ++ rest) =
      readItems? (f.setClock t) items rest := by
  obtain ⟨fraction, htext, hfraction, hlength, hvalue⟩ := t.exists_text
  have hseconds := t.seconds_lt
  have hnanos := t.nanos_lt
  have hsecond : t.seconds % 60 + t.nanos / nanosPerSecond ≤ 60 := by
    show t.seconds % 60 + t.nanos / 1000000000 ≤ 60
    have hlast : 1000000000 ≤ t.nanos → t.seconds % 60 = 59 := hleap
    omega
  have hhourRead (rest : List Char) : readField? 0 23 (paddedDigits 2 (t.seconds / 3600) ++ rest) =
      some (t.seconds / 3600, rest) :=
    readField?_paddedDigits (Nat.zero_le _) (by omega) (by decide)
  have hminuteRead (rest : List Char) :
      readField? 0 59 (paddedDigits 2 (t.seconds / 60 % 60) ++ rest) =
        some (t.seconds / 60 % 60, rest) :=
    readField?_paddedDigits (Nat.zero_le _) (by omega) (by decide)
  have hsecondRead (rest : List Char) :
      readField? 0 60 (paddedDigits 2 (t.seconds % 60 + t.nanos / nanosPerSecond) ++ rest) =
        some (t.seconds % 60 + t.nanos / nanosPerSecond, rest) :=
    readField?_paddedDigits (Nat.zero_le _) hsecond (by decide)
  have hlayout : secondLayout ++ items =
      .hour :: .mark ':' :: .minute :: .mark ':' :: .second :: .fraction :: items := rfl
  rw [htext, hlayout]
  simp only [List.append_assoc, List.cons_append, readItems?, Item.read?, hhourRead, hminuteRead,
    hsecondRead, readFraction?_pointed hfraction hlength hrest, hvalue, Option.map_some,
    Option.bind_some, beq_self_eq_true, if_true, Fields.setClock]

theorem TimeOfDay.ofParts?_eq (t : TimeOfDay) : TimeOfDay.ofParts? t.seconds t.nanos = some t := by
  rw [TimeOfDay.ofParts?, dif_pos ⟨t.seconds_lt, t.nanos_lt⟩]

/-- The time is found again: second 60 is the leap second. -/
theorem Time.time?_setClock (t : TimeOfDay) (hleap : t.LeapLast) :
    (f.setClock t).time? = some t := by
  have hseconds := t.seconds_lt
  have hnanos := t.nanos_lt
  have hhours :
      t.seconds / 3600 * 3600 + t.seconds / 60 % 60 * 60 + t.seconds % 60 = t.seconds := by
    omega
  have hunit : nanosPerSecond = 1000000000 := rfl
  rw [← t.ofParts?_eq]
  unfold Fields.time? Fields.setClock
  dsimp only
  rw [hunit]
  rcases Nat.lt_or_ge t.nanos 1000000000 with hlt | hge
  · have hsecond : (t.seconds % 60 + t.nanos / 1000000000 == 60) = false := by
      rw [beq_eq_false_iff_ne]
      omega
    rw [hsecond, if_neg Bool.false_ne_true, Nat.div_eq_of_lt hlt, Nat.mod_eq_of_lt hlt,
      Nat.add_zero, hhours]
  · have hlast := hleap hge
    have hsecond : (t.seconds % 60 + t.nanos / 1000000000 == 60) = true := by
      rw [beq_iff_eq]
      omega
    rw [if_pos hsecond, ← hlast, hhours]
    congr 1
    omega

/-- What is read from the text of a time is the time it settles to. -/
theorem Time.readTime?_text (t : TimeOfDay) : readTime? t.text.toList = some t.settled := by
  have hleap := t.leapLast_settled
  have hread : fields? secondLayout t.settled.text.toList =
      some (Fields.start.setClock t.settled) := by
    have hitems : readItems? Fields.start (secondLayout ++ []) (t.settled.text.toList ++ []) =
        readItems? (Fields.start.setClock t.settled) [] [] :=
      readItems?_clock t.settled hleap (by simp)
    rw [List.append_nil, List.append_nil] at hitems
    exact hitems
  rw [← t.text_settled, readTime?, hread, Option.bind_some, time?_setClock t.settled hleap,
    Option.some_or]

/-! ## Instants -/

namespace Instant

/-- The text of a whole number of minutes. -/
theorem toList_minuteOffsetText {offset : Int} (h : offset % 60 = 0) :
    (minuteOffsetText offset).toList = (if offset < 0 then '-' else '+') ::
      (paddedDigits 2 (offset.natAbs / 3600) ++
        ':' :: paddedDigits 2 (offset.natAbs / 60 % 60)) := by
  have hminutes : (offset.natAbs + 30) / 60 = offset.natAbs / 60 := by omega
  have hhours : offset.natAbs / 60 / 60 = offset.natAbs / 3600 := by omega
  unfold minuteOffsetText
  dsimp only
  rw [hminutes, hhours]
  split <;> simp [String.toList_append, toList_padded]

/-- The colon between the hours and the minutes of an offset is skipped. -/
theorem dropWhile_isOffsetGap : (':' :: paddedDigits width n).dropWhile isOffsetGap =
    paddedDigits width n := by
  obtain ⟨c, cs, hcs⟩ := List.exists_cons_of_ne_nil (paddedDigits_ne_nil width n)
  have hdigit : c.isDigit = true := isDigit_of_mem_paddedDigits (hcs ▸ List.mem_cons_self)
  have hgap : isOffsetGap c = false := by
    have hcolon : c ≠ ':' := ne_of_isDigit hdigit rfl
    simp [isOffsetGap, hcolon, isBlank_of_isDigit hdigit]
  rw [hcs, List.dropWhile_cons_of_pos rfl, List.dropWhile_cons, hgap]
  rfl

theorem readOffset?_minuteOffsetText {offset : Int} (h : offset % 60 = 0)
    (hlt : -86400 < offset ∧ offset < 86400) :
    readOffset? (minuteOffsetText offset).toList = some (offset, []) := by
  have hhours (rest : List Char) : readPair? (paddedDigits 2 (offset.natAbs / 3600) ++ rest) =
      some (offset.natAbs / 3600, rest) := readPair?_paddedDigits (by omega)
  have hminutes : readPair? (paddedDigits 2 (offset.natAbs / 60 % 60)) =
      some (offset.natAbs / 60 % 60, []) := by
    have hread : readPair? (paddedDigits 2 (offset.natAbs / 60 % 60) ++ []) =
        some (offset.natAbs / 60 % 60, []) := readPair?_paddedDigits (by omega)
    rwa [List.append_nil] at hread
  have hbelow : offset.natAbs / 60 % 60 < 60 := Nat.mod_lt _ (by decide)
  have hsum : ((offset.natAbs / 3600 : Nat) : Int) * 3600 +
      ((offset.natAbs / 60 % 60 : Nat) : Int) * 60 = offset.natAbs := by omega
  have hsign (cs : List Char) : Text.trimFront ((if offset < 0 then '-' else '+') :: cs) =
      (if offset < 0 then '-' else '+') :: cs := by
    split <;> rfl
  rw [toList_minuteOffsetText h, readOffset?, hsign]
  simp only [hhours, Option.bind_some, dropWhile_isOffsetGap, hminutes, hbelow, if_true, hsum]
  by_cases hnegative : offset < 0
  · have habs : -(offset.natAbs : Int) = offset := by omega
    simp only [hnegative, if_true, habs]
    rfl
  · have habs : (offset.natAbs : Int) = offset := by omega
    simp only [hnegative, if_false, habs]
    rfl

/-- What the clock of an instant shows. -/
def clock (i : Instant) : TimeOfDay where
  seconds := i.secondOfDay
  nanos := i.nanos
  seconds_lt := by
    rw [secondOfDay, Int.fmod_eq_emod_of_nonneg _ (by decide)]
    omega
  nanos_lt := i.nanos_lt

/-- An instant is found again from what its clock shows. -/
theorem ofLocal?_clock (i : Instant) (hyear : 0 ≤ i.date.year ∧ i.date.year ≤ 9999) :
    ofLocal? i.date i.clock i.offset = some i := by
  have hoffset := i.offset_lt
  have hseconds :
      i.date.dayNumber * 86400 + (i.clock.seconds : Int) - i.offset = i.seconds := by
    show i.date.dayNumber * 86400 + (i.secondOfDay : Int) - i.offset = i.seconds
    rw [date, Date.dayNumber_ofDayNumber, secondOfDay, Int.fdiv_eq_ediv_of_nonneg _ (by decide),
      Int.fmod_eq_emod_of_nonneg _ (by decide), localSeconds]
    omega
  -- The date in universal time is at most a day away.
  have hnear : i.localSeconds.fdiv 86400 - 1 ≤ i.seconds.fdiv 86400 ∧
      i.seconds.fdiv 86400 ≤ i.localSeconds.fdiv 86400 + 1 := by
    rw [Int.fdiv_eq_ediv_of_nonneg _ (by decide), Int.fdiv_eq_ediv_of_nonneg _ (by decide),
      localSeconds]
    omega
  have hrange : (decide (Date.minYear ≤ (Date.ofDayNumber (i.seconds.fdiv 86400)).year) &&
      decide ((Date.ofDayNumber (i.seconds.fdiv 86400)).year ≤ Date.maxYear)) = true := by
    rw [Bool.and_eq_true, decide_eq_true_iff, decide_eq_true_iff]
    exact Date.readable_of_near hnear hyear
  rw [ofLocal?]
  simp only [hseconds, hrange, if_true]
  rw [ofParts?, dif_pos ⟨i.nanos_lt, i.offset_lt⟩]
  rfl

/-- An instant that is no leap second, or the one at the end of a minute of universal time. -/
def LeapLast (i : Instant) : Prop := 1000000000 ≤ i.nanos → i.seconds % 60 = 59

/-- The instant that the text of an instant shows: a leap second within a minute looks like the
second after it. -/
def settled (i : Instant) : Instant :=
  if h : 1000000000 ≤ i.nanos ∧ i.seconds % 60 ≠ 59 then
    ⟨i.seconds + 1, i.nanos - 1000000000, i.offset, by have := i.nanos_lt; omega, i.offset_lt⟩
  else i

theorem settled_of_leapLast {i : Instant} (hi : i.LeapLast) : i.settled = i :=
  dif_neg fun h => h.2 (hi h.1)

theorem leapLast_settled (i : Instant) : i.settled.LeapLast := by
  by_cases hi : i.LeapLast
  · rwa [settled_of_leapLast hi]
  · have hlt := i.nanos_lt
    intro hleap
    rw [settled, dif_pos (Classical.not_imp.1 hi)] at hleap
    dsimp only at hleap
    omega

theorem offset_settled (i : Instant) : i.settled.offset = i.offset := by
  unfold settled
  split <;> rfl

/-- A clock that is ahead by whole minutes has a leap second at the end of a minute too. -/
theorem leapLast_clock {i : Instant} (h : i.offset % 60 = 0) (hi : i.LeapLast) :
    i.clock.LeapLast := by
  intro hleap
  have hlast := hi hleap
  show i.secondOfDay % 60 = 59
  rw [secondOfDay, Int.fmod_eq_emod_of_nonneg _ (by decide), localSeconds]
  omega

/-- The second after one within a minute is on the same day. -/
theorem settled_of_within {i : Instant} (h : i.offset % 60 = 0) (hge : 1000000000 ≤ i.nanos)
    (hwithin : i.seconds % 60 ≠ 59) :
    i.settled.date = i.date ∧ i.settled.clock = i.clock.settled := by
  have hclock : i.clock.seconds % 60 ≠ 59 := by
    show i.secondOfDay % 60 ≠ 59
    rw [secondOfDay, Int.fmod_eq_emod_of_nonneg _ (by decide), localSeconds]
    omega
  have hlocal : i.settled.localSeconds = i.localSeconds + 1 := by
    rw [settled, dif_pos ⟨hge, hwithin⟩]
    show i.seconds + 1 + i.offset = i.seconds + i.offset + 1
    omega
  have hminute : i.localSeconds % 60 ≠ 59 := by
    rw [localSeconds]
    omega
  have hday : (i.localSeconds + 1).fdiv 86400 = i.localSeconds.fdiv 86400 := by
    rw [Int.fdiv_eq_ediv_of_nonneg _ (by decide), Int.fdiv_eq_ediv_of_nonneg _ (by decide)]
    omega
  have hsecond : i.settled.secondOfDay = i.secondOfDay + 1 := by
    rw [secondOfDay, hlocal, secondOfDay, Int.fmod_eq_emod_of_nonneg _ (by decide),
      Int.fmod_eq_emod_of_nonneg _ (by decide)]
    omega
  have hnanos : i.settled.nanos = i.nanos - 1000000000 := by
    rw [settled, dif_pos ⟨hge, hwithin⟩]
  refine ⟨by rw [date, hlocal, hday, date], ?_⟩
  rw [TimeOfDay.settled, dif_pos ⟨hge, hclock⟩]
  simp only [clock, hsecond, hnanos]

theorem date_settled (i : Instant) (h : i.offset % 60 = 0) : i.settled.date = i.date := by
  by_cases hi : i.LeapLast
  · rw [settled_of_leapLast hi]
  · obtain ⟨hge, hwithin⟩ := Classical.not_imp.1 hi
    exact (settled_of_within h hge hwithin).1

theorem clock_settled (i : Instant) (h : i.offset % 60 = 0) :
    i.settled.clock = i.clock.settled := by
  by_cases hi : i.LeapLast
  · rw [settled_of_leapLast hi, TimeOfDay.settled_of_leapLast (leapLast_clock h hi)]
  · obtain ⟨hge, hwithin⟩ := Classical.not_imp.1 hi
    exact (settled_of_within h hge hwithin).2

end Instant

theorem Instant.toList_text (i : Instant) :
    i.text.toList = i.date.text.toList ++ 'T' :: (i.clock.text.toList ++
      (Instant.minuteOffsetText i.offset).toList) := by
  have hclock : TimeOfDay.clockText i.secondOfDay i.nanos = i.clock.text := rfl
  have hT : "T".toList = ['T'] := rfl
  rw [Instant.text, Instant.localText, hclock, String.toList_append, String.toList_append,
    String.toList_append, hT, List.append_assoc, List.append_assoc, List.singleton_append]

theorem Time.expandZulu_text (i : Instant) (h : i.offset % 60 = 0) :
    expandZulu i.text.toList = i.text.toList := by
  obtain ⟨cs, c, hcs⟩ : ∃ cs c, paddedDigits 2 (i.offset.natAbs / 60 % 60) = cs ++ [c] :=
    ⟨_, _, (List.dropLast_append_getLast (paddedDigits_ne_nil _ _)).symm⟩
  have hdigit : c.isDigit = true :=
    isDigit_of_mem_paddedDigits (hcs ▸ List.mem_append_right cs List.mem_cons_self)
  have hlast : i.text.toList.getLast? = some c := by
    rw [i.toList_text, Instant.toList_minuteOffsetText h, hcs]
    simp [List.getLast?_append, List.getLast?_cons]
  unfold expandZulu
  rw [hlast]
  split
  · rename_i heq
    exact absurd (Option.some.inj heq) (ne_of_isDigit hdigit rfl)
  · rfl

/-- An instant and the one it settles to have the same text. -/
theorem Instant.text_settled (i : Instant) (h : i.offset % 60 = 0) : i.settled.text = i.text := by
  rw [← String.toList_inj, Instant.toList_text, Instant.toList_text, i.date_settled h,
    i.clock_settled h, TimeOfDay.text_settled, i.offset_settled]

/-- An instant is read back from its text. -/
theorem Time.readInstant?_text_of_leapLast (i : Instant) (h : i.offset % 60 = 0)
    (hyear : 0 ≤ i.date.year ∧ i.date.year ≤ 9999) (hi : i.LeapLast) :
    readInstant? i.text.toList = some i := by
  have hleap := Instant.leapLast_clock h hi
  have hoffset : ∀ d ∈ (Instant.minuteOffsetText i.offset).toList.head?,
      d.isDigit = false ∧ d ≠ '.' := by
    rw [Instant.toList_minuteOffsetText h]
    split <;> simp
  have hread : fields? (dateLayout ++ [.mark 'T'] ++ secondLayout ++ [.offset]) i.text.toList =
      some { (Fields.start.setDate i.date).setClock i.clock with offset := i.offset } := by
    rw [i.toList_text, List.append_assoc, List.append_assoc, List.singleton_append, fields?,
      readItems?_date i.date hyear, readItems?_mark, readItems?_clock i.clock hleap hoffset]
    simp [readItems?, Item.read?, Instant.readOffset?_minuteOffsetText h i.offset_lt]
  have hinstant : Fields.instant?
      { (Fields.start.setDate i.date).setClock i.clock with offset := i.offset } = some i := by
    have hdate : Fields.date?
        { (Fields.start.setDate i.date).setClock i.clock with offset := i.offset } =
          some i.date :=
      date?_setDate (f := { Fields.start.setClock i.clock with offset := i.offset }) i.date
        hyear
    have htime : Fields.time?
        { (Fields.start.setDate i.date).setClock i.clock with offset := i.offset } =
          some i.clock :=
      time?_setClock (f := { Fields.start.setDate i.date with offset := i.offset }) i.clock hleap
    rw [Fields.instant?, hdate, Option.bind_some, htime, Option.bind_some,
      Instant.ofLocal?_clock i hyear]
  rw [readInstant?, expandZulu_text i h, instantLayouts, List.findSome?_cons, hread,
    Option.bind_some, hinstant]

/-- What is read from the text of an instant is the instant it settles to. -/
theorem Time.readInstant?_text (i : Instant) (h : i.offset % 60 = 0)
    (hyear : 0 ≤ i.date.year ∧ i.date.year ≤ 9999) :
    readInstant? i.text.toList = some i.settled := by
  have hoffset : i.settled.offset % 60 = 0 := by rwa [i.offset_settled]
  have hdate : 0 ≤ i.settled.date.year ∧ i.settled.date.year ≤ 9999 := by
    rwa [i.date_settled h]
  rw [← i.text_settled h]
  exact readInstant?_text_of_leapLast i.settled hoffset hdate i.leapLast_settled

end EntityQuery
