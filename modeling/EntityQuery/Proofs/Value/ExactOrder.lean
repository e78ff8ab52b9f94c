import EntityQuery.Proofs.Number.Rationals
import EntityQuery.Proofs.Value.Integers
import EntityQuery.Proofs.Value.Ranking
import Mathlib.Data.Prod.Lex

/-!
# The order of exact values

Floating point numbers apart, values are compared exactly.  Integers of all widths stand on one line
with the decimals, in the order of the numbers they denote.  Every other kind of scalar has a line
of its own, and so has every enum type.  On one line any two values are compared, and on different
lines, or off them, none are.

An integer is compared as the decimal it is `widened` to, so that what is known about values of one
type holds of a whole line.
-/

namespace EntityQuery

/-- The point in time of an instant, whatever the offset of the clock that showed it. -/
def Instant.moment (i : Instant) : ℤ ×ₗ ℕ := toLex (i.seconds, i.nanos)

theorem Instant.compare_eq_compare_moment (i j : Instant) :
    i.compare j = Ord.compare i.moment j.moment := by
  rw [Prod.Lex.compare_def]
  rfl

/-- The type whose line the values of a type stand on. -/
def EdmType.line : EdmType → EdmType
  | .primitive kind => .primitive (if kind.isIntegral then .decimal else kind)
  | type => type

namespace Value

/-- The number that an integer or a decimal denotes. -/
def exactNumber? : Value → Option ℚ
  | byte n => some n.toNat
  | sbyte n => some n.toInt
  | int16 n => some n.toInt
  | int32 n => some n.toInt
  | int64 n => some n.toInt
  | decimal d => some d.toRat
  | _ => none

/-- The line a value stands on. -/
def line? (v : Value) : Option EdmType := v.scalarType?.map EdmType.line

/-- Two values on one line that nothing tells apart: the same number, the same point in time, or
simply the same value. -/
inductive Tied : Value → Value → Prop
  | number {a b : Value} {p : ℚ} (ha : a.exactNumber? = some p) (hb : b.exactNumber? = some p) :
      Tied a b
  | moment {i j : Instant} (h : i.moment = j.moment) : Tied (dateTimeOffset i) (dateTimeOffset j)
  | same {v : Value} {type : EdmType} (h : v.scalarType? = some type) : Tied v v

/-- An integer as a decimal, and any other value as it is. -/
def widened (v : Value) : Value := (v.asDecimal?.map decimal).getD v

variable {a b c v : Value} {d e : Decimal} {type : EdmType} {p q : ℚ}

/-! ## Integers as decimals -/

theorem toRat_of_toInt {n : Int64} {k : Int} (h : n.toInt = k) :
    (Decimal.ofInt64 n).toRat = k := by
  rw [Decimal.toRat_ofInt64, h]

/-- The number an integer denotes is that of the decimal it is widened to. -/
theorem exactNumber?_eq (v : Value) : v.exactNumber? = v.asDecimal?.map Decimal.toRat := by
  cases v with
  | byte n => exact congrArg some (toRat_of_toInt (toInt_ofNat_toNat n)).symm
  | sbyte n => exact congrArg some (toRat_of_toInt n.toInt_toInt64).symm
  | int16 n => exact congrArg some (toRat_of_toInt n.toInt_toInt64).symm
  | int32 n => exact congrArg some (toRat_of_toInt n.toInt_toInt64).symm
  | int64 n => exact congrArg some (toRat_of_toInt rfl).symm
  | _ => rfl

theorem line?_of_asDecimal? (h : v.asDecimal? = some d) : v.line? = some (.primitive .decimal) := by
  cases v <;> first | rfl | cases h

theorem exists_asDecimal? (h : v.line? = some (.primitive .decimal)) :
    ∃ d, v.asDecimal? = some d := by
  cases v <;> first | exact ⟨_, rfl⟩ | cases h

theorem widened_of_asDecimal? (h : v.asDecimal? = some d) : v.widened = decimal d := by
  rw [widened, h]
  rfl

theorem widened_of_asDecimal?_eq_none (h : v.asDecimal? = none) : v.widened = v := by
  rw [widened, h]
  rfl

/-- An integer stands on the line of the decimals, and other values are compared within their type.
-/
theorem scalarType?_widened (v : Value) : v.widened.scalarType? = v.line? := by
  cases v <;> rfl

theorem isNumeric_of_asDecimal? (h : v.asDecimal? = some d) : v.isNumeric = true := by
  cases v <;> first | rfl | cases h

theorem isFloating_of_asDecimal? (h : v.asDecimal? = some d) : v.isFloating = false := by
  cases v <;> first | rfl | cases h

theorem compare_ofInt64 (m n : Int64) :
    (Decimal.ofInt64 m).compare (Decimal.ofInt64 n) = Ord.compare m.toInt n.toInt := by
  have hscale (k : Int64) : (Decimal.ofInt64 k).scale = 0 := rfl
  rw [Decimal.compare, hscale, hscale, Decimal.signedCoefficient_ofInt64,
    Decimal.signedCoefficient_ofInt64, Int.pow_zero, Int.mul_one, Int.mul_one]

/-- Integers and decimals are compared as decimals, whatever their kinds are. -/
theorem compare?_of_asDecimal? (ha : a.asDecimal? = some d) (hb : b.asDecimal? = some e) :
    a.compare? b = some (d.compare e) := by
  unfold compare? compareNumbers?
  rw [isNumeric_of_asDecimal? ha, isNumeric_of_asDecimal? hb, isFloating_of_asDecimal? ha,
    isFloating_of_asDecimal? hb, ha, hb]
  simp only [Bool.and_self, Bool.not_false, if_true]
  split
  · -- Two integers are compared without a detour over decimals.
    rename_i m n hm hn
    have hinteger {v : Value} {d : Decimal} {n : Int64} (hd : v.asDecimal? = some d)
        (hn : v.asInt64? = some n) : d = Decimal.ofInt64 n := by
      cases v <;> cases hn <;> exact (Option.some.inj hd).symm
    rw [hinteger ha hm, hinteger hb hn, compare_ofInt64]
  · rfl

/-! ## Values on one line -/

/-- One line does not hold numbers and other values. -/
theorem asDecimal?_eq_none_of_line? (ha : a.line? = some type) (hb : b.line? = some type)
    (h : a.asDecimal? = none) : b.asDecimal? = none := by
  cases he : b.asDecimal? with
  | none => rfl
  | some e =>
      obtain rfl := Option.some.inj (hb.symm.trans (line?_of_asDecimal? he))
      obtain ⟨d, hd⟩ := exists_asDecimal? ha
      rw [h] at hd
      cases hd

theorem compare?_widened (ha : a.line? = some type) (hb : b.line? = some type) :
    a.compare? b = a.widened.compare? b.widened := by
  cases hd : a.asDecimal? with
  | some d =>
      obtain rfl := Option.some.inj (ha.symm.trans (line?_of_asDecimal? hd))
      obtain ⟨e, he⟩ := exists_asDecimal? hb
      rw [compare?_of_asDecimal? hd he, widened_of_asDecimal? hd, widened_of_asDecimal? he]
      exact (compare?_of_asDecimal? rfl rfl).symm
  | none =>
      rw [widened_of_asDecimal?_eq_none hd,
        widened_of_asDecimal?_eq_none (asDecimal?_eq_none_of_line? ha hb hd)]

/-- On one line values are compared as their ranks are. -/
theorem compare?_of_line? (ha : a.line? = some type) (hb : b.line? = some type) :
    a.compare? b = compareRanks? a.widened.rank? b.widened.rank? := by
  rw [compare?_widened ha hb]
  exact compare?_eq_compareRanks? ((scalarType?_widened a).trans ha)
    ((scalarType?_widened b).trans hb)

/-- Floating point numbers apart, every value on a line has a rank. -/
theorem exists_rank? (hv : v.isFloating = false) (h : v.line? = some type) :
    ∃ r, v.widened.rank? = some r := by
  cases v <;> first | exact ⟨_, rfl⟩ | exact Bool.noConfusion hv | cases h

theorem line?_congr (h : a.scalarType? = b.scalarType?) : a.line? = b.line? := by
  rw [line?, h, line?]

/-- Values that are not on one line are not compared. -/
theorem compare?_eq_none_of_line? (ha : a.isFloating = false) (hb : b.isFloating = false)
    (h : ∀ type, a.line? = some type → b.line? ≠ some type) : a.compare? b = none := by
  have hexact {v : Value} (hv : v.isFloating = false) (hnumeric : v.isNumeric = true) :
      v.line? = some (.primitive .decimal) := by
    cases v <;> first | rfl | exact Bool.noConfusion hv | exact Bool.noConfusion hnumeric
  refine compare?_eq_none ?_ ?_
  · intro hnumbers
    rw [Bool.and_eq_true] at hnumbers
    exact h _ (hexact ha hnumbers.1) (hexact hb hnumbers.2)
  · intro type hta htb
    have hline : a.line? = some type.line := by rw [line?, hta]; rfl
    exact h _ hline ((line?_congr (hta.trans htb.symm)) ▸ hline)

theorem isSome_compare?_iff (ha : a.isFloating = false) (hb : b.isFloating = false) :
    (a.compare? b).isSome = true ↔ ∃ type, a.line? = some type ∧ b.line? = some type := by
  constructor
  · intro hsome
    by_contra hline
    rw [compare?_eq_none_of_line? ha hb fun type hta htb => hline ⟨type, hta, htb⟩] at hsome
    cases hsome
  · rintro ⟨type, hta, htb⟩
    obtain ⟨r, hr⟩ := exists_rank? ha hta
    obtain ⟨s, hs⟩ := exists_rank? hb htb
    rw [compare?_of_line? hta htb, hr, hs]
    rfl

/-- Numbers are compared as what they denote. -/
theorem compare?_of_exactNumber? (ha : a.exactNumber? = some p) (hb : b.exactNumber? = some q) :
    a.compare? b = some (Ord.compare p q) := by
  rw [exactNumber?_eq] at ha hb
  obtain ⟨d, hd, rfl⟩ := Option.map_eq_some_iff.1 ha
  obtain ⟨e, he, rfl⟩ := Option.map_eq_some_iff.1 hb
  rw [compare?_of_asDecimal? hd he, Decimal.compare_eq_compare_toRat]

/-! ## What holds on every line -/

theorem isLE_trans (ha : a.isFloating = false) (hb : b.isFloating = false)
    (hc : c.isFloating = false) (hab : (a.compare? b).any Ordering.isLE = true)
    (hbc : (b.compare? c).any Ordering.isLE = true) :
    (a.compare? c).any Ordering.isLE = true := by
  have hsome {x : Option Ordering} (h : x.any Ordering.isLE = true) : x.isSome = true := by
    cases x with
    | none => cases h
    | some o => rfl
  obtain ⟨type, hta, htb⟩ := (isSome_compare?_iff ha hb).1 (hsome hab)
  obtain ⟨other, htb', htc⟩ := (isSome_compare?_iff hb hc).1 (hsome hbc)
  obtain rfl : type = other := Option.some.inj (htb.symm.trans htb')
  obtain ⟨r, hr⟩ := exists_rank? ha hta
  obtain ⟨s, hs⟩ := exists_rank? hb htb
  obtain ⟨t, ht⟩ := exists_rank? hc htc
  rw [compare?_of_line? hta htb, hr, hs] at hab
  rw [compare?_of_line? htb htc, hs, ht] at hbc
  rw [compare?_of_line? hta htc, hr, ht]
  exact Std.TransOrd.isLE_trans hab hbc

/-! ## What a rank tells apart -/

theorem eq_of_rank?_string {s t : String} (h : (string s).rank? = (string t).rank?) : s = t := by
  have hchar : Function.Injective fun c : Char => (c.toNat : Int) :=
    fun c d hcd => Char.toNat_inj.1 (Int.ofNat_inj.1 hcd)
  exact String.toList_inj.1 (List.map_injective_iff.2 hchar (Option.some.inj h))

theorem eq_of_rank?_binary {s t : List UInt8} (h : (binary s).rank? = (binary t).rank?) :
    s = t := by
  have hbyte : Function.Injective fun x : UInt8 => (x.toNat : Int) :=
    fun x y hxy => UInt8.toNat_inj.1 (Int.ofNat_inj.1 hxy)
  exact List.map_injective_iff.2 hbyte (Option.some.inj h)

theorem eq_of_rank?_date {d e : Date} (h : (date d).rank? = (date e).rank?) : d = e := by
  have hparts : d.year = e.year ∧ d.month = e.month ∧ d.day = e.day := by
    simpa [rank?] using h
  cases d
  cases e
  simpa using hparts

theorem eq_of_rank?_timeOfDay {t u : TimeOfDay} (h : (timeOfDay t).rank? = (timeOfDay u).rank?) :
    t = u := by
  have hparts : t.seconds = u.seconds ∧ t.nanos = u.nanos := by simpa [rank?] using h
  cases t
  cases u
  simpa using hparts

theorem eq_of_rank?_duration {d e : Duration} (h : (duration d).rank? = (duration e).rank?) :
    d = e := by
  have hnanos : d.nanos = e.nanos := by simpa [rank?] using h
  cases d
  cases e
  simpa using hnanos

theorem eq_of_rank?_guid {g g' : Guid} (h : (guid g).rank? = (guid g').rank?) : g = g' := by
  have hvalue : g.value = g'.value := by simpa [rank?] using h
  cases g
  cases g'
  simpa using hvalue

/-- The rank of an instant is its point in time, without the offset of its clock. -/
theorem moment_eq_of_rank? {i j : Instant}
    (h : (dateTimeOffset i).rank? = (dateTimeOffset j).rank?) : i.moment = j.moment := by
  have hparts : i.seconds = j.seconds ∧ i.nanos = j.nanos := by simpa [rank?] using h
  rw [Instant.moment, hparts.1, hparts.2, Instant.moment]

/-- Within a type, a rank tells values apart, and instants their points in time. -/
theorem tied_of_rank? (ha : a.scalarType? = some type) (hb : b.scalarType? = some type)
    (hfloating : a.isFloating = false) (hexact : a.asDecimal? = none) (h : a.rank? = b.rank?) :
    Tied a b := by
  cases sameKind_of_scalarType? ha hb with
  | byte | sbyte | int16 | int32 | int64 | decimal => cases hexact
  | single | double => exact Bool.noConfusion hfloating
  | boolean x y =>
      have hxy : x = y := by
        cases x <;> cases y <;> first | rfl | cases h
      exact hxy ▸ .same rfl
  | string s t => exact eq_of_rank?_string h ▸ .same rfl
  | binary s t => exact eq_of_rank?_binary h ▸ .same rfl
  | date d e => exact eq_of_rank?_date h ▸ .same rfl
  | dateTimeOffset i j => exact .moment (moment_eq_of_rank? h)
  | timeOfDay t u => exact eq_of_rank?_timeOfDay h ▸ .same rfl
  | duration d e => exact eq_of_rank?_duration h ▸ .same rfl
  | guid g g' => exact eq_of_rank?_guid h ▸ .same rfl
  | enumeration key m n =>
      have hmn : m = n := by simpa [rank?, Int64.toInt_inj] using h
      exact hmn ▸ .same rfl

/-! ## When the order finds no difference -/

/-- The order finds no difference exactly between values that are tied. -/
theorem compare?_eq_iff_tied (ha : a.isFloating = false) (hb : b.isFloating = false) :
    a.compare? b = some .eq ↔ Tied a b := by
  constructor
  · intro h
    obtain ⟨type, hta, htb⟩ := (isSome_compare?_iff ha hb).1 (h ▸ rfl)
    cases hd : a.asDecimal? with
    | some d =>
        obtain rfl := Option.some.inj (hta.symm.trans (line?_of_asDecimal? hd))
        obtain ⟨e, he⟩ := exists_asDecimal? htb
        rw [compare?_of_asDecimal? hd he, Decimal.compare_eq_compare_toRat, Option.some.injEq,
          compare_eq_iff_eq] at h
        refine .number (p := d.toRat) ?_ ?_
        · rw [exactNumber?_eq, hd, Option.map_some]
        · rw [exactNumber?_eq, he, Option.map_some, h]
    | none =>
        have he := asDecimal?_eq_none_of_line? hta htb hd
        obtain ⟨r, hr⟩ := exists_rank? ha hta
        obtain ⟨s, hs⟩ := exists_rank? hb htb
        rw [compare?_of_line? hta htb, hr, hs] at h
        have hrank : r = s := Std.LawfulEqOrd.eq_of_compare (Option.some.inj h)
        rw [← scalarType?_widened, widened_of_asDecimal?_eq_none hd] at hta
        rw [← scalarType?_widened, widened_of_asDecimal?_eq_none he] at htb
        rw [widened_of_asDecimal?_eq_none hd] at hr
        rw [widened_of_asDecimal?_eq_none he] at hs
        exact tied_of_rank? hta htb ha hd (by rw [hr, hs, hrank])
  · intro h
    cases h with
    | number hp hq => rw [compare?_of_exactNumber? hp hq, compare_eq_iff_eq.2 rfl]
    | moment h =>
        rename_i i j
        show some (i.compare j) = some .eq
        rw [Instant.compare_eq_compare_moment, compare_eq_iff_eq.2 h]
    | same h =>
        rename_i type
        have hline : a.line? = some type.line := by rw [line?, h]; rfl
        obtain ⟨r, hr⟩ := exists_rank? ha hline
        rw [compare?_of_line? hline hline, hr]
        exact congrArg some Std.ReflOrd.compare_self

/-- Values that are no floating point numbers are compared lawfully.  Integers and decimals are
compared as the numbers they denote, and instants as points in time.  There is an order exactly on
one line; seen from the other side it is reversed, it is transitive, and it finds no difference
exactly between values that are tied. -/
theorem compare?_lawful (ha : a.isFloating = false) (hb : b.isFloating = false)
    (hc : c.isFloating = false) :
    (∀ p q, a.exactNumber? = some p → b.exactNumber? = some q →
        a.compare? b = some (Ord.compare p q)) ∧
      (∀ i j, a = dateTimeOffset i → b = dateTimeOffset j →
        a.compare? b = some (Ord.compare i.moment j.moment)) ∧
      ((a.compare? b).isSome = true ↔ ∃ type, a.line? = some type ∧ b.line? = some type) ∧
      b.compare? a = (a.compare? b).map Ordering.swap ∧
      ((a.compare? b).any Ordering.isLE = true → (b.compare? c).any Ordering.isLE = true →
        (a.compare? c).any Ordering.isLE = true) ∧
      (a.compare? b = some .eq ↔ Tied a b) := by
  refine ⟨fun p q => compare?_of_exactNumber?, ?_, isSome_compare?_iff ha hb, compare?_flip a b,
    isLE_trans ha hb hc, compare?_eq_iff_tied ha hb⟩
  rintro i j rfl rfl
  exact congrArg some (Instant.compare_eq_compare_moment i j)

/-- One and a half with two digits behind the point. -/
def sampleLong : Decimal := ⟨false, 150, 2, by decide, by decide⟩

/-- One and a half with one digit behind the point. -/
def sampleShort : Decimal := ⟨false, 15, 1, by decide, by decide⟩

/-- Two spellings of one number are tied, and both stand before the largest integer. -/
theorem compare?_lawful_scales :
    (decimal sampleLong).isFloating = false ∧ (decimal sampleShort).isFloating = false ∧
      (int64 9223372036854775807).isFloating = false ∧
      (decimal sampleLong).compare? (decimal sampleShort) = some .eq ∧
      Tied (decimal sampleLong) (decimal sampleShort) ∧
      ((decimal sampleLong).compare? (int64 9223372036854775807)).any Ordering.isLE = true := by
  have heq : (decimal sampleLong).compare? (decimal sampleShort) = some .eq := by decide
  have hle : ((decimal sampleShort).compare? (int64 9223372036854775807)).any Ordering.isLE =
      true := by decide
  obtain ⟨-, -, -, -, htrans, htied⟩ :=
    compare?_lawful (a := decimal sampleLong) (b := decimal sampleShort)
      (c := int64 9223372036854775807) rfl rfl rfl
  exact ⟨rfl, rfl, rfl, heq, htied.1 heq, htrans (heq ▸ rfl) hle⟩

end Value

end EntityQuery
