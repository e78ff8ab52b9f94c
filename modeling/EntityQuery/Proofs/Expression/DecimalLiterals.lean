import EntityQuery.Proofs.Expression.Literals
import EntityQuery.Proofs.Filter.Numerals
import EntityQuery.Proofs.Number.DecimalRounding

/-!
# Decimal literals

A decimal literal is a number of any length with the letter of its kind.  Reading it fails only for
numbers that round to one of more than 96 bits.  Every other number is read, and it is the exact one
if any decimal denotes it; where it has more digits than there is room for, it is rounded.
-/

namespace EntityQuery

open EntityQuery.Filter Number

/-- A decimal literal: a number with or without a minus before it, and the letter of the kind. -/
structure DecimalToken where
  negative : Bool
  number : WrittenNumber
  mark : Char
  mark_mem : mark = 'm' ∨ mark = 'M'

namespace DecimalToken

variable (t : DecimalToken)

/-- The text of the literal. -/
def text : String := String.ofList (signed t.negative t.number.chars ++ [t.mark])

/-- The number that is written. -/
def value : ℚ := t.number.signedValue t.negative

theorem mem_number {c : Char} (hc : c ∈ signed t.negative t.number.chars) :
    c.isDigit = true ∨ c = '.' ∨ c = '-' := by
  unfold signed at hc
  split at hc
  · rcases List.mem_cons.1 hc with rfl | hc
    · exact .inr (.inr rfl)
    · exact (t.number.mem_chars hc).imp_right .inl
  · exact (t.number.mem_chars hc).imp_right .inl

/-- What is read is the number without its letter. -/
theorem ofChars?_dropLetters :
    Decimal.ofChars? (Literal.dropLetters 'm' 'M' t.text.toList) =
      Decimal.ofPlainChars? (signed t.negative t.number.chars) := by
  have hletters : ∀ c ∈ signed t.negative t.number.chars, c ≠ 'm' ∧ c ≠ 'M' := by
    intro c hc
    rcases t.mem_number hc with hdigit | rfl | rfl
    · exact ⟨ne_of_isDigit hdigit rfl, ne_of_isDigit hdigit rfl⟩
    · decide
    · decide
  rw [text, String.toList_ofList, Literal.dropLetters_append hletters t.mark_mem,
    Decimal.ofChars?_of_plain fun _ => t.mem_number]

end DecimalToken

/-- What is read is the value of the literal. -/
theorem Literal.ofToken_of_ofChars? {model : Model} {text : String} {d : Decimal}
    (h : Decimal.ofChars? (dropLetters 'm' 'M' text.toList) = some d) :
    ofToken model .decimal text = .ok (ofKind .decimal text (.decimal d)) := by
  show ofRead .decimal text "decimal" _ = _
  rw [h]
  rfl

/-- A decimal literal is refused exactly where its number is too large.  Otherwise it denotes the
number that is written, rounded at the last place there is room for, and this is the exact number
whenever some decimal denotes it. -/
theorem Literal.ofToken_decimal (model : Model) (t : DecimalToken) :
    (Decimal.overflow ≤ t.number.value ∧
      ofToken model .decimal t.text = .error (.malformed (.invalidLiteral t.text "decimal"))) ∨
    (t.number.value < Decimal.overflow ∧
      ∃ d, ofToken model .decimal t.text = .ok (ofKind .decimal t.text (.decimal d)) ∧
        d.Rounds t.negative t.number ∧
        (d.toRat = t.value ↔ ∃ e : Decimal, e.toRat = t.value)) := by
  have hrounds : Decimal.RoundsTo t.negative t.number
      (Decimal.ofPlainChars? (signed t.negative t.number.chars)) :=
    Decimal.roundsTo_ofPlainChars? t.negative t.number
  rw [← t.ofChars?_dropLetters] at hrounds
  cases hd : Decimal.ofChars? (dropLetters 'm' 'M' t.text.toList) with
  | none =>
      rw [hd] at hrounds
      refine .inl ⟨hrounds, ?_⟩
      show ofRead .decimal t.text "decimal" _ = _
      rw [hd]
      rfl
  | some d =>
      rw [hd] at hrounds
      exact .inr ⟨hrounds.value_lt, d, ofToken_of_ofChars? hd, hrounds, hrounds.toRat_eq_iff⟩

/-- A number with one digit more behind the point than a decimal may have. -/
def DecimalToken.longFraction : DecimalToken where
  negative := false
  number := {
    whole := .ofNat 0
    fraction := "12345678901234567890123456789".toList
    isDigit_fraction := List.all_eq_true.1 rfl }
  mark := 'm'
  mark_mem := .inl rfl

/-- Its last digit is rounded away, and nothing tells so. -/
theorem Literal.ofToken_longFraction : ∃ d,
    ofToken ⟨[], [], [], []⟩ .decimal DecimalToken.longFraction.text =
        .ok (ofKind .decimal DecimalToken.longFraction.text (.decimal d)) ∧
      d.toRat ≠ DecimalToken.longFraction.value := by
  have hread : Decimal.ofChars? (dropLetters 'm' 'M' DecimalToken.longFraction.text.toList) =
      some ⟨false, 1234567890123456789012345679, 28, by decide, by decide⟩ := by decide +kernel
  refine ⟨_, ofToken_of_ofChars? hread, ?_⟩
  have hmantissa : DecimalToken.longFraction.number.mantissa = 12345678901234567890123456789 := by
    decide +kernel
  have hplaces : DecimalToken.longFraction.number.places = 29 := rfl
  rw [DecimalToken.value, WrittenNumber.signedValue, WrittenNumber.value, hmantissa, hplaces]
  norm_num [Decimal.toRat, Decimal.signedCoefficient, DecimalToken.longFraction]

end EntityQuery
