import EntityQuery.Proofs.Number.Digits
import Mathlib.Data.List.TakeWhile
import Mathlib.Tactic.Ring

/-!
# Digits with zeros around them

A run of digits denotes the same number with zeros in front of it, and each zero behind it makes the
number tenfold.  So digits of a fixed width, and fractions that are written without their last
zeros, are read back.
-/

namespace EntityQuery.Number

variable {width n high : Nat} {cs ds : List Char} {c : Char}

/-! ## The value of a run of digits -/

theorem digitsValue_append (high : Nat) (cs ds : List Char) :
    digitsValue high (cs ++ ds) = digitsValue (digitsValue high cs) ds := by
  simp only [digitsValue, List.foldl_append]

/-- The digits before a run count as much as the run is long. -/
theorem digitsValue_eq (high : Nat) (cs : List Char) :
    digitsValue high cs = high * 10 ^ cs.length + digitsValue 0 cs := by
  induction cs generalizing high with
  | nil => simp [digitsValue_nil]
  | cons c cs ih =>
      rw [digitsValue_cons, digitsValue_cons, ih, ih (0 * 10 + _), List.length_cons, Nat.pow_succ]
      ring

theorem le_digitsValue (high : Nat) (cs : List Char) : high ≤ digitsValue high cs := by
  have hpos : 0 < 10 ^ cs.length := Nat.pow_pos (by decide)
  have hle : high ≤ high * 10 ^ cs.length := Nat.le_mul_of_pos_right high hpos
  rw [digitsValue_eq]
  omega

theorem digitsValue_replicate_zero (count : Nat) :
    digitsValue high (List.replicate count '0') = high * 10 ^ count := by
  induction count generalizing high with
  | zero => simp [digitsValue_nil]
  | succ count ih =>
      rw [List.replicate_succ, digitsValue_cons, ih, Nat.pow_succ]
      show (high * 10 + 0) * 10 ^ count = _
      ring

/-- A run of digits denotes less than a one with as many zeros. -/
theorem digitsValue_lt (h : ∀ c ∈ cs, c.isDigit = true) : digitsValue 0 cs < 10 ^ cs.length := by
  induction cs with
  | nil => decide
  | cons c cs ih =>
      have hdigit : c.toNat - 48 < 10 := by
        have hc := h c List.mem_cons_self
        simp only [Char.isDigit, Bool.and_eq_true, decide_eq_true_eq, UInt32.le_iff_toNat_le] at hc
        have hhigh := hc.2
        simp at hhigh
        omega
      rw [digitsValue_cons, digitsValue_eq, List.length_cons, Nat.pow_succ, Nat.zero_mul,
        Nat.zero_add]
      have hle : (c.toNat - 48 + 1) * 10 ^ cs.length ≤ 10 * 10 ^ cs.length :=
        Nat.mul_le_mul_right _ hdigit
      have hlt := ih fun d hd => h d (List.mem_cons_of_mem c hd)
      rw [Nat.add_mul] at hle
      omega

/-! ## The digits of a number -/

theorem digits_eq_toString (n : Nat) : digits n = (toString n).toList := by
  rw [digits, Nat.toString_eq_repr, Nat.toList_repr]

theorem isDigit_of_mem_digits (h : c ∈ digits n) : c.isDigit = true :=
  isDigit_of_mem_toString (digits_eq_toString n ▸ h)

theorem digits_ne_nil (n : Nat) : digits n ≠ [] := digits_eq_toString n ▸ toString_toList_ne_nil n

theorem digitsValue_digits (n : Nat) : digitsValue 0 (digits n) = n := by
  rw [digitsValue_eq_ofDigitChars, digits]
  exact Nat.ofDigitChars_ten_toDigits

theorem length_digits_le (h : n < 10 ^ width) (hwidth : 0 < width) : (digits n).length ≤ width :=
  (Nat.length_toDigits_le_iff (by decide) hwidth).2 h

theorem isDigit_of_mem_paddedDigits (h : c ∈ paddedDigits width n) : c.isDigit = true := by
  rcases List.mem_append.1 h with hzero | hdigit
  · rw [(List.mem_replicate.1 hzero).2]
    rfl
  · exact isDigit_of_mem_digits hdigit

theorem not_mem_paddedDigits (hc : c.isDigit = false) : c ∉ paddedDigits width n := by
  intro hmem
  rw [isDigit_of_mem_paddedDigits hmem] at hc
  cases hc

theorem length_paddedDigits (h : n < 10 ^ width) (hwidth : 0 < width) :
    (paddedDigits width n).length = width := by
  have hle := length_digits_le h hwidth
  rw [paddedDigits, List.length_append, List.length_replicate]
  omega

theorem le_length_paddedDigits (width n : Nat) : width ≤ (paddedDigits width n).length := by
  rw [paddedDigits, List.length_append, List.length_replicate]
  omega

theorem paddedDigits_ne_nil (width n : Nat) : paddedDigits width n ≠ [] := by
  rw [paddedDigits]
  exact List.append_ne_nil_of_right_ne_nil _ (digits_ne_nil n)

/-- Digits of a width denote the number they are made from. -/
theorem digitsValue_paddedDigits (width n : Nat) : digitsValue 0 (paddedDigits width n) = n := by
  rw [paddedDigits, digitsValue_append, digitsValue_replicate_zero, Nat.zero_mul,
    digitsValue_digits]

theorem toList_padded (width n : Nat) : (padded width n).toList = paddedDigits width n :=
  String.toList_ofList

/-! ## Reading digits -/

theorem ne_of_isDigit {d : Char} (h : c.isDigit = true) (hd : d.isDigit = false) : c ≠ d := by
  rintro rfl
  rw [h] at hd
  cases hd

theorem readNat?_of_isDigit (hne : cs ≠ []) (hcs : ∀ c ∈ cs, c.isDigit = true) :
    readNat? cs = some (digitsValue 0 cs) := by
  rw [readNat?, List.all_eq_true.2 hcs, List.isEmpty_eq_false_iff.2 hne]
  rfl

/-- Digits are read without regard to a sign. -/
theorem readInt?_of_isDigit (hne : cs ≠ []) (hcs : ∀ c ∈ cs, c.isDigit = true) :
    readInt? cs = some (digitsValue 0 cs : Int) := by
  unfold readInt?
  split
  · exact absurd (hcs '-' List.mem_cons_self) (by decide)
  · rw [readUnsigned?_of_isDigit hcs, readNat?_of_isDigit hne hcs]
    rfl

/-- An integer is read back from its text. -/
theorem readInt?_intText (n : Int) : readInt? (intText n).toList = some n := by
  unfold intText
  split
  · have habs : -(n.natAbs : Int) = n := by omega
    have hread : readNat? ([] ++ (toString n.natAbs).toList) = some n.natAbs :=
      readNat?_toString n.natAbs
    rw [String.toList_append, show "-".toList = ['-'] from rfl, List.cons_append, readInt?, hread]
    exact congrArg some habs
  · have habs : (n.natAbs : Int) = n := by omega
    rw [← digits_eq_toString,
      readInt?_of_isDigit (digits_ne_nil _) (fun _ => isDigit_of_mem_digits), digitsValue_digits,
      habs]

theorem readIntIn?_intText {n bottom top : Int} (h : bottom ≤ n ∧ n ≤ top) :
    readIntIn? bottom top (intText n).toList = some n := by
  simp [readIntIn?, readInt?_intText, h]

/-! ## Fractions without their last zeros -/

/-- A run of digits without the zeros at its end. -/
def stripZeros (cs : List Char) : List Char := (cs.reverse.dropWhile (· == '0')).reverse

theorem eq_stripZeros_append (cs : List Char) :
    cs = stripZeros cs ++ List.replicate (cs.length - (stripZeros cs).length) '0' := by
  have hzero : ∀ c ∈ cs.reverse.takeWhile (· == '0'), c = '0' := by
    intro c hc
    have hc := List.mem_takeWhile_imp hc
    simpa using hc
  have hzeros : cs.reverse.takeWhile (· == '0')
      = List.replicate (cs.reverse.takeWhile (· == '0')).length '0' :=
    List.eq_replicate_of_mem hzero
  have hsplit : stripZeros cs ++ (cs.reverse.takeWhile (· == '0')).reverse = cs := by
    rw [stripZeros, ← List.reverse_append, List.takeWhile_append_dropWhile, List.reverse_reverse]
  have hlength := congrArg List.length hsplit
  rw [List.length_append, List.length_reverse] at hlength
  conv_lhs => rw [← hsplit]
  rw [hzeros, List.reverse_replicate]
  congr 2
  omega

/-- Each zero that was left out makes the number tenfold. -/
theorem digitsValue_stripZeros (high : Nat) (cs : List Char) :
    digitsValue high (stripZeros cs) * 10 ^ (cs.length - (stripZeros cs).length)
      = digitsValue high cs := by
  conv_rhs => rw [eq_stripZeros_append cs]
  rw [digitsValue_append, digitsValue_replicate_zero]

theorem stripZeros_sublist (cs : List Char) : (stripZeros cs).Sublist cs :=
  List.reverse_sublist.1 (by
    rw [stripZeros, List.reverse_reverse]
    exact List.dropWhile_sublist _)

/-- Digits behind their point, unless there are none. -/
def pointed (fraction : List Char) : List Char :=
  if fraction.isEmpty then [] else '.' :: fraction

theorem pointed_of_ne_nil (h : cs ≠ []) : pointed cs = '.' :: cs := by
  rw [pointed, List.isEmpty_eq_false_iff.2 h]
  rfl

theorem mem_pointed (hc : c ∈ pointed cs) : c = '.' ∨ c ∈ cs := by
  unfold pointed at hc
  split at hc
  · cases hc
  · exact List.mem_cons.1 hc

end EntityQuery.Number
