import EntityQuery.Proofs.Expression.IntegerArithmetic
import EntityQuery.Proofs.Text.Occurrences

/-!
# Functions on texts

The functions on texts count characters, all of them: an index, a length and the places between
which a text is cut mean the same everywhere.  So what `indexof` finds can be cut out again with
`substring`, `contains` and `startswith` say what can be read off the index, and a text that was put
together falls into its parts.

Lengths are numbers of 32 bits, so the texts must not have more characters together than such a
number can tell.
-/

namespace EntityQuery

open Text

variable {h n : String} {part whole : List Char} {v w : Value} {k l : PrimitiveKind}
  {start count : Int}

/-- An outcome is an integer of 32 bits. -/
def Counts (outcome : Except EvalError Value) (n : Int) : Prop :=
  ∃ v, outcome = .ok v ∧ v.IsInteger .int32 n

/-- What an index says: the first place of a text in another, or minus one if there is none. -/
inductive IsIndex (part whole : List Char) : Int → Prop
  | found {place : Nat} (hfirst : FirstAt part whole place) : IsIndex part whole place
  | missing (hnone : ∀ place, ¬OccursAt part whole place) : IsIndex part whole (-1)

/-- Numbers that are the same are told by the same value. -/
theorem Counts.exists_same {one other : Except EvalError Value} (h : Counts one count)
    (h' : Counts other count) : ∃ v, one = .ok v ∧ other = .ok v := by
  obtain ⟨v, hone, hv⟩ := h
  obtain ⟨w, hother, hw⟩ := h'
  obtain ⟨-, rfl⟩ := isInteger_int32_iff.1 hv
  obtain ⟨-, rfl⟩ := isInteger_int32_iff.1 hw
  exact ⟨_, hone, hother⟩

/-! ## The functions on values -/

namespace Function

theorem isInteger_countValue {count : Nat} (h : count < 2 ^ (31 : Nat)) :
    (countValue count).IsInteger .int32 count := by
  have hvalue := Value.IsInteger.int32 (Int32.ofNat count)
  rwa [Int32.toInt_ofNat_of_lt h] at hvalue

/-- The search for a text gives its index, from which it can be told whether the text is there and
whether it begins the other. -/
theorem exists_index (part whole : List Char) (hsmall : whole.length < 2 ^ (31 : Nat)) :
    ∃ index : Int, (placeValue part whole).IsInteger .int32 index ∧ IsIndex part whole index ∧
      Text.contains part whole = (index != -1) ∧ part.isPrefixOf whole = (index == 0) := by
  have hstarts : part.isPrefixOf whole = (indexOf? part whole == some 0) := by
    rw [Bool.eq_iff_iff, List.isPrefixOf_iff_prefix, beq_iff_eq, indexOf?_eq_some_iff,
      firstAt_zero_iff]
  rw [hstarts, placeValue, Text.contains]
  cases hfound : indexOf? part whole with
  | none => exact ⟨-1, .int32 (-1), .missing (indexOf?_eq_none_iff.1 hfound), rfl, rfl⟩
  | some place =>
      have hfirst := indexOf?_eq_some_iff.1 hfound
      have hle := hfirst.occurs.le_length
      have hne : (place : Int) ≠ -1 := by omega
      exact ⟨place, isInteger_countValue (by omega), .found hfirst, by simp [hne], by simp⟩

theorem isNull_of_isInteger (hv : v.IsInteger k start) : v.isNull = false := by
  cases hv <;> rfl

/-- A text is cut from a place on; places before the first character count as the first. -/
theorem apply_substring (hv : v.IsInteger k start) :
    substring.apply [.string h, v] =
      .ok (.string (String.ofList (h.toList.drop start.toNat))) := by
  obtain ⟨m, hm, rfl⟩ := hv.asInt64?
  have hnull : [.string h, v].any Value.isNull = false := by
    rw [List.any_cons, List.any_cons, isNull_of_isInteger hv]
    rfl
  rw [apply, hnull]
  simp only [value, argument, List.getElem?_cons_succ, List.getElem?_cons_zero, hm]
  rfl

theorem apply_substring_take (hv : v.IsInteger k start) (hw : w.IsInteger l count) :
    substring.apply [.string h, v, w] =
      .ok (.string (String.ofList ((h.toList.drop start.toNat).take count.toNat))) := by
  obtain ⟨m, hm, rfl⟩ := hv.asInt64?
  obtain ⟨m', hm', rfl⟩ := hw.asInt64?
  have hnull : [.string h, v, w].any Value.isNull = false := by
    rw [List.any_cons, List.any_cons, List.any_cons, isNull_of_isInteger hv,
      isNull_of_isInteger hw]
    rfl
  rw [apply, hnull]
  simp only [value, argument, List.getElem?_cons_succ, List.getElem?_cons_zero, hm, hm']
  rfl

end Function

/-! ## Calls in expressions -/

namespace Expression

variable {record : Record} {bindings : Bindings} {function : Function}
  {first second third : Expression} {a b c : Value}

theorem evaluate_call_one (hfirst : evaluate record bindings first = .ok a) :
    evaluate record bindings (.call function [first]) = function.apply [a] := by
  simp only [evaluate, evaluateAll, hfirst]
  rfl

theorem evaluate_call_two (hfirst : evaluate record bindings first = .ok a)
    (hsecond : evaluate record bindings second = .ok b) :
    evaluate record bindings (.call function [first, second]) = function.apply [a, b] := by
  simp only [evaluate, evaluateAll, hfirst, hsecond]
  rfl

theorem evaluate_call_three (hfirst : evaluate record bindings first = .ok a)
    (hsecond : evaluate record bindings second = .ok b)
    (hthird : evaluate record bindings third = .ok c) :
    evaluate record bindings (.call function [first, second, third]) =
      function.apply [a, b, c] := by
  simp only [evaluate, evaluateAll, hfirst, hsecond, hthird]
  rfl

/-- What the functions say of a text and one that is searched for in it, if `value` tells the values
of expressions. -/
structure TextLaws (value : Expression → Except EvalError Value) (whole part : Expression)
    (h n : String) (index : Int) : Prop where
  length_whole : Counts (value (.call .length [whole])) h.length
  length_part : Counts (value (.call .length [part])) n.length
  indexOf : Counts (value (.call .indexOf [whole, part])) index
  isIndex : IsIndex n.toList h.toList index
  contains : value (.call .contains [whole, part]) = .ok (.boolean (index != -1))
  startsWith : value (.call .startsWith [whole, part]) = .ok (.boolean (index == 0))
  substring_indexOf : 0 ≤ index → value (.call .substring
    [whole, .call .indexOf [whole, part], .call .length [part]]) = .ok (.string n)
  endsWith : ∃ ends, value (.call .endsWith [whole, part]) = .ok (.boolean ends) ∧
    (ends = true ↔ n.length ≤ h.length ∧ value (.call .substring
      [whole, .binary .sub (.call .length [whole]) (.call .length [part])]) = .ok (.string n))
  length_concat : ∃ v, value (.call .length [.call .concat [whole, part]]) = .ok v ∧
    value (.binary .add (.call .length [whole]) (.call .length [part])) = .ok v
  substring_concat : value (.call .substring
    [.call .concat [whole, part], .call .length [whole]]) = .ok (.string n)

variable {whole part : Expression} {x y : Int}

/-- Sums and differences of numbers of 32 bits are exact where they fit. -/
theorem counts_arithmetic (operator : ArithmeticOperator)
    (hleft : Counts (evaluate record bindings first) x)
    (hright : Counts (evaluate record bindings second) y)
    (hexact : operator.Gives x y count) (hexcepted : ¬operator.IsExcepted x y)
    (hfits : ArithmeticOperator.fits 32 count = true) :
    Counts (evaluate record bindings (.binary operator.toBinary first second)) count := by
  obtain ⟨a, ha, hx⟩ := hleft
  obtain ⟨b, hb, hy⟩ := hright
  have hvalue := isInteger_int32_iff.2 ⟨hfits, rfl⟩
  have houtcome := ArithmeticOperator.apply_exactOrRefused operator hx hy
  refine ⟨_, ?_, hvalue⟩
  rw [evaluate_arithmetic operator ha hb hx hy]
  exact houtcome.fitting count _ hexact hexcepted hvalue

theorem counts_length (hwhole : evaluate record bindings whole = .ok (.string h))
    (hsmall : h.length < 2 ^ (31 : Nat)) :
    Counts (evaluate record bindings (.call .length [whole])) h.length :=
  ⟨_, evaluate_call_one hwhole, Function.isInteger_countValue hsmall⟩

theorem evaluate_concat (hwhole : evaluate record bindings whole = .ok (.string h))
    (hpart : evaluate record bindings part = .ok (.string n)) :
    evaluate record bindings (.call .concat [whole, part]) = .ok (.string (h ++ n)) := by
  rw [← String.ofList_toList (s := h ++ n), String.toList_append]
  exact evaluate_call_two hwhole hpart

/-- A text is cut from a place that an expression tells. -/
theorem evaluate_substring (hwhole : evaluate record bindings whole = .ok (.string h))
    (hstart : Counts (evaluate record bindings first) start) :
    evaluate record bindings (.call .substring [whole, first]) =
      .ok (.string (String.ofList (h.toList.drop start.toNat))) := by
  obtain ⟨v, hv, hstart⟩ := hstart
  rw [evaluate_call_two hwhole hv, Function.apply_substring hstart]

theorem evaluate_substring_take (hwhole : evaluate record bindings whole = .ok (.string h))
    (hstart : Counts (evaluate record bindings first) start)
    (hcount : Counts (evaluate record bindings second) count) :
    evaluate record bindings (.call .substring [whole, first, second]) =
      .ok (.string (String.ofList ((h.toList.drop start.toNat).take count.toNat))) := by
  obtain ⟨v, hv, hstart⟩ := hstart
  obtain ⟨w, hw, hcount⟩ := hcount
  rw [evaluate_call_three hwhole hv hw, Function.apply_substring_take hstart hcount]

/-- A text ends with another exactly if it has at least as many characters, and the other is what is
left of it behind those that are too many. -/
theorem isSuffixOf_iff : n.toList.isSuffixOf h.toList = true ↔
    n.length ≤ h.length ∧ String.ofList (h.toList.drop (h.length - n.length)) = n := by
  rw [List.isSuffixOf_iff_suffix, ← String.length_toList, ← String.length_toList]
  constructor
  · intro hsuffix
    rw [← List.suffix_iff_eq_drop.1 hsuffix, String.ofList_toList]
    exact ⟨hsuffix.length_le, rfl⟩
  · rintro ⟨-, heq⟩
    rw [List.suffix_iff_eq_drop]
    simpa using (congrArg String.toList heq).symm

theorem endsWith_iff (hwhole : evaluate record bindings whole = .ok (.string h))
    (hpart : evaluate record bindings part = .ok (.string n))
    (hsmall : h.length + n.length < 2 ^ (31 : Nat)) :
    n.toList.isSuffixOf h.toList = true ↔ n.length ≤ h.length ∧
      evaluate record bindings (.call .substring
        [whole, .binary .sub (.call .length [whole]) (.call .length [part])]) =
        .ok (.string n) := by
  have hdifference : Counts (evaluate record bindings
        (.binary .sub (.call .length [whole]) (.call .length [part])))
      ((h.length : Int) - n.length) :=
    counts_arithmetic .sub (counts_length hwhole (by omega)) (counts_length hpart (by omega)) rfl
      (fun h => nomatch h.1) ((fits_iff 32).2 (by omega))
  rw [evaluate_substring hwhole hdifference, Int.toNat_sub, Except.ok.injEq, Value.string.injEq]
  exact isSuffixOf_iff

theorem exists_length_concat (hwhole : evaluate record bindings whole = .ok (.string h))
    (hpart : evaluate record bindings part = .ok (.string n))
    (hsmall : h.length + n.length < 2 ^ (31 : Nat)) :
    ∃ v, evaluate record bindings (.call .length [.call .concat [whole, part]]) = .ok v ∧
      evaluate record bindings (.binary .add (.call .length [whole]) (.call .length [part])) =
        .ok v := by
  have hsum : Counts (evaluate record bindings
        (.binary .add (.call .length [whole]) (.call .length [part])))
      ((h.length : Int) + n.length) :=
    counts_arithmetic .add (counts_length hwhole (by omega)) (counts_length hpart (by omega)) rfl
      (fun h => nomatch h.1) ((fits_iff 32).2 (by omega))
  have hlength := counts_length (evaluate_concat hwhole hpart) (by rwa [String.length_append])
  rw [String.length_append, Int.natCast_add] at hlength
  exact hlength.exists_same hsum

/-- The functions on texts agree on what stands where. -/
theorem texts_agree (hwhole : evaluate record bindings whole = .ok (.string h))
    (hpart : evaluate record bindings part = .ok (.string n))
    (hsmall : h.length + n.length < 2 ^ (31 : Nat)) :
    ∃ index, TextLaws (evaluate record bindings) whole part h n index := by
  have hlengthWhole := counts_length hwhole (by omega)
  have hlengthPart := counts_length hpart (by omega)
  obtain ⟨index, hplace, hindex, hcontains, hstarts⟩ :=
    Function.exists_index n.toList h.toList (by rw [String.length_toList]; omega)
  have hindexOf : Counts (evaluate record bindings (.call .indexOf [whole, part])) index :=
    ⟨_, evaluate_call_two hwhole hpart, hplace⟩
  refine ⟨index, hlengthWhole, hlengthPart, hindexOf, hindex, ?contains, ?starts, ?found, ?ends,
    exists_length_concat hwhole hpart hsmall, ?behind⟩
  case contains =>
    rw [← hcontains]
    exact evaluate_call_two hwhole hpart
  case starts =>
    rw [← hstarts]
    exact evaluate_call_two hwhole hpart
  case found =>
    intro hpos
    rw [evaluate_substring_take hwhole hindexOf hlengthPart]
    cases hindex with
    | missing hnone => cases hpos
    | found hfirst =>
        rw [Int.toNat_natCast, Int.toNat_natCast, ← String.length_toList,
          hfirst.occurs.take_drop, String.ofList_toList]
  case ends =>
    exact ⟨_, evaluate_call_two hwhole hpart, endsWith_iff hwhole hpart hsmall⟩
  case behind =>
    rw [evaluate_substring (evaluate_concat hwhole hpart) hlengthWhole, String.toList_append,
      Int.toNat_natCast, ← String.length_toList, List.drop_left, String.ofList_toList]

/-- A text in which another one occurs twice, and the occurrences overlap. -/
def umlauts : Expression := .literal (.ofKind .string "'äxöxöx'" (.string "äxöxöx"))

def umlaut : Expression := .literal (.ofKind .string "'xöx'" (.string "xöx"))

/-- The index counts characters, also where they take more than one byte. -/
theorem texts_agree_umlauts :
    evaluate default [] umlauts = .ok (.string "äxöxöx") ∧
      evaluate default [] umlaut = .ok (.string "xöx") ∧
      "äxöxöx".length + "xöx".length < 2 ^ (31 : Nat) ∧
      TextLaws (evaluate default []) umlauts umlaut "äxöxöx" "xöx" 1 := by
  have hwhole : evaluate default [] umlauts = .ok (.string "äxöxöx") := rfl
  have hpart : evaluate default [] umlaut = .ok (.string "xöx") := rfl
  have hsmall : "äxöxöx".length + "xöx".length < 2 ^ (31 : Nat) := by decide
  obtain ⟨index, hlaws⟩ := texts_agree hwhole hpart hsmall
  have hindex : evaluate default [] (.call .indexOf [umlauts, umlaut]) = .ok (.int32 1) := rfl
  obtain ⟨v, hv, hvalue⟩ := hlaws.indexOf
  obtain rfl := Except.ok.inj (hindex.symm.trans hv)
  obtain rfl : index = 1 := by
    cases hvalue
    rfl
  exact ⟨hwhole, hpart, hsmall, hlaws⟩

end Expression

end EntityQuery
