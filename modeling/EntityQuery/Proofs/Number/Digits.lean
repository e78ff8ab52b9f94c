import EntityQuery.Number.Digits
import EntityQuery.Text.Blank

/-!
# Reading digits

A number is read from the digits it is written with.
-/

namespace EntityQuery.Number

open Text

theorem isDigit_of_mem_toString {n : Nat} {c : Char} (h : c ∈ (toString n).toList) :
    c.isDigit = true := by
  rw [Nat.toString_eq_repr, Nat.toList_repr] at h
  exact Nat.isDigit_of_mem_toDigits (by decide) (by decide) h

theorem toString_toList_ne_nil (n : Nat) : (toString n).toList ≠ [] := by
  rw [Nat.toString_eq_repr, Nat.toList_repr]
  exact Nat.toDigits_ne_nil

theorem digitsValue_eq_ofDigitChars (high : Nat) (cs : List Char) :
    digitsValue high cs = Nat.ofDigitChars 10 cs high := by
  induction cs generalizing high with
  | nil => rfl
  | cons c cs ih =>
      rw [digitsValue_cons, ih, Nat.ofDigitChars_cons, Nat.mul_comm high]
      rfl

theorem readNat?_toString (n : Nat) : readNat? (toString n).toList = some n := by
  have hdigits : (toString n).toList.all Char.isDigit = true :=
    List.all_eq_true.2 fun c hc => isDigit_of_mem_toString hc
  have hvalue : digitsValue 0 (toString n).toList = n := by
    rw [digitsValue_eq_ofDigitChars, Nat.toString_eq_repr, Nat.toList_repr]
    exact Nat.ofDigitChars_ten_toDigits
  have hempty : (toString n).toList.isEmpty = false :=
    List.isEmpty_eq_false_iff.2 (toString_toList_ne_nil n)
  rw [readNat?, hdigits, hvalue, hempty]
  rfl

/-- Digits have no sign before them. -/
theorem readUnsigned?_of_isDigit {cs : List Char} (h : ∀ c ∈ cs, c.isDigit = true) :
    readUnsigned? cs = readNat? cs := by
  unfold readUnsigned?
  split
  · exact absurd (h '+' List.mem_cons_self) (by decide)
  · rfl

/-- A number is read from its digits, up to the bound. -/
theorem readUnsignedUpTo?_toString {high n : Nat} (h : n ≤ high) :
    readUnsignedUpTo? high (toString n).toList = some n := by
  rw [readUnsignedUpTo?, readUnsigned?_of_isDigit fun _ => isDigit_of_mem_toString,
    readNat?_toString]
  simp [h]

/-! ## Blanks -/

theorem isBlank_of_isDigit {c : Char} (h : c.isDigit = true) : isBlank c = false := by
  simp only [Char.isDigit, Bool.and_eq_true, decide_eq_true_eq, UInt32.le_iff_toNat_le] at h
  simp only [isBlank, isAsciiBlank, Bool.or_eq_false_iff, Bool.and_eq_false_iff,
    beq_eq_false_iff_ne, decide_eq_false_iff_not, ne_eq, ← UInt32.toNat_inj, UInt32.le_iff_toNat_le]
  obtain ⟨hlow, hhigh⟩ := h
  simp at hlow hhigh ⊢
  omega

theorem dropWhile_isBlank_eq_self {cs : List Char} (h : ∀ c ∈ cs, isBlank c = false) :
    cs.dropWhile isBlank = cs := by
  cases cs with
  | nil => rfl
  | cons c cs => simp [h c List.mem_cons_self]

/-- There is nothing to trim at a number. -/
theorem trimChars_toString (n : Nat) : trimChars (toString n).toList = (toString n).toList := by
  have hblank : ∀ c ∈ (toString n).toList, isBlank c = false :=
    fun c hc => isBlank_of_isDigit (isDigit_of_mem_toString hc)
  rw [trimChars, trimFront, dropWhile_isBlank_eq_self hblank, trimBack, dropWhile_isBlank_eq_self,
    List.reverse_reverse]
  intro c hc
  exact hblank c (List.mem_reverse.1 hc)

theorem all_isBlank_toString (n : Nat) : (toString n).toList.all isBlank = false := by
  obtain ⟨c, hc⟩ := List.exists_mem_of_ne_nil _ (toString_toList_ne_nil n)
  rw [List.all_eq_false]
  exact ⟨c, hc, by simp [isBlank_of_isDigit (isDigit_of_mem_toString hc)]⟩

end EntityQuery.Number
