import EntityQuery.Expression.Arithmetic

/-!
# Integers as values

There are five kinds of integers.  A value of one of them denotes an integer (`Value.IsInteger`),
and one that fits 64 or 32 bits is denoted by a value of that width.  Two kinds meet in 64 bits if
one of them has 64 bits, and in 32 bits otherwise.
-/

namespace EntityQuery

open ArithmeticOperator (fits)

/-- A value of one of the five kinds of integers, and the integer it denotes. -/
inductive Value.IsInteger : Value → PrimitiveKind → Int → Prop
  | byte (n : UInt8) : IsInteger (.byte n) .byte n.toNat
  | sbyte (n : Int8) : IsInteger (.sbyte n) .sbyte n.toInt
  | int16 (n : Int16) : IsInteger (.int16 n) .int16 n.toInt
  | int32 (n : Int32) : IsInteger (.int32 n) .int32 n.toInt
  | int64 (n : Int64) : IsInteger (.int64 n) .int64 n.toInt

/-- The kind in which two kinds of integers meet. -/
def PrimitiveKind.meeting (k l : PrimitiveKind) : PrimitiveKind :=
  if k = .int64 ∨ l = .int64 then .int64 else .int32

variable {v a b : Value} {k l : PrimitiveKind} {n x y : Int}

/-! ## Values that denote an integer -/

theorem fits_iff (bits : Nat) :
    fits bits n = true ↔ -2 ^ (bits - 1) ≤ n ∧ n < 2 ^ (bits - 1) := by
  simp [fits]

/-- What lies between zero and an integer takes no more bits. -/
theorem fits_of_between {bits : Nat} (hx : fits bits x = true)
    (hn : (0 ≤ n ∧ n ≤ x) ∨ (x ≤ n ∧ n ≤ 0)) : fits bits n = true := by
  rw [fits_iff] at hx ⊢
  omega

theorem toInt_ofNat_toNat (n : UInt8) : (Int64.ofNat n.toNat).toInt = n.toNat := by
  have hsmall : n.toNat < 2 ^ (63 : Nat) := by
    have hlt := n.toNat_lt
    omega
  exact Int64.toInt_ofNat_of_lt hsmall

namespace Value.IsInteger

theorem primitiveKind? (h : v.IsInteger k n) : v.primitiveKind? = some k := by
  cases h <;> rfl

theorem asInt64? (h : v.IsInteger k n) : ∃ m : Int64, v.asInt64? = some m ∧ m.toInt = n := by
  cases h with
  | byte n => exact ⟨_, rfl, toInt_ofNat_toNat n⟩
  | sbyte n => exact ⟨_, rfl, n.toInt_toInt64⟩
  | int16 n => exact ⟨_, rfl, n.toInt_toInt64⟩
  | int32 n => exact ⟨_, rfl, n.toInt_toInt64⟩
  | int64 n => exact ⟨n, rfl, rfl⟩

/-- Every integer fits 64 bits, and only those of 64 bits do not fit 32. -/
theorem bounds (h : v.IsInteger k n) : fits 64 n = true ∧ (k ≠ .int64 → fits 32 n = true) := by
  simp only [fits_iff]
  cases h with
  | byte n =>
      have hlt := n.toNat_lt
      omega
  | sbyte n =>
      have hle := n.le_toInt
      have hlt := n.toInt_lt
      omega
  | int16 n =>
      have hle := n.le_toInt
      have hlt := n.toInt_lt
      omega
  | int32 n =>
      have hle := n.le_toInt
      have hlt := n.toInt_lt
      omega
  | int64 n => exact ⟨⟨n.le_toInt, n.toInt_lt⟩, fun h => absurd rfl h⟩

end Value.IsInteger

theorem isInteger_int64_iff :
    v.IsInteger .int64 n ↔ fits 64 n = true ∧ v = .int64 (Int64.ofInt n) := by
  constructor
  · intro h
    cases h with
    | int64 m =>
        exact ⟨(fits_iff 64).2 ⟨m.le_toInt, m.toInt_lt⟩, congrArg Value.int64 m.ofInt_toInt.symm⟩
  · rintro ⟨hfits, rfl⟩
    obtain ⟨hle, hlt⟩ := (fits_iff 64).1 hfits
    have hvalue := Value.IsInteger.int64 (Int64.ofInt n)
    rwa [Int64.toInt_ofInt_of_le hle hlt] at hvalue

theorem isInteger_int32_iff :
    v.IsInteger .int32 n ↔ fits 32 n = true ∧ v = .int32 (Int32.ofInt n) := by
  constructor
  · intro h
    cases h with
    | int32 m =>
        exact ⟨(fits_iff 32).2 ⟨m.le_toInt, m.toInt_lt⟩, congrArg Value.int32 m.ofInt_toInt.symm⟩
  · rintro ⟨hfits, rfl⟩
    obtain ⟨hle, hlt⟩ := (fits_iff 32).1 hfits
    have hvalue := Value.IsInteger.int32 (Int32.ofInt n)
    rwa [Int32.toInt_ofInt_of_le hle hlt] at hvalue

/-- An integer of 64 or of 32 bits. -/
def integerOf (wide : Bool) (n : Int) : Value :=
  if wide then .int64 (Int64.ofInt n) else .int32 (Int32.ofInt n)

theorem isInteger_iff (wide : Bool) : v.IsInteger (if wide then .int64 else .int32) n ↔
    fits (if wide then 64 else 32) n = true ∧ v = integerOf wide n := by
  cases wide with
  | true => exact isInteger_int64_iff
  | false => exact isInteger_int32_iff

/-! ## The kind in which two integers meet -/

/-- Integers meet in 64 bits if one of them has 64. -/
theorem promote_of_isInteger (ha : a.IsInteger k x) (hb : b.IsInteger l y) :
    k.promote l = some (k.meeting l) := by
  cases ha <;> cases hb <;> rfl

theorem meeting_eq (k l : PrimitiveKind) :
    k.meeting l = if k.meeting l == .int64 then .int64 else .int32 := by
  unfold PrimitiveKind.meeting
  split <;> rfl

theorem meeting_meeting (k l : PrimitiveKind) :
    (k.meeting l).meeting l = k.meeting l ∧
      (k.meeting l).meeting (k.meeting l) = k.meeting l := by
  unfold PrimitiveKind.meeting
  split <;> simp_all

/-- What lies between zero and an operand fits the kind in which it meets another. -/
theorem exists_isInteger (ha : a.IsInteger k x) (l : PrimitiveKind)
    (hn : (0 ≤ n ∧ n ≤ x) ∨ (x ≤ n ∧ n ≤ 0)) : ∃ v : Value, v.IsInteger (k.meeting l) n := by
  obtain ⟨hlarge, hsmall⟩ := ha.bounds
  unfold PrimitiveKind.meeting
  split
  · exact ⟨_, isInteger_int64_iff.2 ⟨fits_of_between hlarge hn, rfl⟩⟩
  · rename_i hkinds
    have hx : fits 32 x = true := hsmall fun hk => hkinds (.inl hk)
    exact ⟨_, isInteger_int32_iff.2 ⟨fits_of_between hx hn, rfl⟩⟩

end EntityQuery
