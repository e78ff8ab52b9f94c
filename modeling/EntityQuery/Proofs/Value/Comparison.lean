import EntityQuery.Proofs.Number.NotANumber

/-!
# Values that can be compared

The kind of a scalar value says what it can be read as.  Two values of one kind, and two numbers of
any kinds, have an order unless one of them is not a number.
-/

namespace EntityQuery.Value

open Number

variable {a b v : Value} {kind left right : PrimitiveKind}

/-- Is this a floating point number that is none? -/
def isNaN : Value → Bool
  | single x => x.isNaN
  | double x => x.isNaN
  | _ => false

/-! ## What a kind says -/

theorem compareBytes_self (bytes : List UInt8) : compareBytes bytes bytes = .eq := by
  induction bytes with
  | nil => rfl
  | cons byte bytes ih =>
      have hbyte : Ord.compare byte byte = .eq := Std.ReflCmp.compare_self
      rw [compareBytes, hbyte, ih]
      rfl

theorem compareStrings_self (s : String) : compareStrings s s = .eq := by
  simp [compareStrings, compareOfLessAndEq]

/-- Scalars of one kind are equal if the order finds no difference between them. -/
theorem beq_of_compare? (ha : a.primitiveKind? = some kind) (hb : b.primitiveKind? = some kind)
    (hfloating : kind ≠ .single ∧ kind ≠ .double) (h : compare? a b = some .eq) :
    (a == b) = true := by
  have hkinds : (a.primitiveKind?.isSome && a.primitiveKind? == b.primitiveKind? &&
      compare? a b == some .eq) = true := by
    rw [ha, hb, h]
    simp
  show eq a b = true
  cases a with
  | null | record | collection | enumeration => cases ha
  | single => exact absurd (Option.some.inj ha).symm hfloating.1
  | double => exact absurd (Option.some.inj ha).symm hfloating.2
  | _ => exact hkinds

/-- The order finds no difference between scalars of one kind that are equal. -/
theorem compare?_of_beq (ha : a.primitiveKind? = some kind)
    (hfloating : kind ≠ .single ∧ kind ≠ .double) (h : (a == b) = true) :
    compare? a b = some .eq := by
  have heq : eq a b = true := h
  cases a with
  | null | record | collection | enumeration => cases ha
  | single => exact absurd (Option.some.inj ha).symm hfloating.1
  | double => exact absurd (Option.some.inj ha).symm hfloating.2
  | _ => exact beq_iff_eq.1 (Bool.and_eq_true_iff.1 heq).2

theorem beq_self (h : v.primitiveKind? = some kind) (hfloating : kind ≠ .single ∧ kind ≠ .double) :
    (v == v) = true := by
  have hint (n : Int) : Ord.compare n n = .eq := Std.ReflCmp.compare_self
  have hnat (n : Nat) : Ord.compare n n = .eq := Std.ReflCmp.compare_self
  refine beq_of_compare? h h hfloating ?_
  cases v with
  | null | record | collection | enumeration => cases h
  | single => exact absurd (Option.some.inj h).symm hfloating.1
  | double => exact absurd (Option.some.inj h).symm hfloating.2
  | byte n | sbyte n | int16 n | int32 n | int64 n => exact congrArg some (hint _)
  | decimal d => exact congrArg some (hint _)
  | boolean b => cases b <;> rfl
  | string s => exact congrArg some (compareStrings_self s)
  | binary bytes => exact congrArg some (compareBytes_self bytes)
  | date d =>
      show some (d.compare d) = some .eq
      rw [Date.compare, hint, hnat, hnat]
      rfl
  | dateTimeOffset i =>
      show some (i.compare i) = some .eq
      rw [Instant.compare, hint, hnat]
      rfl
  | timeOfDay t =>
      show some (t.compare t) = some .eq
      rw [TimeOfDay.compare, hnat, hnat]
      rfl
  | duration d => exact congrArg some (hint _)
  | guid g => exact congrArg some (hnat _)

end EntityQuery.Value
