import EntityQuery.Proofs.Value.Comparison
import EntityQuery.Schema.EdmType

/-!
# Ranks of values

A scalar is ranked by a list of integers, and scalars of one type are compared as their ranks are,
the first entry of which weighs most.  Whatever holds of the order of such lists holds of the values
that have a rank.  The only ones without a rank are floating point numbers that are none.
-/

namespace EntityQuery.Value

open Number Float.Model

/-- The type of a scalar. -/
def scalarType? : Value → Option EdmType
  | enumeration e => some (.enumeration e.type)
  | v => v.primitiveKind?.map .primitive

/-- The rank of a floating point number: infinities are outermost, and numbers on one side of zero
are told apart by the exponent first. -/
def floatRank? : UnpackedFloat → Option (List Int)
  | .notANumber => none
  | .infinity .negative => some [-2]
  | .finite .negative m e _ => some [-1, -e, -m]
  | .zero _ => some [0]
  | .finite .positive m e _ => some [1, e, m]
  | .infinity .positive => some [2]

/-- The rank of a scalar. -/
def rank? : Value → Option (List Int)
  | boolean b => some [b.toNat]
  | single x => floatRank? (widen x).toModel.unpack
  | double x => floatRank? x.toModel.unpack
  | decimal d => some [d.signedCoefficient * 10 ^ (Decimal.maxScale - d.scale)]
  | string s => some (s.toList.map fun c => (c.toNat : Int))
  | binary bytes => some (bytes.map fun b => (b.toNat : Int))
  | date d => some [d.year, d.month, d.day]
  | dateTimeOffset i => some [i.seconds, i.nanos]
  | timeOfDay t => some [t.seconds, t.nanos]
  | duration d => some [d.nanos]
  | guid g => some [g.value]
  | enumeration e => some [e.value.toInt]
  | v => v.asInt64?.map fun n => [n.toInt]

/-- The order of two ranks, if there are both. -/
def compareRanks? : Option (List Int) → Option (List Int) → Option Ordering
  | some s, some t => some (compare s t)
  | _, _ => none

variable {a b v : Value} {type : EdmType}

/-! ## Integers in ranks -/

theorem compare_natCast (m n : Nat) : compare (m : Int) (n : Int) = compare m n := by
  simp only [compare, compareOfLessAndEq, Int.ofNat_lt, Int.ofNat_inj]

theorem compare_neg (m n : Int) : compare (-m) (-n) = (compare m n).swap := by
  rw [Int.compare_swap]
  simp only [compare, compareOfLessAndEq, Int.neg_lt_neg_iff, Int.neg_inj, eq_comm]

theorem compare_mul_right (m n : Int) {k : Int} (hk : 0 < k) :
    compare (m * k) (n * k) = compare m n := by
  simp only [compare, compareOfLessAndEq, Int.mul_lt_mul_right hk, Int.mul_eq_mul_right_iff hk.ne']

theorem compare_singleton (m n : Int) : compare [m] [n] = compare m n := by
  simp [List.compare_cons_cons]

/-! ## Ranks of one kind -/

theorem compare_floatRank? (u v : UnpackedFloat) :
    u.compare v = compareRanks? (floatRank? u) (floatRank? v) := by
  cases u with
  | notANumber => cases v <;> rfl
  | finite s m e hm =>
      cases v with
      | finite t n k hn =>
          cases s with
          | negative =>
              cases t with
              | negative =>
                  simp [UnpackedFloat.compare, floatRank?, compareRanks?, List.compare_cons_cons,
                    compare_neg, compare_natCast, Ordering.swap_then]
              | positive => rfl
          | positive =>
              cases t with
              | negative => rfl
              | positive =>
                  simp [UnpackedFloat.compare, floatRank?, compareRanks?, List.compare_cons_cons,
                    compare_natCast]
      | notANumber => cases s <;> rfl
      | _ t => cases s <;> cases t <;> rfl
  | _ s =>
      cases v with
      | finite t n k hn => cases s <;> cases t <;> rfl
      | notANumber => cases s <;> rfl
      | _ t => cases s <;> cases t <;> rfl

theorem compareDoubles?_eq_compareRanks? (x y : Float) : compareDoubles? x y =
    compareRanks? (floatRank? x.toModel.unpack) (floatRank? y.toModel.unpack) := by
  rw [compareDoubles?_eq, compare_floatRank?]

/-- All decimals have a common denominator. -/
theorem compare_decimal (d e : Decimal) : d.compare e =
    compare (d.signedCoefficient * 10 ^ (Decimal.maxScale - d.scale))
      (e.signedCoefficient * 10 ^ (Decimal.maxScale - e.scale)) := by
  -- Both sides stand over the product of the two scales.
  have hscale (f : Decimal) : (10 : Int) ^ f.scale * 10 ^ (Decimal.maxScale - f.scale)
      = 10 ^ Decimal.maxScale := by
    have hle : f.scale ≤ Decimal.maxScale := f.scale_le
    rw [← Int.pow_add, Nat.add_sub_cancel' hle]
  have hpositive : (0 : Int) < 10 ^ d.scale * 10 ^ e.scale := by positivity
  have hleft : d.signedCoefficient * 10 ^ (Decimal.maxScale - d.scale)
      * (10 ^ d.scale * 10 ^ e.scale) =
      d.signedCoefficient * 10 ^ e.scale * 10 ^ Decimal.maxScale := by
    rw [← hscale d]
    ring
  have hright : e.signedCoefficient * 10 ^ (Decimal.maxScale - e.scale)
      * (10 ^ d.scale * 10 ^ e.scale) =
      e.signedCoefficient * 10 ^ d.scale * 10 ^ Decimal.maxScale := by
    rw [← hscale e]
    ring
  rw [← compare_mul_right _ _ hpositive, hleft, hright, compare_mul_right _ _ (by positivity)]
  rfl

theorem compare_chars (s t : List Char) : compareOfLessAndEq s t =
    compare (s.map fun c => (c.toNat : Int)) (t.map fun c => (c.toNat : Int)) := by
  induction s generalizing t with
  | nil => cases t <;> rfl
  | cons a s ih =>
      cases t with
      | nil => rfl
      | cons b t =>
          rw [List.map_cons, List.map_cons, List.compare_cons_cons, compare_natCast, ← ih]
          simp only [compareOfLessAndEq, List.cons_lt_cons_iff, List.cons.injEq]
          rcases Nat.lt_trichotomy a.toNat b.toNat with hlt | heq | hgt
          · rw [Nat.compare_eq_lt.2 hlt, if_pos (.inl hlt)]
            rfl
          · obtain rfl : a = b := Char.toNat_inj.1 heq
            simp
          · have hlt : ¬a < b := Nat.lt_asymm hgt
            have hne : a ≠ b := fun heq => Nat.ne_of_gt hgt (congrArg Char.toNat heq)
            rw [Nat.compare_eq_gt.2 hgt]
            simp [hlt, hne]

theorem compareStrings_eq (s t : String) : compareStrings s t =
    compare (s.toList.map fun c => (c.toNat : Int)) (t.toList.map fun c => (c.toNat : Int)) := by
  rw [← compare_chars]
  simp only [compareStrings, compareOfLessAndEq, String.lt_iff, String.toList_inj]

theorem compareBytes_eq (s t : List UInt8) : compareBytes s t =
    compare (s.map fun b => (b.toNat : Int)) (t.map fun b => (b.toNat : Int)) := by
  induction s generalizing t with
  | nil => cases t <;> rfl
  | cons a s ih =>
      cases t with
      | nil => rfl
      | cons b t =>
          have hbyte : compare a b = compare a.toNat b.toNat := by
            simp only [compare, compareOfLessAndEq, UInt8.lt_iff_toNat_lt, UInt8.toNat_inj]
          rw [compareBytes, ih, List.map_cons, List.map_cons, List.compare_cons_cons,
            compare_natCast, hbyte]

/-! ## Ranks of one type -/

/-- Two scalars of one kind, which for enums is one type. -/
inductive SameKind : Value → Value → Prop
  | boolean (x y : Bool) : SameKind (boolean x) (boolean y)
  | byte (m n : UInt8) : SameKind (byte m) (byte n)
  | sbyte (m n : Int8) : SameKind (sbyte m) (sbyte n)
  | int16 (m n : Int16) : SameKind (int16 m) (int16 n)
  | int32 (m n : Int32) : SameKind (int32 m) (int32 n)
  | int64 (m n : Int64) : SameKind (int64 m) (int64 n)
  | single (x y : Float32) : SameKind (single x) (single y)
  | double (x y : Float) : SameKind (double x) (double y)
  | decimal (d e : Decimal) : SameKind (decimal d) (decimal e)
  | string (s t : String) : SameKind (string s) (string t)
  | binary (s t : List UInt8) : SameKind (binary s) (binary t)
  | date (d e : Date) : SameKind (date d) (date e)
  | dateTimeOffset (i j : Instant) : SameKind (dateTimeOffset i) (dateTimeOffset j)
  | timeOfDay (t u : TimeOfDay) : SameKind (timeOfDay t) (timeOfDay u)
  | duration (d e : Duration) : SameKind (duration d) (duration e)
  | guid (g h : Guid) : SameKind (guid g) (guid h)
  | enumeration (type : TypeKey) (m n : Int64) :
      SameKind (enumeration ⟨type, m⟩) (enumeration ⟨type, n⟩)

theorem sameKind_of_scalarType? (ha : a.scalarType? = some type) (hb : b.scalarType? = some type) :
    SameKind a b := by
  cases a with
  | null | record | collection => cases ha
  | enumeration e =>
      obtain rfl := Option.some.inj ha
      cases b with
      | enumeration e' =>
          obtain ⟨key, m⟩ := e
          obtain ⟨key', n⟩ := e'
          obtain rfl : key' = key := EdmType.enumeration.inj (Option.some.inj hb)
          exact .enumeration key' m n
      | _ => cases hb
  | _ =>
      cases ha
      cases b <;> cases hb
      constructor

theorem compare?_of_asInt64? {m n : Int64} (ha : a.asInt64? = some m) (hb : b.asInt64? = some n) :
    a.compare? b = some (compare m.toInt n.toInt) := by
  simp [compare?, compareNumbers?, isNumeric, isIntegral, ha, hb]

/-- Scalars of one type are compared as their ranks are. -/
theorem compare?_eq_compareRanks? (ha : a.scalarType? = some type)
    (hb : b.scalarType? = some type) : a.compare? b = compareRanks? a.rank? b.rank? := by
  cases sameKind_of_scalarType? ha hb with
  | boolean x y => cases x <;> cases y <;> rfl
  | byte | sbyte | int16 | int32 | int64 =>
      rw [compare?_of_asInt64? rfl rfl, ← compare_singleton]
      rfl
  | single | double => exact compareDoubles?_eq_compareRanks? _ _
  | decimal d e =>
      show some (d.compare e) = some _
      rw [compare_decimal, ← compare_singleton]
  | string s t => exact congrArg some (compareStrings_eq s t)
  | binary s t => exact congrArg some (compareBytes_eq s t)
  | date d e =>
      refine congrArg some ?_
      simp [Date.compare, List.compare_cons_cons, compare_natCast]
  | dateTimeOffset i j =>
      refine congrArg some ?_
      simp [Instant.compare, List.compare_cons_cons, compare_natCast]
  | timeOfDay t u =>
      refine congrArg some ?_
      simp [TimeOfDay.compare, List.compare_cons_cons, compare_natCast]
  | duration => exact congrArg some (compare_singleton _ _).symm
  | guid =>
      refine congrArg some ?_
      rw [compare_singleton, compare_natCast]
      rfl
  | enumeration type m n =>
      show (if type == type then some _ else none) = _
      rw [beq_self_eq_true, if_pos rfl, ← compare_singleton]
      rfl

/-- Only floating point numbers that are none have no rank. -/
theorem isNaN_of_rank? (ha : a.scalarType? = some type) (h : a.rank? = none) :
    a.isNaN = true := by
  have hfloat {u : UnpackedFloat} (hu : floatRank? u = none) : u.isNaN = true := by
    cases u with
    | notANumber => rfl
    | _ s => cases s <;> cases hu
  cases a with
  | single x => exact isNaN_of_widen (hfloat h)
  | double x => exact hfloat h
  | null | record | collection => cases ha
  | _ => cases h

/-! ## Seen from the other side -/

theorem compareRanks?_flip (s t : Option (List Int)) :
    compareRanks? t s = (compareRanks? s t).map Ordering.swap := by
  cases s with
  | none => cases t <;> rfl
  | some s =>
      cases t with
      | none => rfl
      | some t => exact congrArg some Std.OrientedOrd.eq_swap

theorem compare_decimal_flip (d e : Decimal) : e.compare d = (d.compare e).swap := by
  rw [compare_decimal, compare_decimal, Int.compare_swap]

theorem compareDoubles?_flip (x y : Float) :
    compareDoubles? y x = (compareDoubles? x y).map Ordering.swap := by
  rw [compareDoubles?_eq, compareDoubles?_eq, compare_swap]

theorem compareNumbers?_flip (a b : Value) :
    compareNumbers? b a = (compareNumbers? a b).map Ordering.swap := by
  -- What numbers are compared as does not depend on the side they stand on.
  have hexact : (!b.isFloating && !a.isFloating) = (!a.isFloating && !b.isFloating) :=
    Bool.and_comm _ _
  unfold compareNumbers?
  rw [hexact]
  generalize a.asInt64? = m
  generalize b.asInt64? = n
  generalize a.asDecimal? = d
  generalize b.asDecimal? = e
  generalize a.asDouble? = x
  generalize b.asDouble? = y
  rcases m with _ | m <;> rcases n with _ | n <;> dsimp only
  case some.some => exact congrArg some (Int.compare_swap _ _).symm
  all_goals
    split_ifs
    · rcases d with _ | d <;> rcases e with _ | e
      · rfl
      · rfl
      · rfl
      · exact congrArg some (compare_decimal_flip d e)
    · rcases x with _ | x <;> rcases y with _ | y
      · rfl
      · rfl
      · rfl
      · exact compareDoubles?_flip x y

/-- Values that are not both numbers only have an order as scalars of one type. -/
theorem compare?_eq_none (hnumbers : ¬(a.isNumeric && b.isNumeric) = true)
    (h : ∀ type, a.scalarType? = some type → b.scalarType? ≠ some type) : a.compare? b = none := by
  unfold compare?
  rw [if_neg hnumbers]
  split
  · exact absurd rfl (h _ rfl)
  · exact absurd rfl (h _ rfl)
  · exact absurd rfl (h _ rfl)
  · exact absurd rfl (h _ rfl)
  · exact absurd rfl (h _ rfl)
  · exact absurd rfl (h _ rfl)
  · exact absurd rfl (h _ rfl)
  · exact absurd rfl (h _ rfl)
  · rename_i x y
    rw [if_neg]
    intro heq
    refine h _ rfl ?_
    rw [beq_iff_eq.1 heq]
    rfl
  · rfl

/-- Seen from the other side, the order of two values is reversed. -/
theorem compare?_flip (a b : Value) : b.compare? a = (a.compare? b).map Ordering.swap := by
  by_cases hnumbers : (a.isNumeric && b.isNumeric) = true
  · have hnumbers' : (b.isNumeric && a.isNumeric) = true := by rw [Bool.and_comm, hnumbers]
    unfold compare?
    rw [if_pos hnumbers, if_pos hnumbers', compareNumbers?_flip]
  · by_cases htype : ∃ type, a.scalarType? = some type ∧ b.scalarType? = some type
    · obtain ⟨type, ha, hb⟩ := htype
      rw [compare?_eq_compareRanks? ha hb, compare?_eq_compareRanks? hb ha, compareRanks?_flip]
    · have hnumbers' : ¬(b.isNumeric && a.isNumeric) = true := by rwa [Bool.and_comm]
      rw [compare?_eq_none hnumbers fun type ha hb => htype ⟨type, ha, hb⟩,
        compare?_eq_none hnumbers' fun type hb ha => htype ⟨type, ha, hb⟩]
      rfl

end EntityQuery.Value
