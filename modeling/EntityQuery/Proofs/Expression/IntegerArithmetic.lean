import EntityQuery.Expression.Evaluation
import EntityQuery.Proofs.Result
import EntityQuery.Proofs.Value.Integers

/-!
# Integer arithmetic

The result of an operator on two integers is the exact one, in the kind in which the operands meet,
or it is refused: it is never wrapped around, although it is computed in 64 bits and narrowed
afterwards.

A quotient and a remainder are told by what they are to each other (`Division`): the remainder is
smaller than the divisor and has the sign of the dividend.  An operator is then specified by the
integers it `Gives`, and a result fits if the kind of the result has a value that denotes it.  The
only result that fits and is refused is the remainder that belongs to the one quotient that does not
fit 64 bits.
-/

namespace EntityQuery

open ArithmeticOperator (fits)

/-- The quotient and the remainder of `x` by `y`, with the quotient rounded toward zero. -/
structure Division (x y quotient remainder : Int) : Prop where
  sum : quotient * y + remainder = x
  small : remainder.natAbs < y.natAbs
  nonneg : 0 ≤ x → 0 ≤ remainder
  nonpos : x ≤ 0 → remainder ≤ 0

namespace ArithmeticOperator

/-- What an operator gives on integers, however large it is. -/
def Gives : ArithmeticOperator → Int → Int → Int → Prop
  | add, x, y, n => n = x + y
  | sub, x, y, n => n = x - y
  | mul, x, y, n => n = x * y
  | div, x, y, n => ∃ remainder, Division x y n remainder
  | mod, x, y, n => ∃ quotient, Division x y quotient n

/-- Division by zero. -/
def DividesByZero (operator : ArithmeticOperator) (y : Int) : Prop :=
  (operator = div ∨ operator = mod) ∧ y = 0

/-- The remainder of the smallest integer by the divisor that turns its sign. -/
def IsExcepted (operator : ArithmeticOperator) (x y : Int) : Prop :=
  operator = mod ∧ x = -2 ^ (63 : Nat) ∧ y = -1

/-- An outcome on two integers is exact or refused, in the kind it is to have. -/
structure ExactOrRefused (operator : ArithmeticOperator) (kind : PrimitiveKind) (x y : Int)
    (outcome : Except EvalError Value) : Prop where
  divisionByZero : outcome = .error .divisionByZero ↔ operator.DividesByZero y
  defined : ¬operator.DividesByZero y → ∃ n, operator.Gives x y n
  fitting : ∀ n v, operator.Gives x y n → ¬operator.IsExcepted x y → v.IsInteger kind n →
    outcome = .ok v
  refused : ∀ n, operator.Gives x y n →
    (operator.IsExcepted x y ∨ ∀ v : Value, ¬v.IsInteger kind n) →
    outcome = .error (.overflow operator.toBinary)

end ArithmeticOperator

variable {v a b : Value} {k l : PrimitiveKind} {n x y q r : Int}

/-! ## Quotients and remainders -/

theorem division_iff : Division x y q r ↔ y ≠ 0 ∧ q = x.tdiv y ∧ r = x.tmod y := by
  have hzero {r : Int} (hsmall : r.natAbs < y.natAbs) : y ≠ 0 := by omega
  constructor
  · rintro ⟨hsum, hsmall, hnonneg, hnonpos⟩
    have hsum' : r + y * q = x := by rw [Int.mul_comm, Int.add_comm]; exact hsum
    refine ⟨hzero hsmall, ?_⟩
    rcases Int.le_total 0 x with hx | hx
    · obtain ⟨hq, hr⟩ := (Int.tdiv_tmod_unique hx (hzero hsmall)).2
        ⟨hsum', hnonneg hx, by have := hnonneg hx; omega⟩
      exact ⟨hq.symm, hr.symm⟩
    · obtain ⟨hq, hr⟩ := (Int.tdiv_tmod_unique' hx (hzero hsmall)).2
        ⟨hsum', by have := hnonpos hx; omega, hnonpos hx⟩
      exact ⟨hq.symm, hr.symm⟩
  · rintro ⟨hy, rfl, rfl⟩
    refine ⟨?_, ?_, fun hx => Int.tmod_nonneg y hx, fun hx => ?_⟩
    · rw [Int.mul_comm, Int.mul_tdiv_add_tmod]
    · rw [Int.natAbs_tmod]
      exact Nat.mod_lt _ (by omega)
    · have hneg := Int.tmod_nonneg y (Int.neg_nonneg_of_nonpos hx)
      rw [Int.neg_tmod] at hneg
      omega

/-- A remainder lies between zero and the dividend, and so does the product with the divisor. -/
theorem Division.natAbs_le (h : Division x y q r) :
    r.natAbs ≤ x.natAbs ∧ (0 ≤ x → 0 ≤ q * y ∧ q * y ≤ x) ∧ (x ≤ 0 → x ≤ q * y ∧ q * y ≤ 0) := by
  have hle : r.natAbs ≤ x.natAbs := by
    obtain ⟨-, -, rfl⟩ := division_iff.1 h
    rw [Int.natAbs_tmod]
    exact Nat.mod_le _ _
  have hsum := h.sum
  refine ⟨hle, fun hx => ?_, fun hx => ?_⟩
  · have hr := h.nonneg hx
    omega
  · have hr := h.nonpos hx
    omega

/-- A quotient in 64 bits leaves them only at one place. -/
theorem fits_tdiv_iff (hx : fits 64 x = true) (hy : y ≠ 0) :
    fits 64 (x.tdiv y) = true ↔ ¬(x = -2 ^ (63 : Nat) ∧ y = -1) := by
  rw [fits_iff] at hx ⊢
  have habs : (x.tdiv y).natAbs = x.natAbs / y.natAbs := Int.natAbs_tdiv x y
  by_cases hone : y.natAbs = 1
  · rcases (by omega : y = 1 ∨ y = -1) with rfl | rfl
    · rw [Int.tdiv_one]
      omega
    · rw [Int.tdiv_neg, Int.tdiv_one]
      omega
  · have hhalf : x.natAbs / y.natAbs ≤ x.natAbs / 2 := Nat.div_le_div_left (by omega) (by decide)
    omega

/-! ## One operator -/

namespace ArithmeticOperator

variable {operator : ArithmeticOperator} {wide : Bool}

theorem dividesByZero_iff : (operator.divides && y == 0) = true ↔ operator.DividesByZero y := by
  cases operator <;> simp [divides, DividesByZero]

theorem gives_iff : operator.Gives x y n ↔ ¬operator.DividesByZero y ∧ n = operator.exact x y := by
  cases operator with
  | add | sub | mul => simp [Gives, DividesByZero, exact]
  | div | mod => simp [Gives, DividesByZero, exact, division_iff]

theorem applyIntegers_of_dividesByZero (h : operator.DividesByZero y) :
    operator.applyIntegers wide x y = .error .divisionByZero := by
  rw [applyIntegers, if_pos (dividesByZero_iff.2 h)]

/-- The quotient behind a remainder fits 64 bits, with one exception. -/
theorem onIntegers?_eq (hx : fits 64 x = true) (hzero : ¬operator.DividesByZero y)
    (hexcepted : ¬operator.IsExcepted x y) :
    operator.onIntegers? x y =
      if fits 64 (operator.exact x y) then some (operator.exact x y) else none := by
  have hquotient : ¬(operator == mod && !fits 64 (x.tdiv y)) = true := by
    simp only [Bool.and_eq_true, beq_iff_eq, Bool.not_eq_true', not_and, Bool.not_eq_false]
    rintro rfl
    have hy : y ≠ 0 := fun hy => hzero ⟨.inr rfl, hy⟩
    exact (fits_tdiv_iff hx hy).2 fun h => hexcepted ⟨rfl, h⟩
  rw [onIntegers?, if_neg hquotient]

/-- The result is narrowed if it fits, since what fits 32 bits fits 64 as well. -/
theorem applyIntegers_eq (wide : Bool) (hx : fits 64 x = true)
    (hzero : ¬operator.DividesByZero y) (hexcepted : ¬operator.IsExcepted x y) :
    operator.applyIntegers wide x y =
      if fits (if wide then 64 else 32) (operator.exact x y) then
        .ok (integerOf wide (operator.exact x y))
      else .error (.overflow operator.toBinary) := by
  rw [applyIntegers, if_neg (mt dividesByZero_iff.1 hzero), onIntegers?_eq hx hzero hexcepted]
  have hwide (h : fits 32 (operator.exact x y) = true) : fits 64 (operator.exact x y) = true := by
    rw [fits_iff] at h ⊢
    omega
  cases wide with
  | true => cases hfits : fits 64 (operator.exact x y) <;> simp [integerOf, hfits]
  | false =>
      cases hfits : fits 32 (operator.exact x y) with
      | true => simp [integerOf, hfits, hwide hfits]
      | false => cases fits 64 (operator.exact x y) <;> simp [hfits]

theorem applyIntegers_of_isExcepted (h : operator.IsExcepted x y) :
    operator.applyIntegers wide x y = .error (.overflow operator.toBinary) := by
  obtain ⟨rfl, rfl, rfl⟩ := h
  rfl

/-- Integers are computed exactly in 64 or in 32 bits, or refused. -/
theorem applyIntegers_exactOrRefused (operator : ArithmeticOperator) (wide : Bool)
    (hx : fits 64 x = true) (y : Int) :
    operator.ExactOrRefused (if wide then .int64 else .int32) x y
      (operator.applyIntegers wide x y) where
  divisionByZero := by
    refine ⟨fun h => ?_, applyIntegers_of_dividesByZero⟩
    by_cases hzero : operator.DividesByZero y
    · exact hzero
    · by_cases hexcepted : operator.IsExcepted x y
      · rw [applyIntegers_of_isExcepted hexcepted] at h
        cases h
      · rw [applyIntegers_eq wide hx hzero hexcepted] at h
        by_cases hfits : fits (if wide then 64 else 32) (operator.exact x y) = true
        · rw [if_pos hfits] at h
          cases h
        · rw [if_neg hfits] at h
          cases h
  defined := fun hzero => ⟨_, gives_iff.2 ⟨hzero, rfl⟩⟩
  fitting := by
    intro n v hgives hexcepted hv
    obtain ⟨hzero, rfl⟩ := gives_iff.1 hgives
    obtain ⟨hfits, rfl⟩ := (isInteger_iff wide).1 hv
    rw [applyIntegers_eq wide hx hzero hexcepted, if_pos hfits]
  refused := by
    intro n hgives h
    obtain ⟨hzero, rfl⟩ := gives_iff.1 hgives
    by_cases hexcepted : operator.IsExcepted x y
    · exact applyIntegers_of_isExcepted hexcepted
    · have hnone := h.resolve_left hexcepted (integerOf wide (operator.exact x y))
      rw [applyIntegers_eq wide hx hzero hexcepted,
        if_neg fun hfits => hnone ((isInteger_iff wide).2 ⟨hfits, rfl⟩)]

/-! ## Operands of any two kinds -/

theorem apply_of_isInteger (operator : ArithmeticOperator) (ha : a.IsInteger k x)
    (hb : b.IsInteger l y) :
    operator.apply a b = operator.applyIntegers (k.meeting l == .int64) x y := by
  obtain ⟨m, hm, rfl⟩ := ha.asInt64?
  obtain ⟨n, hn, rfl⟩ := hb.asInt64?
  have hmeeting : (a.primitiveKind?.bind fun k => b.primitiveKind?.bind k.promote) =
      some (k.meeting l) := by
    rw [ha.primitiveKind?, hb.primitiveKind?]
    exact promote_of_isInteger ha hb
  unfold apply
  rw [hmeeting, meeting_eq]
  cases hwide : k.meeting l == .int64 <;> simp [hm, hn]

/-- Two integers of any kinds give the exact result in the kind in which they meet, or none. -/
theorem apply_exactOrRefused (operator : ArithmeticOperator) (ha : a.IsInteger k x)
    (hb : b.IsInteger l y) : operator.ExactOrRefused (k.meeting l) x y (operator.apply a b) := by
  have h := applyIntegers_exactOrRefused operator (k.meeting l == .int64) ha.bounds.1 y
  rwa [← apply_of_isInteger operator ha hb, ← meeting_eq] at h

/-- A result that is handed out is the exact one. -/
theorem ExactOrRefused.exists_gives {operator : ArithmeticOperator}
    {outcome : Except EvalError Value} (h : operator.ExactOrRefused k x y outcome)
    (hok : outcome = .ok v) : ∃ n, operator.Gives x y n ∧ v.IsInteger k n := by
  have hzero : ¬operator.DividesByZero y := fun hzero => by
    rw [h.divisionByZero.2 hzero] at hok
    cases hok
  obtain ⟨n, hgives⟩ := h.defined hzero
  by_cases hrefused : operator.IsExcepted x y ∨ ∀ v : Value, ¬v.IsInteger k n
  · rw [h.refused n hgives hrefused] at hok
    cases hok
  · obtain ⟨hexcepted, hfits⟩ := not_or.1 hrefused
    obtain ⟨w, hw⟩ := Classical.not_forall_not.1 hfits
    obtain rfl := Except.ok.inj ((h.fitting n w hgives hexcepted hw).symm.trans hok)
    exact ⟨n, hgives, hw⟩

/-- Quotient times divisor plus remainder is the dividend again, in the kind of the quotient. -/
theorem apply_div_mul_add_mod {quotient remainder : Value} (ha : a.IsInteger k x)
    (hb : b.IsInteger l y) (hquotient : div.apply a b = .ok quotient)
    (hremainder : mod.apply a b = .ok remainder) :
    ∃ product sum, quotient.IsInteger (k.meeting l) (x.tdiv y) ∧
      mul.apply quotient b = .ok product ∧ product.IsInteger (k.meeting l) (x.tdiv y * y) ∧
      remainder.IsInteger (k.meeting l) (x.tmod y) ∧
      add.apply product remainder = .ok sum ∧ sum.IsInteger (k.meeting l) x := by
  obtain ⟨q, ⟨r, hdivision⟩, hq⟩ := (apply_exactOrRefused div ha hb).exists_gives hquotient
  obtain ⟨r', ⟨q', hdivision'⟩, hr⟩ := (apply_exactOrRefused mod ha hb).exists_gives hremainder
  obtain ⟨-, rfl, rfl⟩ := division_iff.1 hdivision
  obtain ⟨-, rfl, rfl⟩ := division_iff.1 hdivision'
  obtain ⟨-, hnonneg, hnonpos⟩ := hdivision.natAbs_le
  obtain ⟨hmeeting, hmeeting'⟩ := meeting_meeting k l
  -- Neither the product nor the sum leaves the range between zero and the dividend.
  have hbetween : (0 ≤ x.tdiv y * y ∧ x.tdiv y * y ≤ x) ∨ (x ≤ x.tdiv y * y ∧ x.tdiv y * y ≤ 0) :=
    (Int.le_total 0 x).imp hnonneg hnonpos
  have hself : (0 ≤ x ∧ x ≤ x) ∨ (x ≤ x ∧ x ≤ 0) := by omega
  obtain ⟨product, hproduct⟩ := exists_isInteger ha l hbetween
  obtain ⟨sum, hsum⟩ := exists_isInteger ha l hself
  have hmul := apply_exactOrRefused mul hq hb
  have hadd := apply_exactOrRefused add hproduct hr
  rw [hmeeting] at hmul
  rw [hmeeting'] at hadd
  refine ⟨product, sum, hq, ?_, hproduct, hr, ?_, hsum⟩
  · exact hmul.fitting _ product rfl (fun h => nomatch h.1) hproduct
  · exact hadd.fitting _ sum hdivision.sum.symm (fun h => nomatch h.1) hsum

end ArithmeticOperator

/-! ## Expressions -/

namespace Expression

open ArithmeticOperator

variable {left right : Expression} {record : Record} {bindings : Bindings}

/-- An arithmetic operator on operands that are integers. -/
theorem evaluate_arithmetic (operator : ArithmeticOperator)
    (hleft : evaluate record bindings left = .ok a)
    (hright : evaluate record bindings right = .ok b) (ha : a.IsInteger k x)
    (hb : b.IsInteger l y) :
    evaluate record bindings (.binary operator.toBinary left right) = operator.apply a b := by
  have hopen : leftDecides operator.toBinary a = false := by cases ha <;> rfl
  have hcompute : applyBinary operator.toBinary a b = compute operator a b := by
    cases operator <;> rfl
  have hnull : (a.isNull || b.isNull) = false := by cases ha <;> cases hb <;> rfl
  rw [evaluate, hleft, ok_bind, hopen, hright]
  simp only [Bool.false_eq_true, if_false]
  rw [ok_bind, hcompute, compute, hnull]
  rfl

/-- On integers of any two kinds an operator gives the exact result, in 64 bits if one of the
operands has 64 and in 32 bits otherwise, unless it does not fit or divides by zero.  A quotient and
a remainder make up the dividend again. -/
theorem integers_exact_or_refused (hleft : evaluate record bindings left = .ok a)
    (hright : evaluate record bindings right = .ok b) (ha : a.IsInteger k x)
    (hb : b.IsInteger l y) :
    (∀ operator : ArithmeticOperator, operator.ExactOrRefused (k.meeting l) x y
        (evaluate record bindings (.binary operator.toBinary left right))) ∧
      ∀ quotient remainder,
        evaluate record bindings (.binary .div left right) = .ok quotient →
        evaluate record bindings (.binary .mod left right) = .ok remainder →
        ∃ v, evaluate record bindings (.binary .add
            (.binary .mul (.binary .div left right) right) (.binary .mod left right)) = .ok v ∧
          v.IsInteger (k.meeting l) x := by
  have hevaluate (operator : ArithmeticOperator) :=
    evaluate_arithmetic operator hleft hright ha hb
  refine ⟨fun operator => ?_, fun quotient remainder hquotient hremainder => ?_⟩
  · rw [hevaluate]
    exact apply_exactOrRefused operator ha hb
  · obtain ⟨product, sum, hq, hproduct, hp, hr, hsum, hv⟩ := apply_div_mul_add_mod ha hb
      ((hevaluate .div).symm.trans hquotient) ((hevaluate .mod).symm.trans hremainder)
    have hmul := (evaluate_arithmetic .mul hquotient hright hq hb).trans hproduct
    exact ⟨sum, (evaluate_arithmetic .add hmul hremainder hp hr).trans hsum, hv⟩

/-- A number without a sign, and one with a sign. -/
def unsignedLiteral : Expression := .literal (.ofKind .byte "200" (.byte 200))

def signedLiteral : Expression := .literal (.ofKind .sbyte "-7" (.sbyte (-7)))

theorem integers_exact_or_refused_bytes :
    (Value.byte 200).IsInteger .byte 200 ∧ (Value.sbyte (-7)).IsInteger .sbyte (-7) ∧
      evaluate default [] (.binary .div unsignedLiteral signedLiteral) = .ok (.int32 (-28)) ∧
      evaluate default [] (.binary .mod unsignedLiteral signedLiteral) = .ok (.int32 4) ∧
      ∃ v, evaluate default [] (.binary .add
          (.binary .mul (.binary .div unsignedLiteral signedLiteral) signedLiteral)
          (.binary .mod unsignedLiteral signedLiteral)) = .ok v ∧ v.IsInteger .int32 200 := by
  have hleft : evaluate default [] unsignedLiteral = .ok (.byte 200) := rfl
  have hright : evaluate default [] signedLiteral = .ok (.sbyte (-7)) := rfl
  have ha : (Value.byte 200).IsInteger .byte 200 := .byte 200
  have hb : (Value.sbyte (-7)).IsInteger .sbyte (-7) := .sbyte (-7)
  obtain ⟨hresult, hlaw⟩ := integers_exact_or_refused hleft hright ha hb
  have hdivision : Division 200 (-7) (-28) 4 := ⟨by decide, by decide, by decide, by decide⟩
  have hdiv := (hresult .div).fitting (-28) (.int32 (-28)) ⟨4, hdivision⟩
    (fun h => nomatch h.1) (.int32 (-28))
  have hmod := (hresult .mod).fitting 4 (.int32 4) ⟨-28, hdivision⟩
    (fun h => by cases h.2.2) (.int32 4)
  exact ⟨ha, hb, hdiv, hmod, hlaw _ _ hdiv hmod⟩

end Expression

end EntityQuery
