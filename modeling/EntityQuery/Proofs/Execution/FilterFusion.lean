import EntityQuery.Proofs.Execution.Pipelines
import EntityQuery.Proofs.Sample

/-!
# Filters on top of each other

Where a filter with `p and q` comes to an end without an error, a filter with `q` on top of one with
`p` hands out the same records.  Where one with `p or q` does, it keeps the records on which `p` is
true, and of the others those on which `q` is.

The two sides do not evaluate the same expressions.  A left operand that is null leaves the right
one to be looked at, while a filter drops the record, and an operand that is no truth value fails in
the one place and may never be met in the other.  What is needed is only that a logical operator
that has a value has it from truth values: then each side drops a record that the other drops.
-/

namespace EntityQuery

open ListProgram

/-! ## Logical operators that have a value -/

namespace Expression

variable {p q : Expression} {record : Record} {bindings : Bindings} {operator : BinaryOperator}
  {v : Value} {b : Bool}

/-- A truth value, or null, as a value. -/
def ofTruth : Option Bool → Value
  | some b => .boolean b
  | none => .null

/-- Is an expression true on a record?  It is not if it is null, and not if it fails. -/
def isTrueOn (e : Expression) (record : Record) : Bool :=
  match e.evaluateOn record with
  | .ok (.boolean b) => b
  | _ => false

theorem logicalOperand_eq_ok {truth : Option Bool} (h : logicalOperand operator v = .ok truth) :
    v = ofTruth truth := by
  cases v with
  | boolean b => cases h; rfl
  | null => cases h; rfl
  | _ => cases h

theorem test_of_evaluateOn {e : Expression} {truth : Option Bool}
    (h : e.evaluateOn record = .ok (ofTruth truth)) :
    e.test record = .ok (truth == some true) ∧ e.isTrueOn record = (truth == some true) := by
  rw [test, isTrueOn, h]
  rcases truth with _ | _ | _ <;> exact ⟨rfl, rfl⟩

theorem isTrueOn_of_test {e : Expression} (h : e.test record = .ok b) : b = e.isTrueOn record := by
  obtain ⟨v, hv, htruth⟩ := bind_eq_ok.1 h
  rw [isTrueOn, hv]
  cases v with
  | boolean c => exact (Except.ok.inj htruth).symm
  | null => exact (Except.ok.inj htruth).symm
  | _ => cases htruth

/-- The value of a logical operator comes from its left operand alone, or from both. -/
theorem evaluate_logical (hlogical : operator.isLogical = true)
    (h : evaluate record bindings (.binary operator p q) = .ok v) :
    ∃ left, evaluate record bindings p = .ok (ofTruth left) ∧
      (left = some (deciding operator) ∧ v = ofTruth left ∨
        ∃ right, evaluate record bindings q = .ok (ofTruth right) ∧
          v = combineTruth operator left right) := by
  rw [evaluate] at h
  obtain ⟨l, hl, h⟩ := bind_eq_ok.1 h
  cases hdecides : leftDecides operator l with
  | true =>
      rw [hdecides] at h
      obtain rfl := pure_eq_ok.1 h
      cases l with
      | boolean b =>
          simp only [leftDecides, hlogical, Bool.true_and, beq_iff_eq] at hdecides
          exact ⟨some b, hl, .inl ⟨congrArg some hdecides, rfl⟩⟩
      | _ => cases hdecides
  | false =>
      rw [hdecides] at h
      obtain ⟨r, hr, h⟩ := bind_eq_ok.1 h
      have hjoin : joinTruth operator l r = .ok v := by
        cases operator <;> first | exact h | cases hlogical
      obtain ⟨left, hleft, hjoin⟩ := bind_eq_ok.1 hjoin
      obtain ⟨right, hright, hjoin⟩ := bind_eq_ok.1 hjoin
      obtain rfl := pure_eq_ok.1 hjoin
      rw [logicalOperand_eq_ok hleft] at hl
      rw [logicalOperand_eq_ok hright] at hr
      exact ⟨left, hl, .inr ⟨right, hr, rfl⟩⟩

theorem truthOf_combineTruth_and (e : Expression) (left right : Option Bool) :
    truthOf e (combineTruth .and left right) = .ok (left == some true && right == some true) := by
  rcases left with _ | _ | _ <;> rcases right with _ | _ | _ <;> rfl

theorem truthOf_combineTruth_or (e : Expression) (left right : Option Bool) :
    truthOf e (combineTruth .or left right) = .ok (left == some true || right == some true) := by
  rcases left with _ | _ | _ <;> rcases right with _ | _ | _ <;> rfl

/-- Where a conjunction has a truth value, either its first operand drops the record as well, or it
lets the record through and the second one decides as the conjunction does. -/
theorem test_and (h : test (.binary .and p q) record = .ok b) :
    (p.test record = .ok false ∧ b = false) ∨
      (p.test record = .ok true ∧ q.test record = .ok b) := by
  obtain ⟨v, hv, htruth⟩ := bind_eq_ok.1 h
  obtain ⟨left, hleft, ⟨rfl, rfl⟩ | ⟨right, hright, rfl⟩⟩ := evaluate_logical rfl hv
  · exact .inl ⟨(test_of_evaluateOn hleft).1, (Except.ok.inj htruth).symm⟩
  · rw [truthOf_combineTruth_and] at htruth
    obtain rfl := Except.ok.inj htruth
    rw [(test_of_evaluateOn hleft).1, (test_of_evaluateOn hright).1]
    cases left == some true with
    | false => exact .inl ⟨rfl, rfl⟩
    | true => exact .inr ⟨rfl, rfl⟩

/-- Where a disjunction has a truth value, it is true if its left operand is, and otherwise if its
right operand is. -/
theorem test_or (h : test (.binary .or p q) record = .ok b) :
    b = (p.isTrueOn record || !p.isTrueOn record && q.isTrueOn record) := by
  obtain ⟨v, hv, htruth⟩ := bind_eq_ok.1 h
  obtain ⟨left, hleft, ⟨rfl, rfl⟩ | ⟨right, hright, rfl⟩⟩ := evaluate_logical rfl hv
  · rw [(test_of_evaluateOn hleft).2]
    exact (Except.ok.inj htruth).symm
  · rw [truthOf_combineTruth_or] at htruth
    obtain rfl := Except.ok.inj htruth
    rw [(test_of_evaluateOn hleft).2, (test_of_evaluateOn hright).2]
    cases left == some true <;> rfl

end Expression

/-! ## Filters on lists -/

/-- Two tests one after the other do what one test does that has an answer on every item. -/
theorem Flow.collect_filter_filter {α : Type} {test first second : α → Except QueryError Bool}
    {as kept : List α}
    (htest : ∀ a b, test a = .ok b →
      (first a = .ok false ∧ b = false) ∨ (first a = .ok true ∧ second a = .ok b))
    (h : keep test as = .ok kept) :
    (((ofList as).filter first).filter second).collect = .ok kept := by
  induction as generalizing kept with
  | nil => exact h
  | cons a as ih =>
      obtain ⟨b, others, hb, hothers, rfl⟩ := keep_cons_eq_ok h
      have hrest := ih hothers
      rw [ofList, filter]
      rcases htest a b hb with ⟨hfirst, rfl⟩ | ⟨hfirst, hsecond⟩
      · rw [hfirst]
        exact hrest
      · rw [hfirst]
        simp only [filter, hsecond]
        cases b with
        | true => rw [collect, hrest]; rfl
        | false => exact hrest

/-! ## Pipelines -/

namespace Pipeline

variable {p q : Expression}

theorem passes_eq_ok {predicate : Expression} {record : Record} {b : Bool} :
    passes predicate record = .ok b ↔ predicate.test record = .ok b := mapError_eq_ok

theorem collect_filter (predicate : Expression) (records : List Record) :
    (build records [.filter predicate]).collect = keep (passes predicate) records := by
  rw [collect_build, ← Flow.collect_filter_ofList]
  rfl

/-- A filter with a conjunction can be taken apart into two filters wherever it does not fail, and
one with a disjunction keeps what one or, failing that, the other condition is true of. -/
theorem filter_fusion (p q : Expression) (records : List Record) :
    (∀ kept, (build records [.filter (.binary .and p q)]).collect = .ok kept →
        (build records [.filter p, .filter q]).collect = .ok kept) ∧
      ∀ kept, (build records [.filter (.binary .or p q)]).collect = .ok kept →
        kept = records.filter fun record =>
          p.isTrueOn record || !p.isTrueOn record && q.isTrueOn record := by
  constructor
  · intro kept hkept
    rw [collect_filter] at hkept
    rw [collect_build]
    refine Flow.collect_filter_filter (fun record b hb => ?_) hkept
    simp only [passes_eq_ok] at hb ⊢
    exact Expression.test_and hb
  · intro kept hkept
    rw [collect_filter] at hkept
    exact keep_eq_filter (fun record b hb => Expression.test_or (passes_eq_ok.1 hb)) hkept

open Sample

/-- `Price gt 10` -/
def samplePrice : Expression :=
  .binary .gt (.path (Sample.step itemKey "Price" (.primitive .int64)) none)
    (.literal (.ofKind .int32 "10" (.int32 10)))

/-- `Parts/any()` -/
def sampleParts : Expression :=
  .lambda .any (.path (Sample.step itemKey "Parts" (.collection (.complex partKey))) none) "" none

theorem filter_fusion_items :
    (build [bolt, nut, hinge] [.filter (.binary .and samplePrice sampleParts)]).collect
        = .ok [bolt] ∧
      (build [bolt, nut, hinge] [.filter samplePrice, .filter sampleParts]).collect
        = .ok [bolt] ∧
      (build [bolt, nut, hinge] [.filter (.binary .or samplePrice sampleParts)]).collect
        = .ok [bolt, hinge] ∧
      [bolt, hinge] = [bolt, nut, hinge].filter fun record => samplePrice.isTrueOn record ||
        !samplePrice.isTrueOn record && sampleParts.isTrueOn record := by
  obtain ⟨hand, hor⟩ := filter_fusion samplePrice sampleParts [bolt, nut, hinge]
  have hboth : (build [bolt, nut, hinge] [.filter (.binary .and samplePrice sampleParts)]).collect
      = .ok [bolt] := by
    rw [collect_filter]
    rfl
  have heither : (build [bolt, nut, hinge] [.filter (.binary .or samplePrice sampleParts)]).collect
      = .ok [bolt, hinge] := by
    rw [collect_filter]
    rfl
  exact ⟨hboth, hand _ hboth, heither, hor _ heither⟩

end Pipeline

end EntityQuery
