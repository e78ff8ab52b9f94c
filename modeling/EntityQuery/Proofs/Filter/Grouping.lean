import EntityQuery.Filter.Chain

/-!
# Grouped chains

A chain is grouped if no operator stands directly above a weaker one, nor above one of its own
strength on the right.  The operator on top of a grouped chain is then the last one among the
weakest, so that operands and operators can be grouped in no more than one way.  The grouping of a
clause is that way.
-/

namespace EntityQuery.Filter.Chain

variable {chain left right other : Chain} {operator top : BinaryOperator} {e first : Expression}
  {links : List (BinaryOperator × Expression)}

/-- The topmost operator of a chain. -/
def top? : Chain → Option BinaryOperator
  | operand _ => none
  | join operator _ _ => some operator

/-- Every operator binds at most as tightly as the topmost one on its left, and less tightly than
the topmost one on its right. -/
inductive Grouped : Chain → Prop
  | operand (e : Expression) : Grouped (operand e)
  | join {operator : BinaryOperator} {left right : Chain}
      (hleft : ∀ top, left.top? = some top → operator.precedence ≤ top.precedence)
      (hright : ∀ top, right.top? = some top → operator.precedence < top.precedence)
      (hgroupedLeft : Grouped left) (hgroupedRight : Grouped right) :
      Grouped (join operator left right)

/-- The operators of a clause in levels, the loosest ones first. -/
def levels : List (List BinaryOperator) :=
  [[.eq, .ne], [.gt, .ge, .lt, .le], [.add, .sub], [.mul, .div, .mod], [.has]]

/-- Operators of one level are of one strength, and those of a later level bind more tightly. -/
theorem precedence_levels :
    (∀ level ∈ levels, ∀ a ∈ level, ∀ b ∈ level, a.precedence = b.precedence) ∧
      levels.Pairwise fun loose tight =>
        ∀ a ∈ loose, ∀ b ∈ tight, a.precedence < b.precedence := by
  decide

/-- All operators but `and` and `or` have a level. -/
theorem mem_levels (operator : BinaryOperator) :
    operator ∈ levels.flatten ↔ operator.isLogical = false := by
  cases operator <;> decide

/-! ## Grouping -/

/-- What is on top of a chain after an operator has been added was there before, or is that
operator. -/
theorem top?_attach (h : (attach operator e chain).top? = some top) :
    chain.top? = some top ∨ top = operator := by
  cases chain with
  | operand first => exact .inr (Option.some.inj h).symm
  | join other left right =>
      rw [attach] at h
      split at h
      · exact .inl h
      · exact .inr (Option.some.inj h).symm

theorem Grouped.attach (h : chain.Grouped) (operator : BinaryOperator) (e : Expression) :
    (chain.attach operator e).Grouped := by
  induction h with
  | operand first =>
      exact .join (fun _ htop => nomatch htop) (fun _ htop => nomatch htop) (.operand first)
        (.operand e)
  | @join other left right hleft hright hgroupedLeft hgroupedRight _ ih =>
      rw [Chain.attach]
      split
      · rename_i hlt
        -- The new operator goes down the right edge, where all operators are tight enough.
        refine .join hleft (fun top htop => ?_) hgroupedLeft ih
        rcases top?_attach htop with htop | rfl
        · exact hright top htop
        · exact hlt
      · rename_i hle
        refine .join (fun top htop => ?_) (fun _ htop => nomatch htop)
          (.join hleft hright hgroupedLeft hgroupedRight) (.operand e)
        obtain rfl := Option.some.inj htop
        exact Nat.le_of_not_lt hle

/-- Adding operators one after another keeps a chain grouped, and puts them behind the ones that are
there. -/
theorem foldl_attach (h : chain.Grouped) (links : List (BinaryOperator × Expression)) :
    (links.foldl (fun chain link => Chain.attach link.1 link.2 chain) chain).Grouped ∧
      (links.foldl (fun chain link => Chain.attach link.1 link.2 chain) chain).first =
        chain.first ∧
      (links.foldl (fun chain link => Chain.attach link.1 link.2 chain) chain).links =
        chain.links ++ links := by
  induction links generalizing chain with
  | nil => exact ⟨h, rfl, (List.append_nil _).symm⟩
  | cons link links ih =>
      obtain ⟨hgrouped, hfirst, hlinks⟩ := ih (h.attach link.1 link.2)
      refine ⟨hgrouped, hfirst.trans (first_attach ..), hlinks.trans ?_⟩
      rw [links_attach, List.append_assoc]
      rfl

/-! ## Uniqueness -/

/-- A bound on the strength of the operator on top is one for all operators. -/
theorem Grouped.le_precedence (h : chain.Grouped) {bound : Nat}
    (htop : ∀ top, chain.top? = some top → bound ≤ top.precedence) :
    ∀ link ∈ chain.links, bound ≤ link.1.precedence := by
  induction h with
  | operand e => exact fun _ hlink => nomatch hlink
  | @join operator left right hleft hright _ _ ihleft ihright =>
      have hoperator : bound ≤ operator.precedence := htop operator rfl
      intro link hlink
      rcases List.mem_append.1 hlink with hlink | hlink
      · exact ihleft (fun top h => Nat.le_trans hoperator (hleft top h)) link hlink
      · rcases List.mem_cons.1 hlink with rfl | hlink
        · exact hoperator
        · refine ihright (fun top h => ?_) link hlink
          exact Nat.le_trans hoperator (Nat.le_of_lt (hright top h))

/-- If the operator on top of one chain stood on the left of the one on top of another, it would be
both at least as strong as that one and weaker. -/
theorem eq_nil_of_split {operator other : BinaryOperator} {operand operand' : Expression}
    {left right between after : List (BinaryOperator × Expression)}
    (hleft : ∀ link ∈ left, other.precedence ≤ link.1.precedence)
    (hright : ∀ link ∈ right, operator.precedence < link.1.precedence)
    (hbetween : ∀ link ∈ between, link ∈ left)
    (h : (operator, operand) :: right = between ++ (other, operand') :: after) : between = [] := by
  cases between with
  | nil => rfl
  | cons link between =>
      obtain ⟨rfl, rfl⟩ := List.cons.inj h
      have hle := hleft _ (hbetween _ List.mem_cons_self)
      have hlt := hright (other, operand') (List.mem_append_right between List.mem_cons_self)
      exact absurd hle (Nat.not_le_of_lt hlt)

/-- Operands and operators can be grouped in one way at most. -/
theorem Grouped.eq (h : chain.Grouped) (hother : other.Grouped) (hfirst : chain.first = other.first)
    (hlinks : chain.links = other.links) : chain = other := by
  induction h generalizing other with
  | operand e =>
      cases hother with
      | operand e' => exact congrArg Chain.operand hfirst
      | join => simp [links] at hlinks
  | @join operator left right hleft hright hgroupedLeft hgroupedRight ihleft ihright =>
      cases hother with
      | operand e' => simp [links] at hlinks
      | @join operator' left' right' hleft' hright' hgroupedLeft' hgroupedRight' =>
          have hloose := hgroupedLeft.le_precedence hleft
          have htight := hgroupedRight.le_precedence hright
          have hloose' := hgroupedLeft'.le_precedence hleft'
          have htight' := hgroupedRight'.le_precedence hright'
          have hsplit : left.links = left'.links ∧
              (operator, right.first) :: right.links =
                (operator', right'.first) :: right'.links := by
            rcases List.append_eq_append_iff.1 hlinks with ⟨between, hfront, hback⟩ |
              ⟨between, hfront, hback⟩
            · obtain rfl := eq_nil_of_split hloose' htight (fun link h => by simp [hfront, h]) hback
              exact ⟨by simp [hfront], hback⟩
            · obtain rfl := eq_nil_of_split hloose htight' (fun link h => by simp [hfront, h]) hback
              exact ⟨by simp [hfront], hback.symm⟩
          obtain ⟨hlefts, hrights⟩ := hsplit
          obtain ⟨hheads, htails⟩ := List.cons.inj hrights
          obtain ⟨rfl, hfirsts⟩ := Prod.mk.inj hheads
          rw [ihleft hgroupedLeft' hfirst hlefts, ihright hgroupedRight' hfirsts htails]

/-- There is one grouped chain with given operands and operators, and grouping finds it. -/
theorem grouped_iff_eq_group {links : List (BinaryOperator × Expression)} :
    chain.Grouped ∧ chain.first = first ∧ chain.links = links ↔ chain = group first links := by
  obtain ⟨hgrouped, hfirst, hlinks⟩ := foldl_attach (.operand first) links
  constructor
  · rintro ⟨h, rfl, rfl⟩
    exact h.eq hgrouped hfirst.symm hlinks.symm
  · rintro rfl
    exact ⟨hgrouped, hfirst, hlinks⟩

example (a b c d : Expression) :
    (group a [(.add, b), (.mul, c), (.gt, d)]).toExpression =
      .binary .gt (.binary .add a (.binary .mul b c)) d := rfl

end EntityQuery.Filter.Chain
