import EntityQuery.Options.Policy
import EntityQuery.Proofs.Expression.Positions
import EntityQuery.Proofs.Result
import EntityQuery.Proofs.Sample

/-!
# What a policy admits

A query passes its check exactly if the policy admits it: every option is allowed, so many records
may be asked for, and every operator and function in the filter is allowed, however deep it stands.
If nothing but the filter is at fault, the error names the operator or function at the first
position that the policy does not permit (`check_admits_or_names_first`).
-/

namespace EntityQuery

/-- An item is in a list, or there is no list. -/
def Listed {α : Type} (list : Option (List α)) (item : α) : Prop :=
  ∀ allowed, list = some allowed → item ∈ allowed

/-- The word for the operator or function that an expression applies. -/
def Expression.symbol? : Expression → Option String
  | binary operator _ _ => some operator.keyword
  | unary operator _ => some operator.keyword
  | call function _ => some function.name
  | literal _ | path _ _ | lambda _ _ _ _ => none

/-- A fault names the operator or function that an expression applies. -/
inductive ValidationError.Names : Expression → ValidationError → Prop
  | binary (operator : BinaryOperator) (left right : Expression) :
      Names (.binary operator left right) (.operatorNotAllowed operator)
  | unary (operator : UnaryOperator) (operand : Expression) :
      Names (.unary operator operand) (.unaryNotAllowed operator)
  | call (function : Function) (arguments : List Expression) :
      Names (.call function arguments) (.functionNotAllowed function)

namespace Policy

variable {policy : Policy} {query : Query} {e tree : Expression} {fault : ValidationError}
  {value : Option ValidationError} {α : Type}

/-! ## What is admitted -/

/-- The operator or function that an expression applies may be used. -/
def Permits (policy : Policy) : Expression → Prop
  | .binary operator _ _ => Listed policy.operators operator
  | .unary operator _ => Listed policy.unaryOperators operator
  | .call function _ => Listed policy.functions function
  | .literal _ | .path _ _ | .lambda _ _ _ _ => True

/-- All options that are present may be used. -/
def AdmitsOptions (policy : Policy) (query : Query) : Prop :=
  ∀ option ∈ query.raw.options, Listed policy.options option

/-- If a number of records is asked for, it can be read and is not too large. -/
def AdmitsTop (policy : Policy) (query : Query) : Prop :=
  ∀ text, query.raw.value? .top = some text →
    ∃ n, Query.readCount .top text = .ok n ∧ ∀ limit, policy.maxTop = some limit → n ≤ limit

/-- A text is read as an expression that can be used as the filter of a query. -/
def Filters (query : Query) (text : String) (tree : Expression) : Prop :=
  Filter.parse query.model query.type text = .ok tree ∧ tree.checkPredicate query.model = .ok ()

/-- Every operator and function in an expression may be used. -/
def PermitsAll (policy : Policy) (tree : Expression) : Prop :=
  ∀ position e, tree.at? position = some e → policy.Permits e

/-- If there is a filter, it can be read, and every operator and function in it may be used. -/
def AdmitsFilter (policy : Policy) (query : Query) : Prop :=
  ∀ text, query.raw.value? .filter = some text →
    ∃ tree, Filters query text tree ∧ policy.PermitsAll tree

/-! ## The checks one by one -/

theorem allows_iff [DecidableEq α] {list : Option (List α)} {item : α} :
    allows list item = true ↔ Listed list item := by
  simp [allows, Listed, Option.all_eq_true]

theorem nodeFault?_eq_none_iff : policy.nodeFault? e = none ↔ policy.Permits e := by
  cases e with
  | binary operator | unary operator | call function =>
      rw [Permits, ← allows_iff, nodeFault?]
      split <;> simp_all
  | literal | path | lambda => simp [Permits, nodeFault?]

theorem names_of_nodeFault? (h : policy.nodeFault? e = some fault) : fault.Names e := by
  cases e with
  | binary | unary | call =>
      rw [nodeFault?] at h
      split at h
      · cases h
      · rw [← Option.some.inj h]
        constructor
  | literal | path | lambda => cases h

theorem filterFault?_eq_none_iff : policy.filterFault? tree = none ↔ policy.PermitsAll tree := by
  simp only [filterFault?, Expression.findSome?_nodes_eq_none_iff, nodeFault?_eq_none_iff,
    PermitsAll]

theorem refuse_eq_ok_iff {u : Unit} : refuse value = .ok u ↔ value = none := by
  cases value <;> simp [refuse]

theorem forbiddenOption?_eq_none_iff :
    policy.forbiddenOption? query.raw = none ↔ policy.AdmitsOptions query := by
  simp [forbiddenOption?, List.find?_eq_none, AdmitsOptions, allows_iff]

/-- What an option says has been read if it is there. -/
theorem option_eq_ok_iff {option : SystemOption} {read : String → Except QueryError α}
    {result : Option α} : query.option option read = .ok result ↔
      (query.raw.value? option = none ∧ result = none) ∨
        ∃ text a, query.raw.value? option = some text ∧ read text = .ok a ∧ result = some a := by
  unfold Query.option
  cases query.raw.value? option with
  | none => simp [eq_comm]
  | some text =>
      simp only [map_eq_ok, reduceCtorEq, false_and, false_or]
      constructor
      · rintro ⟨a, ha, rfl⟩
        exact ⟨text, a, rfl, ha, rfl⟩
      · rintro ⟨other, a, hother, ha, rfl⟩
        exact ⟨a, Option.some.inj hother ▸ ha, rfl⟩

theorem topFault?_eq_none_iff {top : Option Nat} : policy.topFault? top = none ↔
    ∀ n, top = some n → ∀ limit, policy.maxTop = some limit → n ≤ limit := by
  unfold topFault?
  split
  · rename_i found limit htop hlimit
    simp [hlimit]
  · rename_i hnone
    simp only [true_iff]
    rintro n rfl limit hlimit
    exact absurd hlimit (hnone n limit rfl)

theorem admitsTop_iff : policy.AdmitsTop query ↔
    ∃ top, query.top = .ok top ∧ policy.topFault? top = none := by
  simp only [topFault?_eq_none_iff]
  constructor
  · intro hadmits
    cases hvalue : query.raw.value? .top with
    | none => exact ⟨none, option_eq_ok_iff.2 (.inl ⟨hvalue, rfl⟩), fun n hn => by cases hn⟩
    | some text =>
        obtain ⟨n, hread, hlimit⟩ := hadmits text hvalue
        refine ⟨some n, option_eq_ok_iff.2 (.inr ⟨text, n, hvalue, hread, rfl⟩), fun m hm => ?_⟩
        rwa [← Option.some.inj hm]
  · rintro ⟨top, htop, hlimit⟩ text hvalue
    rcases option_eq_ok_iff.1 htop with ⟨hnone, -⟩ | ⟨other, n, hother, hread, rfl⟩
    · rw [hvalue] at hnone
      cases hnone
    · obtain rfl := Option.some.inj (hvalue.symm.trans hother)
      exact ⟨n, hread, hlimit n rfl⟩

theorem parseFilter_eq_ok_iff {text : String} :
    Filter.parseFilter query.model query.type text = .ok tree ↔ Filters query text tree := by
  simp only [Filter.parseFilter, bind_eq_ok, pure_eq_ok, Filters]
  constructor
  · rintro ⟨e, hparse, u, hcheck, rfl⟩
    exact ⟨hparse, hcheck⟩
  · rintro ⟨hparse, hcheck⟩
    exact ⟨tree, hparse, (), hcheck, rfl⟩

theorem admitsFilter_iff : policy.AdmitsFilter query ↔
    ∃ filter, query.filter = .ok filter ∧ filter.bind policy.filterFault? = none := by
  constructor
  · intro hadmits
    cases hvalue : query.raw.value? .filter with
    | none => exact ⟨none, option_eq_ok_iff.2 (.inl ⟨hvalue, rfl⟩), rfl⟩
    | some text =>
        obtain ⟨tree, hfilters, hpermits⟩ := hadmits text hvalue
        have hread := parseFilter_eq_ok_iff.2 hfilters
        exact ⟨some tree, option_eq_ok_iff.2 (.inr ⟨text, tree, hvalue, hread, rfl⟩),
          filterFault?_eq_none_iff.2 hpermits⟩
  · rintro ⟨filter, hfilter, hfault⟩ text hvalue
    rcases option_eq_ok_iff.1 hfilter with ⟨hnone, -⟩ | ⟨other, tree, hother, hread, rfl⟩
    · rw [hvalue] at hnone
      cases hnone
    · obtain rfl := Option.some.inj (hvalue.symm.trans hother)
      exact ⟨tree, parseFilter_eq_ok_iff.1 hread, filterFault?_eq_none_iff.1 hfault⟩

/-! ## The check as a whole -/

theorem check_eq_ok_iff : policy.check query = .ok () ↔
    policy.AdmitsOptions query ∧ policy.AdmitsTop query ∧ policy.AdmitsFilter query := by
  rw [admitsTop_iff, admitsFilter_iff, ← forbiddenOption?_eq_none_iff]
  simp only [check, bind_eq_ok, refuse_eq_ok_iff, Option.map_eq_none_iff]
  constructor
  · rintro ⟨-, hoptions, top, htop, -, hlimit, filter, hfilter, hfault⟩
    exact ⟨hoptions, ⟨top, htop, hlimit⟩, filter, hfilter, hfault⟩
  · rintro ⟨hoptions, ⟨top, htop, hlimit⟩, filter, hfilter, hfault⟩
    exact ⟨(), hoptions, top, htop, (), hlimit, filter, hfilter, hfault⟩

/-- If the options and the number of records are admitted, the filter decides. -/
theorem check_of_filters {text : String} (hoptions : policy.AdmitsOptions query)
    (htop : policy.AdmitsTop query) (hvalue : query.raw.value? .filter = some text)
    (hfilters : Filters query text tree) :
    policy.check query = refuse (policy.filterFault? tree) := by
  obtain ⟨top, hread, hlimit⟩ := admitsTop_iff.1 htop
  have hfilter : query.filter = .ok (some tree) :=
    option_eq_ok_iff.2 (.inr ⟨text, tree, hvalue, parseFilter_eq_ok_iff.2 hfilters, rfl⟩)
  rw [check, forbiddenOption?_eq_none_iff.2 hoptions, hread, hfilter]
  simp only [ok_bind, hlimit]
  rfl

theorem target_of_names (h : fault.Names e) : fault.report.target = e.symbol? := by
  cases h <;> rfl

/-- What a policy does not permit is refused by the name of what is found first. -/
theorem exists_first_fault (h : ¬policy.PermitsAll tree) :
    ∃ position e fault, tree.at? position = some e ∧ ¬policy.Permits e ∧ fault.Names e ∧
      (∀ earlier < position, ∀ other, tree.at? earlier = some other → policy.Permits other) ∧
      policy.filterFault? tree = some fault := by
  obtain ⟨fault, hfault⟩ := Option.ne_none_iff_exists'.1 (mt filterFault?_eq_none_iff.1 h)
  obtain ⟨position, e, he, hnode, hfirst⟩ := Expression.exists_first_of_findSome?_nodes hfault
  refine ⟨position, e, fault, he, fun hpermits => ?_, names_of_nodeFault? hnode,
    fun earlier hearlier other hother => ?_, hfault⟩
  · rw [nodeFault?_eq_none_iff.2 hpermits] at hnode
    cases hnode
  · exact nodeFault?_eq_none_iff.1 (hfirst earlier hearlier other hother)

/-- A query passes its check exactly if its options, the number of records it asks for and all of
its filter are admitted.  If all but the operators and functions of the filter are, the error names
the first of them that is not permitted. -/
theorem check_admits_or_names_first (policy : Policy) (query : Query) :
    (policy.check query = .ok () ↔
      policy.AdmitsOptions query ∧ policy.AdmitsTop query ∧ policy.AdmitsFilter query) ∧
    ∀ text tree, policy.AdmitsOptions query → policy.AdmitsTop query →
      query.raw.value? .filter = some text → Filters query text tree → ¬policy.PermitsAll tree →
      ∃ position e fault, tree.at? position = some e ∧ ¬policy.Permits e ∧
        (∀ earlier < position, ∀ other, tree.at? earlier = some other → policy.Permits other) ∧
        policy.check query = .error (.validation fault) ∧
        fault.Names e ∧ fault.report.target = e.symbol? := by
  refine ⟨check_eq_ok_iff, fun text tree hoptions htop hvalue hfilters hrefused => ?_⟩
  obtain ⟨position, e, fault, he, hnot, hnames, hfirst, hfault⟩ := exists_first_fault hrefused
  refine ⟨position, e, fault, he, hnot, hfirst, ?_, hnames, target_of_names hnames⟩
  rw [check_of_filters hoptions htop hvalue hfilters, hfault, refuse]

/-- A query with the sample filter and nothing else. -/
def filterQuery : Query :=
  ⟨Sample.model, Sample.items,
    ⟨[(.filter, "$filter=Price add 1 gt 10 and not Parts/any(p:p/Count eq null)")]⟩⟩

/-- Equality is not among the operators. -/
def withoutEquality : Policy := ⟨none, some [.and, .gt, .add], none, none, none⟩

/-- An operator that is not allowed stands in the body of a lambda. -/
theorem check_admits_or_names_first_sample :
    withoutEquality.AdmitsOptions filterQuery ∧ withoutEquality.AdmitsTop filterQuery ∧
      Filters filterQuery "Price add 1 gt 10 and not Parts/any(p:p/Count eq null)" Sample.filter ∧
      ¬withoutEquality.PermitsAll Sample.filter ∧
      ∃ position e fault, Sample.filter.at? position = some e ∧ ¬withoutEquality.Permits e ∧
        withoutEquality.check filterQuery = .error (.validation fault) ∧ fault.Names e := by
  have hoptions : withoutEquality.AdmitsOptions filterQuery :=
    fun _ _ allowed hallowed => by cases hallowed
  have htop : withoutEquality.AdmitsTop filterQuery := fun text htext => by cases htext
  have hfilters : Filters filterQuery "Price add 1 gt 10 and not Parts/any(p:p/Count eq null)"
      Sample.filter := ⟨rfl, rfl⟩
  have hrefused : ¬withoutEquality.PermitsAll Sample.filter := by
    intro hpermits
    have hlisted := hpermits [1, 0, 1] _ rfl _ rfl
    simp at hlisted
  obtain ⟨position, e, fault, he, hnot, -, hcheck, hnames, -⟩ :=
    (check_admits_or_names_first withoutEquality filterQuery).2 _ _ hoptions htop rfl hfilters
      hrefused
  exact ⟨hoptions, htop, hfilters, hrefused, position, e, fault, he, hnot, hcheck, hnames⟩

example : withoutEquality.check filterQuery = .error (.validation (.operatorNotAllowed .eq)) := rfl

end Policy

end EntityQuery
