import EntityQuery.Proofs.Expression.Soundness

/-!
# Nothing is missing in what was read

An expression is well formed in a scope if whatever it refers to is there: the parameters of paths
are bound by lambdas around them, paths lead on from what they begin at, lambdas range over records
under names that are still free, and functions have the arguments they ask for.  What the reader
yields is well formed.

Evaluation keeps a list of the records that parameters stand for.  The list grows with the scope,
whatever the records are, so no parameter is looked up in vain.  This takes nothing from the types
of the values: it holds on records that have none of the properties of the model.
-/

namespace EntityQuery

open EntityQuery.Filter

/-! ## Evaluations in which nothing is missing -/

/-- Failures for which an expression and not a record is to blame. -/
def EvalError.isInternal : EvalError → Bool
  | .unboundParameter _ | .missingArgument _ _ _ => true
  | _ => false

/-- If an evaluation fails, then not because something is missing in the expression. -/
def Intact {α : Type} (x : Except EvalError α) : Prop :=
  ∀ e, x = .error e → e.isInternal = false

namespace Intact

variable {α β : Type} {x : Except EvalError α} {e : EvalError}

theorem ok (a : α) : Intact (.ok a) := FailsWithout.ok a

theorem error (h : e.isInternal = false) : Intact (.error e : Except EvalError α) :=
  FailsWithout.error h

theorem bind {f : α → Except EvalError β} (h : Intact x) (hf : ∀ a, x = .ok a → Intact (f a)) :
    Intact (x >>= f) :=
  FailsWithout.bind h hf

theorem map (h : Intact x) (f : α → β) : Intact (x.map f) := FailsWithout.map f h

end Intact

/-! ## Functions -/

namespace Function

variable {function : Function} {arguments : List Value}

theorem argument_intact {α : Type} {place : Nat} (hplace : place < arguments.length)
    (read : Value → Option α) : Intact (function.argument arguments read place) := by
  rw [argument, List.getElem?_eq_getElem hplace]
  dsimp only
  split
  · exact .ok _
  · exact .error rfl

/-- A function finds all arguments it asks for. -/
theorem value_intact (h : function.accepts arguments.length = true) :
    Intact (function.value arguments) := by
  have hlength : function.minArity ≤ arguments.length := by
    simp only [accepts, Bool.and_eq_true, decide_eq_true_eq] at h
    exact h.1
  have hfirst : 0 < arguments.length := by
    refine Nat.lt_of_lt_of_le ?_ hlength
    cases function <;> decide
  unfold value
  dsimp only
  cases function with
  | contains | startsWith | endsWith | indexOf =>
      apply (argument_intact hlength _).bind
      intro part _
      exact (argument_intact hfirst _).bind fun whole _ => .ok _
  | concat =>
      apply (argument_intact hfirst _).bind
      intro front _
      exact (argument_intact hlength _).bind fun back _ => .ok _
  | substring =>
      apply (argument_intact hlength _).bind
      intro start _
      apply (argument_intact hfirst _).bind
      intro whole _
      -- The third argument is asked for only if there is one.
      split
      · rename_i hthree
        exact (argument_intact hthree _).bind fun count _ => .ok _
      · exact .ok _
  | round | floor | ceiling => exact argument_intact hfirst _
  | _ => exact (argument_intact hfirst _).bind fun _ _ => .ok _

theorem apply_intact (h : function.accepts arguments.length = true) :
    Intact (function.apply arguments) := by
  rw [apply]
  split
  · exact .ok _
  · exact value_intact h

end Function

/-! ## Operators -/

namespace ArithmeticOperator

theorem applyIntegers_intact (operator : ArithmeticOperator) (wide : Bool) (a b : Int) :
    Intact (operator.applyIntegers wide a b) := by
  unfold applyIntegers
  split
  · exact .error rfl
  · split
    · exact .error rfl
    · split
      · exact .ok _
      · split
        · exact .ok _
        · exact .error rfl

theorem applyDecimals_intact (operator : ArithmeticOperator) (a b : Decimal) :
    Intact (operator.applyDecimals a b) := by
  unfold applyDecimals
  split
  · exact .error rfl
  · split
    · exact .ok _
    · exact .error rfl

theorem apply_intact (operator : ArithmeticOperator) (left right : Value) :
    Intact (operator.apply left right) := by
  unfold apply
  dsimp only
  split
  -- Whatever the numbers meet in, they are computed there, or refused.
  all_goals try split
  all_goals first
    | exact applyIntegers_intact _ _ _ _
    | exact applyDecimals_intact _ _ _
    | exact .ok _
    | exact .error rfl

end ArithmeticOperator

namespace Expression

theorem equal_intact (left right : Value) : Intact (equal left right) := by
  unfold equal
  split
  · exact .ok _
  · exact .ok _
  · exact .ok _
  · exact .ok _
  · exact .ok _
  · split
    · exact .ok _
    · exact .error rfl

theorem ordered_intact (left right : Value) (accept : Ordering → Bool) :
    Intact (ordered left right accept) := by
  unfold ordered
  split
  · exact .ok _
  · split
    · exact .ok _
    · exact .error rfl

theorem hasFlags_intact (left right : Value) : Intact (hasFlags left right) := by
  unfold hasFlags
  split
  · exact .ok _
  · exact .ok _
  · split
    · exact .ok _
    · exact .error rfl
  · exact .error rfl

theorem compute_intact (operator : ArithmeticOperator) (left right : Value) :
    Intact (compute operator left right) := by
  unfold compute
  split
  · exact .ok _
  · exact operator.apply_intact left right

theorem joinTruth_intact (operator : BinaryOperator) (left right : Value) :
    Intact (joinTruth operator left right) := by
  have hoperand (v : Value) : Intact (logicalOperand operator v) := by
    unfold logicalOperand
    split
    · exact .ok _
    · exact .ok _
    · exact .error rfl
  exact (hoperand left).bind fun l _ => (hoperand right).bind fun r _ => .ok _

theorem applyBinary_intact (operator : BinaryOperator) (left right : Value) :
    Intact (applyBinary operator left right) := by
  cases operator with
  | eq | ne => exact (equal_intact left right).map _
  | gt | ge | lt | le => exact ordered_intact left right _
  | has => exact hasFlags_intact left right
  | add | sub | mul | div | mod => exact compute_intact _ left right
  | and | or => exact joinTruth_intact _ left right

theorem applyUnary_intact (operator : UnaryOperator) (operand : Value) :
    Intact (applyUnary operator operand) := by
  unfold applyUnary
  split
  · exact .ok _
  · exact .ok _
  · exact .error rfl

/-! ## Paths and lambdas -/

variable {parameter : String} {bindings : Bindings} {record : Record}

theorem walk_intact (text : String) (value : Value) (properties : List Property) :
    Intact (walk text value properties) := by
  fun_induction walk text value properties with
  | case1 => exact .ok _
  | case2 => exact .ok _
  | case3 r p rest ih => exact ih
  | case4 => exact .error rfl

theorem elementsOf_intact (source : Expression) (v : Value) : Intact (elementsOf source v) := by
  unfold elementsOf
  split
  · exact .ok _
  · exact .ok _
  · exact .error rfl

theorem truthOf_intact (e : Expression) (v : Value) : Intact (truthOf e v) := by
  unfold truthOf
  split
  · exact .ok _
  · exact .ok _
  · exact .error rfl

theorem quantify_intact (quantifier : Quantifier) {test : Record → Except EvalError Bool}
    (htest : ∀ r, Intact (test r)) (items : List Value) :
    Intact (quantify quantifier parameter test items) := by
  induction items with
  | nil => exact .ok _
  | cons item items ih =>
      cases item with
      | record r =>
          apply (htest r).bind
          intro matched _
          split
          · exact .ok _
          · exact .ok _
          · exact ih
      | _ => exact .error rfl

/-! ## Well formed expressions -/

/-- An expression in which whatever is referred to is there. -/
inductive WellFormed (model : Model) : Scope → Expression → Prop
  | literal {scope : Scope} (constant : Literal) : WellFormed model scope (.literal constant)
  | path {scope : Scope} {steps : PropertyPath} {root : Option String} {start : TypeKey}
      (hroot : scope.rootType? root = some start) (hroute : Route model start steps.segments) :
      WellFormed model scope (.path steps root)
  | binary {scope : Scope} (operator : BinaryOperator) {left right : Expression}
      (hleft : WellFormed model scope left) (hright : WellFormed model scope right) :
      WellFormed model scope (.binary operator left right)
  | unary {scope : Scope} (operator : UnaryOperator) {operand : Expression}
      (hoperand : WellFormed model scope operand) : WellFormed model scope (.unary operator operand)
  | call {scope : Scope} {function : Function} {arguments : List Expression}
      (harity : function.accepts arguments.length = true)
      (harguments : ∀ e ∈ arguments, WellFormed model scope e) :
      WellFormed model scope (.call function arguments)
  | isAny {scope : Scope} {steps : PropertyPath} {root : Option String} {element : TypeKey}
      (hsource : WellFormed model scope (.path steps root))
      (helements : steps.terminal.type = .collection (.complex element)) :
      WellFormed model scope (.lambda .any (.path steps root) "" none)
  | lambda {scope : Scope} (quantifier : Quantifier) {steps : PropertyPath} {root : Option String}
      {element : TypeKey} {parameter : String} {body : Expression}
      (hsource : WellFormed model scope (.path steps root))
      (helements : steps.terminal.type = .collection (.complex element))
      (hfresh : scope.parameter? parameter = none)
      (hbody : WellFormed model (scope.bind parameter element) body) :
      WellFormed model scope (.lambda quantifier (.path steps root) parameter (some body))

variable {model : Model} {scope : Scope} {e : Expression}

theorem wellFormed_of_readable (h : Readable model scope e) : WellFormed model scope e := by
  induction h with
  | literal => exact .literal _
  | path hresolve _ =>
      obtain ⟨start, hroot, hroute⟩ := exists_route hresolve
      exact .path hroot hroute
  | binary _ _ ihleft ihright => exact .binary _ ihleft ihright
  | unary _ ih => exact .unary _ ih
  | call harity _ ih => exact .call harity ih
  | @lambda scope quantifier text steps root element parameter body hresolve helement _ hempty
      hfresh _ ih =>
      obtain ⟨start, hroot, hroute⟩ := exists_route hresolve
      have helements := type_of_elementKey helement
      cases body with
      | none =>
          obtain ⟨rfl, rfl⟩ := hempty rfl
          exact .isAny (.path hroot hroute) helements
      | some body =>
          exact .lambda quantifier (.path hroot hroute) helements (hfresh (by simp)).1 (ih body rfl)

/-! ## Evaluation -/

/-- Every parameter in scope stands for a record. -/
def Binds (scope : Scope) (bindings : Bindings) : Prop :=
  ∀ name, (scope.parameter? name).isSome = true → ∃ r, bindings.lookup name = some r

theorem Binds.bind (h : Binds scope bindings) (parameter : String) (element : TypeKey)
    (r : Record) : Binds (scope.bind parameter element) ((parameter, r) :: bindings) := by
  intro name hname
  simp only [Scope.bind, Scope.parameter?, List.lookup_cons] at hname ⊢
  split
  · exact ⟨r, rfl⟩
  · rename_i hne
    rw [hne] at hname
    exact h name hname

theorem exists_rootOf (h : Binds scope bindings) {root : Option String} {start : TypeKey}
    (hroot : scope.rootType? root = some start) : ∃ r, rootOf record bindings root = .ok r := by
  cases root with
  | none => exact ⟨record, rfl⟩
  | some name =>
      obtain ⟨r, hr⟩ := h name (Option.isSome_iff_exists.2 ⟨start, hroot⟩)
      exact ⟨r, by rw [rootOf, hr]⟩

theorem length_of_evaluateAll {arguments : List Expression} {values : List Value}
    (h : evaluateAll record bindings arguments = .ok values) :
    values.length = arguments.length := by
  induction arguments generalizing values with
  | nil =>
      obtain rfl := Except.ok.inj h
      rfl
  | cons e arguments ih =>
      rw [evaluateAll] at h
      obtain ⟨value, -, h⟩ := bind_eq_ok.1 h
      obtain ⟨others, hothers, h⟩ := bind_eq_ok.1 h
      obtain rfl := pure_eq_ok.1 h
      rw [List.length_cons, List.length_cons, ih hothers]

theorem evaluateAll_intact {arguments : List Expression}
    (h : ∀ e ∈ arguments, Intact (evaluate record bindings e)) :
    Intact (evaluateAll record bindings arguments) := by
  induction arguments with
  | nil => exact .ok _
  | cons e arguments ih =>
      obtain ⟨hfirst, hothers⟩ := List.forall_mem_cons.1 h
      rw [evaluateAll]
      exact hfirst.bind fun value _ => (ih hothers).bind fun values _ => .ok _

/-- A well formed expression does not run into anything that is missing, on any record. -/
theorem evaluate_intact (h : WellFormed model scope e) (hbinds : Binds scope bindings) :
    Intact (evaluate record bindings e) := by
  induction h generalizing bindings with
  | literal constant => exact .ok _
  | path hroot _ =>
      obtain ⟨r, hr⟩ := exists_rootOf hbinds hroot
      rw [evaluate, hr]
      exact walk_intact _ _ _
  | binary operator _ _ ihleft ihright =>
      rw [evaluate]
      apply (ihleft hbinds).bind
      intro leftValue _
      split
      · exact .ok _
      · exact (ihright hbinds).bind fun rightValue _ => applyBinary_intact _ _ _
  | unary operator _ ih =>
      rw [evaluate]
      exact (ih hbinds).bind fun value _ => applyUnary_intact _ _
  | call harity _ ih =>
      rw [evaluate]
      apply (evaluateAll_intact fun e he => ih e he hbinds).bind
      intro values hvalues
      apply Function.apply_intact
      rwa [length_of_evaluateAll hvalues]
  | isAny _ _ ih =>
      rw [evaluate]
      apply (ih hbinds).bind
      intro value _
      exact (elementsOf_intact _ _).bind fun items _ => .ok _
  | lambda quantifier _ _ _ _ ihsource ihbody =>
      rw [evaluate]
      apply (ihsource hbinds).bind
      intro value _
      apply (elementsOf_intact _ _).bind
      intro items _
      apply quantify_intact
      intro r
      exact (ihbody (hbinds.bind _ _ r)).bind fun value _ => truthOf_intact _ _

/-- Reading yields a well formed expression.  On no record whatever does it ask for a parameter that
is not bound or an argument that is not there. -/
theorem wellFormed_of_parse {key : TypeKey} {input : String} (h : parse model key input = .ok e) :
    WellFormed model ⟨key, []⟩ e ∧ ∀ (record : Record) (error : EvalError),
      e.evaluateOn record = .error error →
        (∀ name, error ≠ .unboundParameter name) ∧
        ∀ function place found, error ≠ .missingArgument function place found := by
  have hformed := wellFormed_of_readable (readable_of_parse h)
  refine ⟨hformed, fun record error herror => ?_⟩
  have hbinds : Binds ⟨key, []⟩ [] := fun name hname => nomatch hname
  have hintact := evaluate_intact hformed hbinds error herror
  constructor
  · rintro name rfl
    cases hintact
  · rintro function place found rfl
    cases hintact

/-- The filter of the sample, on a record that is no item. -/
theorem wellFormed_of_parse_sample :
    parse Sample.model Sample.itemKey "Price add 1 gt 10 and not Parts/any(p:p/Count eq null)"
        = .ok Sample.filter ∧
      WellFormed Sample.model ⟨Sample.itemKey, []⟩ Sample.filter ∧
      ∀ error, Sample.filter.evaluateOn Sample.leaf = .error error →
        (∀ name, error ≠ .unboundParameter name) ∧
        ∀ function place found, error ≠ .missingArgument function place found := by
  have hparse : parse Sample.model Sample.itemKey
      "Price add 1 gt 10 and not Parts/any(p:p/Count eq null)" = .ok Sample.filter := rfl
  obtain ⟨hformed, hintact⟩ := wellFormed_of_parse hparse
  exact ⟨hparse, hformed, hintact Sample.leaf⟩

end Expression

end EntityQuery
