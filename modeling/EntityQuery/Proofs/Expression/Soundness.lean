import EntityQuery.Proofs.Expression.Functions
import EntityQuery.Proofs.Expression.Operators
import EntityQuery.Proofs.Expression.Routes
import EntityQuery.Proofs.Sample

/-!
# Soundness of the type check

A filter that was read and checked evaluates to a value of its type or to null on every conforming
record, or fails because of its numbers.  Two things are left to the author of the filter: a path
has to stop at a collection, and only numbers are to be rounded.

The proof is by induction on how the filter was read, which keeps the types of the parameters in
scope; the records they stand for conform to these types.
-/

namespace EntityQuery

open EntityQuery.Filter

namespace Expression

/-- What the type check does not look at: paths do not pass through collections, and what is rounded
is of a primitive type or has none. -/
structure Regular (model : Model) (e : Expression) : Prop where
  steps : ∀ steps root, path steps root ∈ e.nodes →
    ∀ p ∈ steps.segments.dropLast, p.type.isCollection = false
  rounding : ∀ function arguments, call function arguments ∈ e.nodes → function.rounds = true →
    ∀ a ∈ arguments, ∀ type, a.check model = .ok (some type) → type.primitiveKind? ≠ none

variable {model : Model} {scope : Scope} {record : Record} {bindings : Bindings}
variable {e : Expression} {type : Option EdmType}

theorem Regular.mono {inner : Expression} (h : Regular model e)
    (hnodes : ∀ n ∈ inner.nodes, n ∈ e.nodes) : Regular model inner where
  steps steps root hmem := h.steps steps root (hnodes _ hmem)
  rounding function arguments hmem := h.rounding function arguments (hnodes _ hmem)

theorem mem_nodesOfAll {a n : Expression} {arguments : List Expression} (ha : a ∈ arguments)
    (hn : n ∈ a.nodes) : n ∈ nodesOfAll arguments := by
  induction arguments with
  | nil => cases ha
  | cons first others ih =>
      rw [nodesOfAll, List.mem_append]
      rcases List.mem_cons.1 ha with rfl | ha
      · exact .inl hn
      · exact .inr (ih ha)

/-! ## Parts of regular expressions -/

theorem Regular.left {operator : BinaryOperator} {lhs rhs : Expression}
    (h : Regular model (binary operator lhs rhs)) : Regular model lhs :=
  h.mono fun n hn => by simp [nodes, hn]

theorem Regular.right {operator : BinaryOperator} {lhs rhs : Expression}
    (h : Regular model (binary operator lhs rhs)) : Regular model rhs :=
  h.mono fun n hn => by simp [nodes, hn]

theorem Regular.operand {operator : UnaryOperator} {inner : Expression}
    (h : Regular model (unary operator inner)) : Regular model inner :=
  h.mono fun n hn => by simp [nodes, hn]

theorem Regular.argument {function : Function} {arguments : List Expression} {a : Expression}
    (h : Regular model (call function arguments)) (ha : a ∈ arguments) : Regular model a :=
  h.mono fun n hn => by simp [nodes, mem_nodesOfAll ha hn]

theorem Regular.source {quantifier : Quantifier} {inner : Expression} {parameter : String}
    {test : Option Expression} (h : Regular model (lambda quantifier inner parameter test)) :
    Regular model inner := by
  refine h.mono fun n hn => ?_
  cases test with
  | none =>
      rw [nodes]
      exact List.mem_cons_of_mem _ hn
  | some body =>
      rw [nodes]
      exact List.mem_cons_of_mem _ (List.mem_append_left _ hn)

theorem Regular.body {quantifier : Quantifier} {inner test : Expression} {parameter : String}
    (h : Regular model (lambda quantifier inner parameter (some test))) : Regular model test :=
  h.mono fun n hn => by simp [nodes, hn]

/-- Every parameter in scope stands for a record that conforms to its type. -/
def Bound (model : Model) (scope : Scope) (bindings : Bindings) : Prop :=
  ∀ name key, scope.parameter? name = some key →
    ∃ r, bindings.lookup name = some r ∧ Conforms model key r

theorem Bound.bind {parameter : String} {element : TypeKey} {r : Record}
    (h : Bound model scope bindings) (hr : Conforms model element r) :
    Bound model (scope.bind parameter element) ((parameter, r) :: bindings) := by
  intro name key hname
  -- The new name hides an older one in the scope and in the bindings alike.
  simp only [Scope.bind, Scope.parameter?, List.lookup_cons] at hname ⊢
  split
  · rename_i heq
    rw [heq] at hname
    obtain rfl := Option.some.inj hname
    exact ⟨r, rfl, hr⟩
  · rename_i heq
    rw [heq] at hname
    exact h name key hname

/-! ## Paths and lambdas -/

theorem exists_root (h : Bound model scope bindings) (hrecord : Conforms model scope.type record)
    {root : Option String} {key : TypeKey} (hroot : scope.rootType? root = some key) :
    ∃ r, rootOf record bindings root = .ok r ∧ Conforms model key r := by
  cases root with
  | none =>
      obtain rfl := Option.some.inj hroot
      exact ⟨record, rfl, hrecord⟩
  | some name =>
      obtain ⟨r, hr, hconforms⟩ := h name key hroot
      refine ⟨r, ?_, hconforms⟩
      rw [rootOf, hr]

theorem type_of_elementKey {text : String} {steps : PropertyPath} {element : TypeKey}
    (h : elementKey text steps = .ok element) :
    steps.terminal.type = .collection (.complex element) := by
  unfold elementKey at h
  split at h
  · rename_i hcollection hkey
    obtain rfl := Except.ok.inj h
    rcases EdmType.complexKey?_eq_some_iff.1 hkey with heq | heq
    · rw [heq] at hcollection
      cases hcollection
    · exact heq
  · cases h

/-- An expression that passes the check evaluates to what fits its type, or fails because of its
numbers. -/
def Sound (model : Model) (record : Record) (bindings : Bindings) (e : Expression) : Prop :=
  ∀ type, e.check model = .ok type → Yields (Fits model type) (evaluate record bindings e)

/-- Every type among those of the arguments is that of one argument. -/
theorem exists_argument {arguments : List Expression} {types : List (Option EdmType)}
    (hcheck : checkAll model arguments = .ok types) (hmem : type ∈ types) :
    ∃ a ∈ arguments, a.check model = .ok type := by
  induction arguments generalizing types with
  | nil =>
      obtain rfl := Except.ok.inj hcheck
      cases hmem
  | cons a others ih =>
      rw [checkAll] at hcheck
      obtain ⟨first, hfirst, hcheck⟩ := bind_eq_ok.1 hcheck
      obtain ⟨later, hlater, hcheck⟩ := bind_eq_ok.1 hcheck
      obtain rfl := pure_eq_ok.1 hcheck
      rcases List.mem_cons.1 hmem with rfl | hmem
      · exact ⟨a, by simp, hfirst⟩
      · obtain ⟨b, hb, htype⟩ := ih hlater hmem
        exact ⟨b, by simp [hb], htype⟩

/-- A regular call does not round what is no primitive. -/
theorem Regular.scalar {function : Function} {arguments : List Expression}
    {types : List (Option EdmType)} (h : Regular model (call function arguments))
    (htypes : checkAll model arguments = .ok types) (hrounds : function.rounds = true)
    (type : EdmType) (htype : some type ∈ types) : type.primitiveKind? ≠ none := by
  obtain ⟨a, ha, hcheck⟩ := exists_argument htypes htype
  exact h.rounding function arguments (by simp [nodes]) hrounds a ha type hcheck

end Expression

end EntityQuery
