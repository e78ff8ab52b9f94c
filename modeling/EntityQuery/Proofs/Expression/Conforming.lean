import EntityQuery.Expression.Evaluation
import EntityQuery.Expression.Typing
import EntityQuery.Proofs.Result
import EntityQuery.Proofs.Value.Comparison

/-!
# Values of a type

A value has a type of the model if it is built as the type says: a scalar has the kind, an enum the
key, a collection only elements of the element type.  A record has a record type if each of its
properties is null or has the type that is declared for it.  Null has no type.

An expression that was checked has a type, or none if it can only be null.  Its evaluation `Yields`
what fits that, unless the numbers in it do not allow it.
-/

namespace EntityQuery

/-- A value that is not null has a type. -/
inductive HasType (model : Model) : EdmType → Value → Prop
  | primitive {kind : PrimitiveKind} {v : Value} (hkind : v.primitiveKind? = some kind) :
      HasType model (.primitive kind) v
  | enumeration (e : EnumValue) : HasType model (.enumeration e.type) (.enumeration e)
  | complex {key : TypeKey} {r : Record}
      (hfields : ∀ type, model.complexType? key = some type → ∀ p ∈ type.properties,
        r.field p.name ≠ .null → HasType model p.type (r.field p.name)) :
      HasType model (.complex key) (.record r)
  | collection {element : EdmType} {items : List Value}
      (hitems : ∀ item ∈ items, HasType model element item) :
      HasType model (.collection element) (.collection items)

/-- A record is one of a type: every property is null or a value of the declared type. -/
def Conforms (model : Model) (key : TypeKey) (r : Record) : Prop :=
  ∀ type, model.complexType? key = some type →
    ∀ p ∈ type.properties, r.field p.name = .null ∨ HasType model p.type (r.field p.name)

/-- What an expression may give: a value of its type, or null. -/
def Fits (model : Model) (type : Option EdmType) (v : Value) : Prop :=
  v = .null ∨ ∃ t, type = some t ∧ HasType model t v

/-- The ways in which numbers make an evaluation fail. -/
inductive NumericFailure : EvalError → Prop
  | overflow (operator : BinaryOperator) : NumericFailure (.overflow operator)
  | divisionByZero : NumericFailure .divisionByZero
  | notANumber {left right : Value} (hnan : left.isNaN = true ∨ right.isNaN = true) :
      NumericFailure (.incomparable left right)

/-- An evaluation gives a result with a property, or fails because of its numbers. -/
def Yields {α : Type} (P : α → Prop) : Except EvalError α → Prop
  | .ok a => P a
  | .error e => NumericFailure e

variable {model : Model} {type : EdmType} {key : TypeKey} {v : Value} {r : Record}

/-! ## The shape of a value -/

namespace HasType

theorem kind {kind : PrimitiveKind} (h : HasType model (.primitive kind) v) :
    v.primitiveKind? = some kind := by
  cases h with
  | primitive hkind => exact hkind

theorem exists_boolean (h : HasType model .boolean v) : ∃ b, v = .boolean b := by
  have hkind := h.kind
  cases v with
  | boolean b => exact ⟨b, rfl⟩
  | _ => cases hkind

theorem exists_record (h : HasType model (.complex key) v) :
    ∃ r, v = .record r ∧ Conforms model key r := by
  cases h with
  | complex hfields =>
      rename_i r
      refine ⟨r, rfl, fun type htype p hp => ?_⟩
      by_cases hnull : r.field p.name = .null
      · exact .inl hnull
      · exact .inr (hfields type htype p hp hnull)

theorem exists_collection {element : EdmType} (h : HasType model (.collection element) v) :
    ∃ items, v = .collection items ∧ ∀ item ∈ items, HasType model element item := by
  cases h with
  | collection hitems => exact ⟨_, rfl, hitems⟩

end HasType

/-- A record conforms to its type exactly if it is a value of it. -/
theorem hasType_record_iff : HasType model (.complex key) (.record r) ↔ Conforms model key r := by
  constructor
  · intro h
    obtain ⟨other, heq, hconforms⟩ := h.exists_record
    cases heq
    exact hconforms
  · intro h
    exact .complex fun type htype p hp hne => (h type htype p hp).resolve_left hne

/-! ## What fits -/

theorem fits_null (type : Option EdmType) : Fits model type .null := .inl rfl

theorem HasType.fits (h : HasType model type v) : Fits model (some type) v := .inr ⟨type, rfl, h⟩

theorem Fits.hasType (h : Fits model (some type) v) (hne : v ≠ .null) : HasType model type v := by
  rcases h with hnull | ⟨other, heq, htype⟩
  · exact absurd hnull hne
  · cases heq
    exact htype

theorem Fits.eq_boolean {types : Option EdmType} (hfits : Fits model types v)
    (htype : types.all EdmType.isBoolean = true) : v = .null ∨ ∃ b, v = .boolean b := by
  rcases hfits with rfl | ⟨type, rfl, hv⟩
  · exact .inl rfl
  · obtain rfl := EdmType.isBoolean_iff.1 htype
    exact .inr hv.exists_boolean

/-! ## Evaluations in steps -/

namespace Yields

variable {α β : Type} {P : α → Prop} {Q : β → Prop} {x : Except EvalError α}

theorem ok {a : α} (h : P a) : Yields P (.ok a) := h

theorem error {e : EvalError} (h : NumericFailure e) : Yields P (.error e) := h

theorem mono {Q : α → Prop} (h : Yields P x) (hsub : ∀ a, P a → Q a) : Yields Q x := by
  cases x with
  | ok a => exact hsub a h
  | error e => exact h

theorem bind {f : α → Except EvalError β} (h : Yields P x) (hf : ∀ a, P a → Yields Q (f a)) :
    Yields Q (x >>= f) := by
  cases x with
  | ok a => exact hf a h
  | error e => exact h

theorem map {f : α → β} (h : Yields P x) (hf : ∀ a, P a → Q (f a)) : Yields Q (x.map f) := by
  cases x with
  | ok a => exact hf a h
  | error e => exact h

end Yields

end EntityQuery
