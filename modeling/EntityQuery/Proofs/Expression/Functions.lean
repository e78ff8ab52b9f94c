import EntityQuery.Proofs.Expression.Conforming

/-!
# Functions give what their types say

A function takes its arguments by place.  Where the type of an argument fits, its value can be read
as the function wants it, so that the function has a value, and one of the kind it promises.

Rounding is the exception: it accepts arguments of any type that is not primitive, and has no value
for them.
-/

namespace EntityQuery.Function

variable {model : Model} {types : List (Option EdmType)} {values : List Value} {place : Nat}
variable {v : Value} {kind : PrimitiveKind} {accept : PrimitiveKind → Bool}

/-- Does the function round a number to a whole one? -/
def rounds : Function → Bool
  | round | floor | ceiling => true
  | _ => false

/-- Arguments that fit their types, and none of which is null. -/
def Supplied (model : Model) (types : List (Option EdmType)) (values : List Value) : Prop :=
  List.Forall₂ (Fits model) types values ∧ ∀ v ∈ values, v ≠ .null

/-! ## Arguments -/

theorem Supplied.get (h : Supplied model types values) {expected : Option EdmType}
    (htype : types[place]? = some expected) :
    ∃ type v, expected = some type ∧ values[place]? = some v ∧ HasType model type v := by
  obtain ⟨hfits, hne⟩ := h
  obtain ⟨hplace, rfl⟩ := List.getElem?_eq_some_iff.1 htype
  have hplace' : place < values.length := hfits.length_eq ▸ hplace
  have hv : values[place] ≠ .null := hne _ (List.getElem_mem hplace')
  obtain ⟨type, heq, hhas⟩ := (hfits.get hplace hplace').resolve_left hv
  exact ⟨type, values[place], heq, List.getElem?_eq_getElem hplace', hhas⟩

/-- An argument whose type is accepted has an accepted kind. -/
theorem Supplied.exists_kind (h : Supplied model types values)
    (hfits : argumentFits types place accept = true) :
    ∃ v kind, values[place]? = some v ∧ v.primitiveKind? = some kind ∧ accept kind = true := by
  unfold argumentFits at hfits
  split at hfits
  · cases hfits
  · rename_i htype
    obtain ⟨type, v, heq, -⟩ := h.get htype
    cases heq
  · rename_i type htype
    obtain ⟨other, v, heq, hv, hhas⟩ := h.get htype
    cases heq
    cases hhas with
    | primitive hkind => exact ⟨v, _, hv, hkind, hfits⟩
    | _ => cases hfits

theorem argument_eq_ok {α : Type} {read : Value → Option α} {a : α}
    (hv : values[place]? = some v) (hread : read v = some a) (function : Function) :
    function.argument values read place = .ok a := by
  simp only [argument, hv, hread]

theorem Supplied.exists_text (h : Supplied model types values)
    (hfits : argumentFits types place isText = true) :
    ∃ cs, ∀ function : Function, function.argument values charsOf? place = .ok cs := by
  obtain ⟨v, kind, hv, hkind, htext⟩ := h.exists_kind hfits
  obtain rfl := beq_iff_eq.1 htext
  cases v with
  | string s => exact ⟨s.toList, argument_eq_ok hv rfl⟩
  | _ => cases hkind

end EntityQuery.Function
