import EntityQuery.Expression.Literal
import EntityQuery.Proofs.Result
import Mathlib.Data.List.TakeWhile

/-!
# The shape of a literal

A literal that was read keeps the text of its token, and denotes a value of its type.  Only `null`
has a text and a type of its own.
-/

namespace EntityQuery.Literal

open EntityQuery.Filter

variable {model : Model} {text what : String} {constant : Literal} {kind : PrimitiveKind}

/-- The letter of its kind is taken from a text that has no such letter itself. -/
theorem dropLetters_append {cs : List Char} {small capital mark : Char}
    (hcs : ∀ c ∈ cs, c ≠ small ∧ c ≠ capital) (hmark : mark = small ∨ mark = capital) :
    dropLetters small capital (cs ++ [mark]) = cs := by
  have hdrop : (cs.reverse.dropWhile fun c => c == small || c == capital) = cs.reverse := by
    rw [List.dropWhile_eq_self_iff]
    intro hlength
    obtain ⟨hsmall, hcapital⟩ := hcs _ (List.mem_reverse.1 (List.getElem_mem hlength))
    rw [beq_eq_false_iff_ne.2 hsmall, beq_eq_false_iff_ne.2 hcapital]
    exact Bool.false_ne_true
  have hletter : (mark == small || mark == capital) = true := by
    rcases hmark with rfl | rfl <;> simp
  rw [dropLetters, List.reverse_append, List.reverse_singleton, List.singleton_append,
    List.dropWhile_cons, hletter, if_pos rfl, hdrop, List.reverse_reverse]

/-- A literal of a primitive kind: its value is of the kind. -/
def IsScalar (text : String) (constant : Literal) : Prop :=
  ∃ kind value, value.primitiveKind? = some kind ∧ constant = ofKind kind text value

theorem isScalar_of_read {α : Type} {read : Option α} {make : α → Value}
    (h : ofRead kind text what (read.map make) = .ok constant)
    (hmake : ∀ a, (make a).primitiveKind? = some kind) : IsScalar text constant := by
  cases read with
  | none => cases h
  | some a =>
      obtain rfl := Except.ok.inj h
      exact ⟨kind, make a, hmake a, rfl⟩

theorem isScalar_of_readBoolean (h : readBoolean text = .ok constant) : IsScalar text constant := by
  unfold readBoolean at h
  split at h
  · rename_i hword
    obtain rfl := beq_iff_eq.1 hword
    obtain rfl := Except.ok.inj h
    exact ⟨.boolean, .boolean true, rfl, rfl⟩
  · split at h
    · rename_i hword
      obtain rfl := beq_iff_eq.1 hword
      obtain rfl := Except.ok.inj h
      exact ⟨.boolean, .boolean false, rfl, rfl⟩
    · cases h

theorem isScalar_of_readLong {read : Option Int} {e : QueryError}
    (h : (match read with
      | some n => Except.ok (ofKind .int64 text (.int64 (Int64.ofInt n)))
      | none => .error e) = .ok constant) : IsScalar text constant := by
  split at h
  · obtain rfl := Except.ok.inj h
    exact ⟨.int64, _, rfl, rfl⟩
  · cases h

theorem isScalar_of_readInteger (h : readInteger text = .ok constant) : IsScalar text constant := by
  unfold readInteger at h
  dsimp only at h
  split at h
  · exact isScalar_of_readLong h
  · exact isScalar_of_readLong h
  · split at h
    · obtain rfl := Except.ok.inj h
      exact ⟨.int32, _, rfl, rfl⟩
    · exact isScalar_of_readLong h

theorem isScalar_of_readString {cs : List Char}
    (h : ofRead .string text what (readString? cs) = .ok constant) : IsScalar text constant := by
  unfold readString? at h
  split at h
  · split at h
    · obtain rfl := Except.ok.inj h
      exact ⟨.string, _, rfl, rfl⟩
    · cases h
  · cases h

theorem readEnum_eq_ok (h : readEnum model text = .ok constant) :
    ∃ key value, constant = ⟨some (.enumeration key), text, .enumeration ⟨key, value⟩⟩ := by
  unfold readEnum at h
  dsimp only at h
  obtain ⟨-, h⟩ := guard_eq_ok.1 h
  split at h
  · obtain ⟨type, -, h⟩ := bind_eq_ok.1 h
    obtain ⟨value, -, h⟩ := bind_eq_ok.1 h
    exact ⟨type.key, value, (pure_eq_ok.1 h).symm⟩
  · cases h

/-- A literal that was read is `null`, a scalar or an enum. -/
theorem ofToken_eq_ok {token : TokenKind} (h : ofToken model token text = .ok constant) :
    (token = .null ∧ constant = null) ∨ IsScalar text constant ∨
      ∃ key value, constant = ⟨some (.enumeration key), text, .enumeration ⟨key, value⟩⟩ := by
  unfold ofToken at h
  cases token with
  | null => exact .inl ⟨rfl, (Except.ok.inj h).symm⟩
  | boolean => exact .inr (.inl (isScalar_of_readBoolean h))
  | integer => exact .inr (.inl (isScalar_of_readInteger h))
  | string => exact .inr (.inl (isScalar_of_readString h))
  | enumeration => exact .inr (.inr (readEnum_eq_ok h))
  | binary | date | dateTimeOffset | timeOfDay | guid | decimal | double | single | duration =>
      exact .inr (.inl (isScalar_of_read h fun _ => rfl))
  | _ => cases h

/-- Apart from `null`, a literal keeps the text of its token. -/
theorem ofToken_text {token : TokenKind} (h : ofToken model token text = .ok constant)
    (htoken : token ≠ .null) : constant.text = text := by
  rcases ofToken_eq_ok h with ⟨hnull, -⟩ | ⟨_, _, -, rfl⟩ | ⟨_, _, rfl⟩
  · exact absurd hnull htoken
  · rfl
  · rfl

end EntityQuery.Literal
