import EntityQuery.Proofs.Filter.Groups
import EntityQuery.Proofs.Filter.Tasks

/-!
# Reading without a bound

How deep expressions stand inside each other is bounded when they are read, so that reading comes to
an end.  The bound is never reached, since every expression has more tokens than the ones inside it:
`readTokens_eq` is the equation for reading without a bound.
-/

namespace EntityQuery.Filter

variable {model : Model} {scope : Scope} {inner : InnerReader} {token : Token}
  {tokens inside rest after : List Token} {e : Expression}

/-! ## Lengths -/

theorem length_takeGroup (h : takeGroup token rest = .ok (inside, after)) :
    inside.length + after.length < rest.length := by
  obtain ⟨-, close, -, rfl⟩ := takeGroup_eq_ok h
  rw [List.length_append, List.length_cons]
  omega

theorem length_groupAfter (h : groupAfter token rest = .ok (inside, after)) :
    inside.length + after.length < rest.length := by
  cases rest with
  | nil => cases h
  | cons opening rest =>
      have hlt := length_takeGroup h
      rw [List.length_cons]
      omega

/-- Pieces are no longer than the list they are cut from. -/
theorem length_splitOutside (isCut : Token → Bool) (tokens : List Token) :
    (splitOutside isCut 0 tokens).1.length ≤ tokens.length ∧
      ∀ piece ∈ (splitOutside isCut 0 tokens).2, piece.2.length < tokens.length := by
  obtain ⟨heq, -⟩ := splitOutside_eq isCut 0 tokens
  have hlength := congrArg List.length heq
  rw [List.length_append] at hlength
  refine ⟨by omega, fun piece hpiece => ?_⟩
  have hsub : (piece.1 :: piece.2).Sublist (joined (splitOutside isCut 0 tokens).2) :=
    List.sublist_flatten_of_mem (List.mem_map_of_mem hpiece)
  have hle := hsub.length_le
  rw [List.length_cons] at hle
  omega

/-! ## Operands -/

/-- A call ends with the group of its arguments. -/
theorem groupAfter_of_readCall (h : readCall inner scope token rest = .ok (e, after)) :
    ∃ inside, groupAfter token rest = .ok (inside, after) := by
  unfold readCall at h
  split at h
  · cases h
  · obtain ⟨⟨inside, behind⟩, hgroup, h⟩ := bind_eq_ok.1 h
    dsimp only at h
    obtain ⟨-, h⟩ := guard_eq_ok.1 h
    obtain ⟨arguments, -, h⟩ := bind_eq_ok.1 h
    obtain ⟨-, h⟩ := guard_eq_ok.1 h
    obtain ⟨-, rfl⟩ := Prod.mk.inj (pure_eq_ok.1 h)
    exact ⟨inside, hgroup⟩

/-- A lambda ends with the group of its body. -/
theorem groupAfter_of_readLambda (h : readLambda model inner scope token rest = .ok (e, after)) :
    ∃ inside, groupAfter token rest = .ok (inside, after) := by
  unfold readLambda at h
  split at h
  · cases h
  · split at h
    · cases h
    · obtain ⟨resolved, -, h⟩ := bind_eq_ok.1 h
      obtain ⟨element, -, h⟩ := bind_eq_ok.1 h
      obtain ⟨⟨inside, behind⟩, hgroup, h⟩ := bind_eq_ok.1 h
      obtain ⟨body, -, h⟩ := bind_eq_ok.1 h
      obtain ⟨-, rfl⟩ := Prod.mk.inj (pure_eq_ok.1 h)
      exact ⟨inside, hgroup⟩

/-- What an operand may be: a group, a name with the group behind it, or a single token. -/
theorem readOperand_cases (h : readOperand model inner scope tokens = .ok (e, after)) :
    ∃ token rest, tokens = token :: rest ∧
      ((token.kind = .openParen ∧ ∃ inside, takeGroup token rest = .ok (inside, after)) ∨
        ((token.kind = .functionName ∨ token.kind = .lambda) ∧
          ∃ inside, groupAfter token rest = .ok (inside, after)) ∨
        (token.kind = .propertyPath ∨ token.kind.isLiteral = true) ∧ rest = after) := by
  cases tokens with
  | nil => cases h
  | cons token rest =>
      refine ⟨token, rest, rfl, ?_⟩
      unfold readOperand at h
      dsimp only at h
      split at h
      · rename_i hkind
        obtain ⟨⟨inside, behind⟩, hgroup, h⟩ := bind_eq_ok.1 h
        obtain ⟨-, h⟩ := guard_eq_ok.1 h
        obtain ⟨operand, -, h⟩ := bind_eq_ok.1 h
        obtain ⟨-, rfl⟩ := Prod.mk.inj (pure_eq_ok.1 h)
        exact .inl ⟨hkind, inside, hgroup⟩
      · rename_i hkind
        exact .inr (.inl ⟨.inl hkind, groupAfter_of_readCall h⟩)
      · rename_i hkind
        exact .inr (.inl ⟨.inr hkind, groupAfter_of_readLambda h⟩)
      · rename_i hkind
        obtain ⟨resolved, -, h⟩ := bind_eq_ok.1 h
        exact .inr (.inr ⟨.inl hkind, (Prod.mk.inj (pure_eq_ok.1 h)).2⟩)
      · split at h
        · rename_i hkind
          obtain ⟨constant, -, h⟩ := bind_eq_ok.1 h
          exact .inr (.inr ⟨.inr hkind, (Prod.mk.inj (pure_eq_ok.1 h)).2⟩)
        · cases h

/-- An operand has tokens. -/
theorem length_readOperand (h : readOperand model inner scope tokens = .ok (e, rest)) :
    rest.length < tokens.length := by
  obtain ⟨token, behind, rfl, ⟨-, inside, hgroup⟩ | ⟨-, inside, hgroup⟩ | ⟨-, rfl⟩⟩ :=
    readOperand_cases h
  · have hlt := length_takeGroup hgroup
    rw [List.length_cons]
    omega
  · have hlt := length_groupAfter hgroup
    rw [List.length_cons]
    omega
  · exact Nat.lt_succ_self _

/-! ## Tasks get smaller -/

/-- A bound on the expressions that a task leads to: they have less than half as many tokens. -/
def Task.size : Task → Nat
  | .expression tokens => 2 * tokens.length + 1
  | .clause tokens | .operand tokens | .links tokens => 2 * tokens.length
  | .arguments tokens => 2 * tokens.length + 2
  | .group _ _ | .follower _ _ | .cut _ _ _ => 0

theorem Calls.size_le {task next : Task} (h : Calls task next) : next.size ≤ task.size := by
  cases h with
  | cutClauses | group | follower | opening | cutArguments | pass => exact Nat.zero_le _
  | firstClause =>
      have hle := (length_splitOutside (·.kind.isLogical) ‹_›).1
      simp only [Task.size]
      omega
  | nextClause hpiece =>
      have hlt := (length_splitOutside _ _).2 _ hpiece
      simp only [Task.size]
      omega
  | negated | next =>
      simp only [Task.size, List.length_cons]
      omega
  | first => exact Nat.le_refl _
  | behind h =>
      have hlt := length_readOperand h
      simp only [Task.size]
      omega
  | inside _ hgroup =>
      have hlt := length_takeGroup hgroup
      simp only [Task.size, List.length_cons]
      omega
  | arguments _ hgroup =>
      have hlt := length_groupAfter hgroup
      simp only [Task.size, List.length_cons]
      omega
  | body _ hgroup =>
      have hlt := length_groupAfter hgroup
      simp only [Task.size, List.length_cons] at hlt ⊢
      omega
  | firstArgument =>
      have hle := (length_splitOutside (·.kind == .comma) ‹_›).1
      simp only [Task.size]
      omega
  | nextArgument hpiece =>
      have hlt := (length_splitOutside _ _).2 _ hpiece
      simp only [Task.size]
      omega

theorem size_le_of_reaches {task last : Task} (h : Relation.ReflTransGen Calls task last) :
    last.size ≤ task.size := by
  induction h with
  | refl => exact Nat.le_refl _
  | tail _ hcall ih => exact Nat.le_trans hcall.size_le ih

/-- The expressions inside an expression have fewer tokens. -/
theorem length_lt_of_reaches {slice : List Token}
    (h : Relation.TransGen Calls (.expression tokens) (.expression slice)) :
    slice.length < tokens.length := by
  obtain ⟨next, hcall, hreach⟩ := Relation.TransGen.head'_iff.1 h
  have hle : 2 * slice.length + 1 ≤ next.size := size_le_of_reaches hreach
  cases hcall with
  | cutClauses => exact absurd hle (by simp [Task.size])
  | firstClause =>
      have hfirst := (length_splitOutside (·.kind.isLogical) tokens).1
      simp only [Task.size] at hle
      omega
  | nextClause hpiece =>
      have hlt := (length_splitOutside _ _).2 _ hpiece
      simp only [Task.size] at hle
      omega

/-! ## The bound -/

/-- Any bound above the number of tokens will do. -/
theorem readNested_eq {depth : Nat} (hdepth : tokens.length < depth) :
    readNested model depth scope tokens = readTokens model scope tokens := by
  induction hlength : tokens.length using Nat.strongRecOn generalizing scope tokens depth with
  | ind n ih =>
      obtain ⟨depth, rfl⟩ : ∃ d, depth = d + 1 := ⟨depth - 1, by omega⟩
      refine readWith_congr fun inside slice hreach => ?_
      have hlt := length_lt_of_reaches hreach
      exact (ih slice.length (by omega) (by omega) rfl).trans
        (ih slice.length (by omega) hlt rfl).symm

/-- Reading without a bound. -/
theorem readTokens_eq (model : Model) (scope : Scope) (tokens : List Token) :
    readTokens model scope tokens = readWith model (readTokens model) scope tokens :=
  readWith_congr fun _ _ hreach => readNested_eq (length_lt_of_reaches hreach)

end EntityQuery.Filter
