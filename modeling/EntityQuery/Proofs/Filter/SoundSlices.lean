import EntityQuery.Proofs.Filter.Balance
import EntityQuery.Proofs.Filter.Depth

/-!
# Slices of balanced tokens

The parentheses of a filter are checked once, before it is read.  That is enough: every slice that a
function works on is balanced again, wherever the slice was cut and however deep inside of groups
(`Task.Sound`, preserved by every call).  So a group always comes to its end, an operand is only
looked for where there are tokens, the names of functions and lambdas have a group behind them, and
the depth counted while cutting never has to go below zero.
-/

namespace EntityQuery.Filter

variable {model : Model} {scope : Scope} {inner : InnerReader} {token opening : Token}
  {tokens inside rest after : List Token} {e : Expression} {isCut : Token → Bool}

/-! ## Whole slices -/

/-- Tokens with balanced parentheses, in which one that opens follows the name of a function or a
lambda. -/
structure Whole (tokens : List Token) : Prop where
  balanced : Balanced tokens
  followed : Followed tokens

namespace Whole

theorem tail (h : Whole (token :: rest)) (hopen : token.kind ≠ .openParen)
    (hclose : token.kind ≠ .closeParen) : Whole rest := by
  obtain ⟨-, hbalanced⟩ := balancedFrom_cons.1 h.balanced
  rw [depthAfter_of_ne hopen hclose] at hbalanced
  exact ⟨hbalanced, (followed_cons.1 h.followed).2⟩

theorem splitOutside (h : Whole tokens) (hcuts : SparesParens isCut) :
    Whole (splitOutside isCut 0 tokens).1 ∧
      ∀ piece ∈ (splitOutside isCut 0 tokens).2, Whole piece.2 := by
  obtain ⟨hbalanced, hbalanced'⟩ := h.balanced.splitOutside hcuts
  obtain ⟨hfollowed, hfollowed'⟩ := h.followed.splitOutside hcuts 0
  exact ⟨⟨hbalanced, hfollowed⟩, fun piece hpiece =>
    ⟨hbalanced' piece hpiece, hfollowed' piece hpiece⟩⟩

/-- A group is cut out of the tokens around it. -/
theorem of_takeGroup (h : Whole (opening :: rest))
    (hgroup : takeGroup opening rest = .ok (inside, after)) : Whole inside ∧ Whole after := by
  obtain ⟨hopening, close, hclose, rfl⟩ := takeGroup_eq_ok hgroup
  obtain ⟨_, _, hfound, hinside, hafter⟩ := h.balanced.exists_group hopening
  obtain ⟨rfl, rfl⟩ := Prod.mk.inj (Except.ok.inj (hgroup.symm.trans hfound))
  refine ⟨⟨hinside, ?_⟩, ⟨hafter, ?_⟩⟩
  · refine .of_append [opening] (close :: after) h.followed ?_
    simp [hclose]
  · refine .of_append (opening :: (inside ++ [close])) [] ?_ (by simp)
    simpa using h.followed

theorem exists_group (h : Whole (opening :: rest)) (hopening : opening.kind = .openParen) :
    ∃ inside after, takeGroup opening rest = .ok (inside, after) := by
  obtain ⟨inside, after, hgroup, -, -⟩ := h.balanced.exists_group hopening
  exact ⟨inside, after, hgroup⟩

theorem behind_name (h : Whole (token :: rest))
    (hkind : token.kind = .functionName ∨ token.kind = .lambda) : Whole rest := by
  refine h.tail ?_ ?_ <;> rcases hkind with hkind | hkind <;> rw [hkind] <;> nofun

/-- There is a group behind the name of a function or a lambda. -/
theorem exists_follower (h : Whole (token :: rest))
    (hkind : token.kind = .functionName ∨ token.kind = .lambda) :
    ∃ opening more inside after, rest = opening :: more ∧ opening.kind = .openParen ∧
      takeGroup opening more = .ok (inside, after) := by
  obtain ⟨opening, more, rfl, hopening⟩ := (followed_cons.1 h.followed).1 hkind
  obtain ⟨inside, after, hgroup⟩ := (h.behind_name hkind).exists_group hopening
  exact ⟨opening, more, inside, after, rfl, hopening, hgroup⟩

theorem of_groupAfter (h : Whole (token :: rest))
    (hkind : token.kind = .functionName ∨ token.kind = .lambda)
    (hgroup : groupAfter token rest = .ok (inside, after)) : Whole inside ∧ Whole after := by
  obtain ⟨opening, more, -, -, rfl, -, -⟩ := h.exists_follower hkind
  exact (h.behind_name hkind).of_takeGroup hgroup

/-- What is behind an operand. -/
theorem of_readOperand (h : Whole tokens)
    (hread : readOperand model inner scope tokens = .ok (e, after)) : Whole after := by
  obtain ⟨token, rest, rfl, ⟨-, inside, hgroup⟩ | ⟨hkind, inside, hgroup⟩ | ⟨hkind, rfl⟩⟩ :=
    readOperand_cases hread
  · exact (h.of_takeGroup hgroup).2
  · exact (h.of_groupAfter hkind hgroup).2
  · rcases hkind with hkind | hliteral
    · exact h.tail (by rw [hkind]; nofun) (by rw [hkind]; nofun)
    · refine h.tail ?_ ?_ <;> intro hkind <;> rw [hkind] at hliteral <;> cases hliteral

end Whole

/-! ## Sound tasks -/

/-- What a task may rely on. -/
def Task.Sound : Task → Prop
  | .expression tokens | .links tokens => Whole tokens
  | .clause tokens | .operand tokens | .arguments tokens => tokens ≠ [] ∧ Whole tokens
  | .group opening rest =>
    Whole (opening :: rest) ∧ ∃ inside after, takeGroup opening rest = .ok (inside, after)
  | .follower _ rest =>
    Whole rest ∧ ∃ opening more inside after, rest = opening :: more ∧ opening.kind = .openParen ∧
      takeGroup opening more = .ok (inside, after)
  | .cut isCut depth tokens =>
    SparesParens isCut ∧ BalancedFrom depth tokens ∧
      ∀ token ∈ tokens.head?, token.kind = .closeParen → 0 < depth

theorem sparesParens_logical : SparesParens (·.kind.isLogical) := by
  intro token hcut
  constructor <;> intro hkind <;> simp only [hkind] at hcut <;> cases hcut

theorem sparesParens_comma : SparesParens (·.kind == .comma) := by
  intro token hcut
  rw [beq_iff_eq.1 hcut]
  exact ⟨nofun, nofun⟩

theorem sound_cut {depth : Nat} (hcuts : SparesParens isCut) (h : BalancedFrom depth tokens) :
    (Task.cut isCut depth tokens).Sound := by
  refine ⟨hcuts, h, fun token hhead => ?_⟩
  cases tokens with
  | nil => cases hhead
  | cons first rest =>
      obtain rfl : first = token := Option.some.inj hhead
      exact (balancedFrom_cons.1 h).1

/-- What a task may rely on, it takes care of for the tasks that it leads to. -/
theorem Calls.sound {task next : Task} (h : Calls task next) (hsound : task.Sound) :
    next.Sound := by
  cases h with
  | cutClauses => exact sound_cut sparesParens_logical hsound.balanced
  | firstClause hne => exact ⟨hne, (hsound.splitOutside sparesParens_logical).1⟩
  | nextClause hpiece hne =>
      exact ⟨hne, (hsound.splitOutside sparesParens_logical).2 _ hpiece⟩
  | negated hkind hne =>
      exact ⟨hne, hsound.2.tail (by rw [hkind]; nofun) (by rw [hkind]; nofun)⟩
  | first => exact hsound
  | behind h => exact hsound.2.of_readOperand h
  | next hkind hne => exact ⟨hne, hsound.tail (by rw [hkind]; nofun) (by rw [hkind]; nofun)⟩
  | group hkind => exact ⟨hsound.2, hsound.2.exists_group hkind⟩
  | inside _ hgroup => exact (hsound.2.of_takeGroup hgroup).1
  | follower hkind => exact ⟨hsound.2.behind_name hkind, hsound.2.exists_follower hkind⟩
  | opening =>
      obtain ⟨hwhole, opening, more, inside, after, heq, -, hgroup⟩ := hsound
      obtain ⟨rfl, rfl⟩ := List.cons.inj heq
      exact ⟨hwhole, inside, after, hgroup⟩
  | arguments hkind hgroup hne => exact ⟨hne, (hsound.2.of_groupAfter (.inl hkind) hgroup).1⟩
  | body hkind hgroup hparameter =>
      exact (hsound.2.of_groupAfter (.inr hkind) hgroup).1.tail
        (by rw [hparameter]; nofun) (by rw [hparameter]; nofun)
  | cutArguments => exact sound_cut sparesParens_comma hsound.2.balanced
  | firstArgument => exact (hsound.2.splitOutside sparesParens_comma).1
  | nextArgument hpiece => exact (hsound.2.splitOutside sparesParens_comma).2 _ hpiece
  | @pass isCut depth token rest =>
      obtain ⟨hcuts, hbalanced, -⟩ := hsound
      obtain ⟨-, hrest⟩ := balancedFrom_cons.1 hbalanced
      split
      · rename_i hcut
        simp only [Bool.and_eq_true, beq_iff_eq] at hcut
        rw [depthAfter_of_ne (hcuts token hcut.2).1 (hcuts token hcut.2).2, hcut.1] at hrest
        exact sound_cut hcuts hrest
      · exact sound_cut hcuts hrest

/-- Every task of a run that begins with a sound one is sound. -/
theorem sound_of_reaches {task last : Task} (h : Relation.ReflTransGen Calls task last)
    (hsound : task.Sound) : last.Sound := by
  induction h with
  | refl => exact hsound
  | tail _ hcall ih => exact hcall.sound ih

end EntityQuery.Filter
