import EntityQuery.Proofs.Filter.Depth
import EntityQuery.Proofs.Filter.Grouping
import EntityQuery.Proofs.Filter.Printing
import Mathlib.Data.List.Forall2

/-!
# Filters as they are written

A filter is written as a sentence: clauses with `and` or `or` between them.  A clause is a chain of
operands with operators between them, in front of which `not` may stand any number of times.  An
operand is a literal, a path, a call, a lambda or a group in parentheses.

A sentence denotes an expression if its operands do.  The operands of a clause are grouped by the
strength of the operators, every `not` takes the rest of its clause, and clauses are joined strictly
from the left.  Reading finds what a sentence denotes, and what cannot be read is no sentence that
denotes anything.
-/

namespace EntityQuery.Filter.Written

/-! ## Sentences -/

/-- Tokens in parentheses. -/
structure Group where
  opening : Token
  inside : List Token
  closing : Token
  opens : opening.kind = .openParen
  closes : closing.kind = .closeParen
  enclosed : Enclosed true inside

/-- An operand. -/
inductive Operand
  | literal (token : Token) (kind : token.kind.isLiteral = true)
  | path (token : Token) (kind : token.kind = .propertyPath)
  | parenthesised (group : Group)
  | applied (name : Token) (kind : name.kind = .functionName ∨ name.kind = .lambda)
      (arguments : Group)

/-- An operator and the operand behind it. -/
structure Link where
  token : Token
  operator : BinaryOperator
  operand : Operand
  kind : token.kind = .binaryOperator
  value : token.value = operator.keyword

/-- Operands with operators between them, and the `not` in front of them. -/
structure Clause where
  negations : List Token
  first : Operand
  links : List Link
  kinds : ∀ token ∈ negations, token.kind = .not

/-- A clause and the `and` or `or` in front of it. -/
structure Joint where
  token : Token
  operator : BinaryOperator
  clause : Clause
  kind : token.kind = .and ∧ operator = .and ∨ token.kind = .or ∧ operator = .or

/-- Clauses with `and` or `or` between them. -/
structure Sentence where
  first : Clause
  joints : List Joint

def Group.tokens (group : Group) : List Token := group.opening :: (group.inside ++ [group.closing])

def Operand.tokens : Operand → List Token
  | literal token _ | path token _ => [token]
  | parenthesised group => group.tokens
  | applied name _ arguments => name :: arguments.tokens

def Link.tokens (link : Link) : List Token := link.token :: link.operand.tokens

/-- The tokens of a clause behind all its `not`. -/
def Clause.chain (clause : Clause) : List Token :=
  clause.first.tokens ++ clause.links.flatMap Link.tokens

def Clause.tokens (clause : Clause) : List Token := clause.negations ++ clause.chain

def Joint.tokens (joint : Joint) : List Token := joint.token :: joint.clause.tokens

def Sentence.tokens (sentence : Sentence) : List Token :=
  sentence.first.tokens ++ sentence.joints.flatMap Joint.tokens

/-! ## What they denote -/

/-- An operand denotes what is read from it alone. -/
def Operand.Denotes (model : Model) (scope : Scope) (operand : Operand) (e : Expression) : Prop :=
  readTokens model scope operand.tokens = .ok e

/-- A clause denotes the grouping of its operands, negated as often as there is a `not`. -/
def Clause.Denotes (model : Model) (scope : Scope) (clause : Clause) (e : Expression) : Prop :=
  ∃ chain : Chain, chain.Grouped ∧ clause.first.Denotes model scope chain.first ∧
    clause.links.Forall₂ (fun link joined =>
      joined.1 = link.operator ∧ link.operand.Denotes model scope joined.2) chain.links ∧
    e = clause.negations.foldr (fun _ e => .unary .not e) chain.toExpression

/-- A sentence denotes what its clauses denote, joined from the left. -/
def Sentence.Denotes (model : Model) (scope : Scope) (sentence : Sentence) (e : Expression) :
    Prop :=
  ∃ (root : Expression) (branches : List (BinaryOperator × Expression)),
    sentence.first.Denotes model scope root ∧
    sentence.joints.Forall₂ (fun joint branch =>
      branch.1 = joint.operator ∧ joint.clause.Denotes model scope branch.2) branches ∧
    e = branches.foldl (fun left branch => .binary branch.1 left branch.2) root

variable {model : Model} {scope : Scope} {inner : InnerReader} {e : Expression}
  {rest after : List Token}

/-! ## Where sentences are cut -/

namespace Group

theorem takeGroup (group : Group) (rest : List Token) :
    takeGroup group.opening (group.inside ++ [group.closing] ++ rest) =
      .ok (group.inside, rest) := by
  rw [List.append_assoc]
  exact takeGroup_of_enclosed group.opens group.closes group.enclosed rest

theorem enclosed_tokens (group : Group) : Enclosed false group.tokens :=
  .group group.opens group.closes group.enclosed .nil

end Group

/-- A token that is no parenthesis, comma, `and` or `or` can stand anywhere. -/
theorem enclosed_cons {token : Token} (h : token.kind ≠ .openParen ∧ token.kind ≠ .closeParen ∧
    token.kind.isLogical = false ∧ token.kind ≠ .comma) (hrest : Enclosed false rest) :
    Enclosed false (token :: rest) :=
  .token h.1 h.2.1 (.inr h.2.2) hrest

namespace Operand

theorem enclosed (operand : Operand) : Enclosed false operand.tokens := by
  cases operand with
  | literal token kind =>
      refine enclosed_cons ?_ .nil
      revert kind
      cases token.kind <;> decide
  | path token kind => exact enclosed_cons (by rw [kind]; decide) .nil
  | parenthesised group => exact group.enclosed_tokens
  | applied name kind arguments =>
      refine enclosed_cons ?_ arguments.enclosed_tokens
      rcases kind with kind | kind <;> rw [kind] <;> decide

/-- No operand begins with `not`. -/
theorem exists_front (operand : Operand) : ∃ token others, operand.tokens = token :: others ∧
    token.kind ≠ .not := by
  cases operand with
  | literal token kind =>
      refine ⟨token, [], rfl, ?_⟩
      rintro hnot
      rw [hnot] at kind
      cases kind
  | path token kind => exact ⟨token, [], rfl, by rw [kind]; decide⟩
  | parenthesised group => exact ⟨group.opening, _, rfl, by rw [group.opens]; decide⟩
  | applied name kind arguments =>
      refine ⟨name, _, rfl, ?_⟩
      rcases kind with kind | kind <;> rw [kind] <;> decide

theorem ne_nil (operand : Operand) : operand.tokens ≠ [] := by
  obtain ⟨token, others, htokens, -⟩ := operand.exists_front
  rw [htokens]
  exact List.cons_ne_nil token others

end Operand

theorem Link.enclosed (link : Link) : Enclosed false link.tokens :=
  enclosed_cons (by rw [link.kind]; decide) link.operand.enclosed

theorem enclosed_links (links : List Link) : Enclosed false (links.flatMap Link.tokens) := by
  induction links with
  | nil => exact .nil
  | cons link links ih => exact link.enclosed.append ih

namespace Clause

theorem enclosed (clause : Clause) : Enclosed false clause.tokens := by
  have hchain : Enclosed false clause.chain :=
    clause.first.enclosed.append (enclosed_links clause.links)
  have hnegations : ∀ negations : List Token, (∀ token ∈ negations, token.kind = .not) →
      Enclosed false (negations ++ clause.chain) := by
    intro negations hkinds
    induction negations with
    | nil => exact hchain
    | cons token negations ih =>
        obtain ⟨hkind, hkinds⟩ := List.forall_mem_cons.1 hkinds
        exact enclosed_cons (by rw [hkind]; decide) (ih hkinds)
  exact hnegations clause.negations clause.kinds

theorem ne_nil (clause : Clause) : clause.tokens ≠ [] := by
  simp [tokens, chain, clause.first.ne_nil]

end Clause

namespace Sentence

theorem splitOutside_joints (joints : List Joint) :
    splitOutside (·.kind.isLogical) 0 (joints.flatMap Joint.tokens) =
      ([], joints.map fun joint => (joint.token, joint.clause.tokens)) := by
  induction joints with
  | nil => rfl
  | cons joint joints ih =>
      have hcut : joint.token.kind.isLogical = true := by
        rcases joint.kind with ⟨kind, -⟩ | ⟨kind, -⟩ <;> rw [kind] <;> rfl
      rw [List.flatMap_cons, Joint.tokens, List.cons_append, splitOutside, if_pos (by simp [hcut]),
        joint.clause.enclosed.splitOutside_append isLogical_of_cut (by simp), ih]
      simp

/-- A sentence is cut into its clauses. -/
theorem splitOutside_tokens (sentence : Sentence) :
    splitOutside (·.kind.isLogical) 0 sentence.tokens =
      (sentence.first.tokens,
        sentence.joints.map fun joint => (joint.token, joint.clause.tokens)) := by
  rw [tokens, sentence.first.enclosed.splitOutside_append isLogical_of_cut (by simp),
    splitOutside_joints]
  simp

end Sentence

/-! ## Reading operands -/

namespace Group

theorem groupAfter (group : Group) (name : Token) (rest : List Token) :
    groupAfter name (group.tokens ++ rest) = .ok (group.inside, rest) :=
  group.takeGroup rest

theorem readCall (group : Group) (name : Token) (rest : List Token) :
    readCall inner scope name (group.tokens ++ rest) =
      (readCall inner scope name group.tokens).map fun read => (read.1, rest) := by
  have halone := group.groupAfter name []
  rw [List.append_nil] at halone
  unfold Filter.readCall
  rw [group.groupAfter, halone]
  cases Function.ofName? name.value with
  | none => rfl
  | some function =>
      simp only [ok_bind]
      cases group.inside.isEmpty with
      | true => rfl
      | false =>
          simp only [Bool.false_eq_true, if_false]
          cases readArguments (inner scope) function none _ _ with
          | error e => rfl
          | ok arguments =>
              simp only [ok_bind]
              split <;> rfl

theorem readLambda (group : Group) (name : Token) (rest : List Token) :
    readLambda model inner scope name (group.tokens ++ rest) =
      (readLambda model inner scope name group.tokens).map fun read => (read.1, rest) := by
  have halone := group.groupAfter name []
  rw [List.append_nil] at halone
  unfold Filter.readLambda
  rw [group.groupAfter, halone]
  cases splitLast? name.value with
  | none => rfl
  | some parts =>
      obtain ⟨sourceText, keyword⟩ := parts
      dsimp only
      cases Quantifier.ofKeyword? keyword with
      | none => rfl
      | some quantifier =>
          dsimp only
          cases resolvePath model scope sourceText with
          | error e => rfl
          | ok resolved =>
              simp only [ok_bind]
              cases elementKey sourceText resolved.1 with
              | error e => rfl
              | ok element =>
                  simp only [ok_bind]
                  cases readLambdaBody inner scope element quantifier name group.inside <;> rfl

end Group

namespace Operand

/-- An operand is read in the same way whatever stands behind it. -/
theorem readOperand_append (operand : Operand) (rest : List Token) :
    readOperand model inner scope (operand.tokens ++ rest) =
      (readOperand model inner scope operand.tokens).map fun read => (read.1, rest) := by
  cases operand with
  | literal token kind =>
      simp only [tokens, List.singleton_append, readOperand_literal kind]
      cases Literal.ofToken model token.kind token.value <;> rfl
  | path token kind =>
      simp only [tokens, List.singleton_append, readOperand, kind]
      cases resolvePath model scope token.value <;> rfl
  | parenthesised group =>
      have hgroup := group.takeGroup rest
      have halone := group.takeGroup []
      rw [List.append_nil] at halone
      simp only [tokens, Group.tokens, List.cons_append, readOperand, group.opens, hgroup, halone,
        ok_bind]
      cases group.inside.isEmpty with
      | true => rfl
      | false =>
          simp only [Bool.false_eq_true, if_false]
          cases inner scope group.inside <;> rfl
  | applied name kind arguments =>
      rcases kind with kind | kind
      · rw [tokens, List.cons_append, readOperand, readOperand]
        simp only [kind]
        exact arguments.readCall name rest
      · rw [tokens, List.cons_append, readOperand, readOperand]
        simp only [kind]
        exact arguments.readLambda name rest

/-- An operand alone is an expression. -/
theorem readTokens_tokens (operand : Operand) : readTokens model scope operand.tokens =
    (readOperand model (readTokens model) scope operand.tokens).map Prod.fst := by
  have hsplit : splitOutside (·.kind.isLogical) 0 (operand.tokens ++ []) =
      (operand.tokens, []) := by
    rw [operand.enclosed.splitOutside_append isLogical_of_cut (by simp)]
    simp [splitOutside]
  have hself : readOperand model (readTokens model) scope (operand.tokens ++ []) = _ :=
    operand.readOperand_append []
  obtain ⟨token, others, htokens, hnot⟩ := operand.exists_front
  rw [htokens, List.append_nil] at hsplit hself
  rw [htokens, readTokens_eq, readWith, hsplit]
  simp only [List.isEmpty_cons, Bool.false_eq_true, if_false, readClause_of_ne_not hnot, readChain,
    joinClauses]
  cases hread : readOperand model (readTokens model) scope (token :: others) with
  | error e => rfl
  | ok read =>
      rw [hread] at hself
      obtain ⟨e, rest⟩ := read
      obtain rfl : rest = [] := by simpa [Except.map] using hself
      rfl

theorem readOperand_eq_ok_iff (operand : Operand) :
    readOperand model (readTokens model) scope (operand.tokens ++ rest) = .ok (e, after) ↔
      operand.Denotes model scope e ∧ rest = after := by
  rw [operand.readOperand_append, Denotes, operand.readTokens_tokens, map_eq_ok, map_eq_ok]
  constructor
  · rintro ⟨read, hread, heq⟩
    obtain ⟨rfl, rfl⟩ := Prod.mk.inj heq
    exact ⟨⟨read, hread, rfl⟩, rfl⟩
  · rintro ⟨⟨read, hread, rfl⟩, rfl⟩
    exact ⟨read, hread, rfl⟩

end Operand

/-! ## Reading clauses -/

theorem readLinks_eq_ok_iff (links : List Link) {limit : Nat}
    (hlimit : (links.flatMap Link.tokens).length ≤ limit)
    {joined : List (BinaryOperator × Expression)} :
    readLinks model (readTokens model) scope limit (links.flatMap Link.tokens) = .ok joined ↔
      links.Forall₂ (fun link joined =>
        joined.1 = link.operator ∧ link.operand.Denotes model scope joined.2) joined := by
  induction links generalizing limit joined with
  | nil =>
      rw [List.forall₂_nil_left_iff]
      cases limit <;> simp [readLinks, eq_comm]
  | cons link links ih =>
      simp only [List.flatMap_cons, Link.tokens, List.cons_append, List.length_cons,
        List.length_append] at hlimit ⊢
      obtain ⟨limit, rfl⟩ : ∃ n, limit = n + 1 := ⟨limit - 1, by omega⟩
      have hne : ((link.operand.tokens ++ links.flatMap Link.tokens).isEmpty) = false := by
        simp [link.operand.ne_nil]
      rw [readLinks, if_neg (by simp [link.kind]), link.value, BinaryOperator.ofKeyword?_keyword]
      simp only [hne, Bool.false_eq_true, if_false]
      rw [bind_eq_ok, List.forall₂_cons_left_iff]
      constructor
      · rintro ⟨⟨operand, after⟩, hread, h⟩
        obtain ⟨hoperand, rfl⟩ := link.operand.readOperand_eq_ok_iff.1 hread
        obtain ⟨others, hothers, h⟩ := bind_eq_ok.1 h
        obtain rfl := pure_eq_ok.1 h
        exact ⟨(link.operator, operand), others, ⟨rfl, hoperand⟩,
          (ih (by omega)).1 hothers, rfl⟩
      · rintro ⟨⟨operator, operand⟩, others, ⟨rfl, hoperand⟩, hothers, rfl⟩
        refine ⟨(operand, _), link.operand.readOperand_eq_ok_iff.2 ⟨hoperand, rfl⟩, ?_⟩
        exact bind_eq_ok.2 ⟨others, (ih (by omega)).2 hothers, rfl⟩

namespace Clause

theorem readChain_eq_ok_iff (clause : Clause) :
    readChain model (readTokens model) scope clause.chain = .ok e ↔
      ∃ chain : Chain, chain.Grouped ∧ clause.first.Denotes model scope chain.first ∧
        clause.links.Forall₂ (fun link joined =>
          joined.1 = link.operator ∧ link.operand.Denotes model scope joined.2) chain.links ∧
        e = chain.toExpression := by
  rw [readChain, chain, bind_eq_ok]
  constructor
  · rintro ⟨⟨first, after⟩, hread, h⟩
    obtain ⟨hfirst, rfl⟩ := clause.first.readOperand_eq_ok_iff.1 hread
    obtain ⟨joined, hjoined, h⟩ := bind_eq_ok.1 h
    obtain rfl := pure_eq_ok.1 h
    obtain ⟨hgrouped, hfirst', hlinks⟩ :=
      Chain.grouped_iff_eq_group.2 (Eq.refl (Chain.group first joined))
    refine ⟨Chain.group first joined, hgrouped, ?_, ?_, rfl⟩
    · rwa [hfirst']
    · rw [hlinks]
      exact (readLinks_eq_ok_iff clause.links (Nat.le_refl _)).1 hjoined
  · rintro ⟨chain, hgrouped, hfirst, hlinks, rfl⟩
    have hjoined := (readLinks_eq_ok_iff clause.links (Nat.le_refl _)).2 hlinks
    refine ⟨(chain.first, _), clause.first.readOperand_eq_ok_iff.2 ⟨hfirst, rfl⟩, ?_⟩
    refine bind_eq_ok.2 ⟨chain.links, hjoined, ?_⟩
    rw [pure_eq_ok, ← Chain.grouped_iff_eq_group.1 ⟨hgrouped, rfl, rfl⟩]

/-- Every `not` in front of a clause negates the rest of it. -/
theorem readClause_append {negations : List Token} (hkinds : ∀ token ∈ negations, token.kind = .not)
    (clause : Clause) : readClause model inner scope (negations ++ clause.chain) =
      (readChain model inner scope clause.chain).map fun e =>
        negations.foldr (fun _ e => .unary .not e) e := by
  obtain ⟨token, others, htokens, hnot⟩ := clause.first.exists_front
  induction negations with
  | nil =>
      rw [List.nil_append, chain, htokens, List.cons_append, readClause_of_ne_not hnot]
      cases readChain model inner scope
        (token :: (others ++ clause.links.flatMap Link.tokens)) <;> rfl
  | cons negation negations ih =>
      obtain ⟨hkind, hkinds⟩ := List.forall_mem_cons.1 hkinds
      have hne : (negations ++ clause.chain).isEmpty = false := by
        simp [chain, htokens]
      rw [List.cons_append, readClause, if_pos (by simp [hkind]), hne, if_neg (by decide),
        ih hkinds]
      cases readChain model inner scope clause.chain <;> rfl

theorem readClause_eq_ok_iff (clause : Clause) :
    readClause model (readTokens model) scope clause.tokens = .ok e ↔
      clause.Denotes model scope e := by
  rw [tokens, readClause_append clause.kinds, map_eq_ok, Denotes]
  simp only [readChain_eq_ok_iff]
  constructor
  · rintro ⟨_, ⟨chain, hgrouped, hfirst, hlinks, rfl⟩, rfl⟩
    exact ⟨chain, hgrouped, hfirst, hlinks, rfl⟩
  · rintro ⟨chain, hgrouped, hfirst, hlinks, rfl⟩
    exact ⟨_, ⟨chain, hgrouped, hfirst, hlinks, rfl⟩, rfl⟩

end Clause

/-! ## Reading sentences -/

theorem Joint.joiningOperator_token (joint : Joint) :
    joiningOperator joint.token = joint.operator := by
  rcases joint.kind with ⟨kind, hoperator⟩ | ⟨kind, hoperator⟩ <;>
    rw [joiningOperator, kind, hoperator] <;> rfl

theorem joinClauses_eq_ok_iff (joints : List Joint) {root : Expression} :
    joinClauses (readClause model (readTokens model) scope) root
        (joints.map fun joint => (joint.token, joint.clause.tokens)) = .ok e ↔
      ∃ branches : List (BinaryOperator × Expression), joints.Forall₂ (fun joint branch =>
          branch.1 = joint.operator ∧ joint.clause.Denotes model scope branch.2) branches ∧
        e = branches.foldl (fun left branch => .binary branch.1 left branch.2) root := by
  induction joints generalizing root with
  | nil => simp [joinClauses, eq_comm]
  | cons joint joints ih =>
      have hne : joint.clause.tokens.isEmpty = false := by simp [joint.clause.ne_nil]
      rw [List.map_cons, joinClauses]
      simp only [hne, Bool.false_eq_true, if_false, joint.joiningOperator_token]
      rw [bind_eq_ok]
      constructor
      · rintro ⟨right, hright, h⟩
        obtain ⟨branches, hbranches, rfl⟩ := ih.1 h
        exact ⟨(joint.operator, right) :: branches,
          .cons ⟨rfl, joint.clause.readClause_eq_ok_iff.1 hright⟩ hbranches, rfl⟩
      · rintro ⟨_, hall, rfl⟩
        obtain ⟨⟨operator, right⟩, branches, ⟨rfl, hright⟩, hbranches, rfl⟩ :=
          List.forall₂_cons_left_iff.1 hall
        exact ⟨right, joint.clause.readClause_eq_ok_iff.2 hright, ih.2 ⟨branches, hbranches, rfl⟩⟩

/-- Reading a sentence gives what it denotes. -/
theorem Sentence.readTokens_eq_ok_iff (sentence : Sentence) :
    readTokens model scope sentence.tokens = .ok e ↔ sentence.Denotes model scope e := by
  have hne : sentence.first.tokens.isEmpty = false := by simp [sentence.first.ne_nil]
  rw [readTokens_eq, readWith, sentence.splitOutside_tokens]
  simp only [hne, Bool.false_eq_true, if_false]
  rw [bind_eq_ok, Denotes]
  simp only [Clause.readClause_eq_ok_iff, joinClauses_eq_ok_iff]
  constructor
  · rintro ⟨root, hroot, branches, hbranches, rfl⟩
    exact ⟨root, branches, hroot, hbranches, rfl⟩
  · rintro ⟨root, branches, hroot, hbranches, rfl⟩
    exact ⟨root, hroot, branches, hbranches, rfl⟩

/-! ## What can be read is a sentence -/

theorem exists_group {opening : Token} {inside : List Token}
    (h : Filter.takeGroup opening rest = .ok (inside, after)) :
    ∃ group : Group, opening :: rest = group.tokens ++ after := by
  obtain ⟨hopening, closing, hclosing, rfl⟩ := takeGroup_eq_ok h
  refine ⟨⟨opening, inside, closing, hopening, hclosing, enclosed_of_takeGroup h⟩, ?_⟩
  simp [Group.tokens]

theorem exists_arguments {name : Token} {inside : List Token}
    (h : Filter.groupAfter name rest = .ok (inside, after)) :
    ∃ group : Group, rest = group.tokens ++ after := by
  cases rest with
  | nil => cases h
  | cons opening rest => exact exists_group h

theorem exists_operand {tokens : List Token}
    (h : readOperand model inner scope tokens = .ok (e, rest)) :
    ∃ operand : Operand, tokens = operand.tokens ++ rest := by
  obtain ⟨token, tokens, rfl, ⟨-, inside, hgroup⟩ | ⟨hkind, inside, hgroup⟩ | ⟨hkind, rfl⟩⟩ :=
    readOperand_cases h
  · obtain ⟨group, hgroup⟩ := exists_group hgroup
    exact ⟨.parenthesised group, hgroup⟩
  · obtain ⟨arguments, rfl⟩ := exists_arguments hgroup
    exact ⟨.applied token hkind arguments, rfl⟩
  · rcases hkind with hkind | hkind
    · exact ⟨.path token hkind, rfl⟩
    · exact ⟨.literal token hkind, rfl⟩

theorem exists_links {limit : Nat} {tokens : List Token}
    {joined : List (BinaryOperator × Expression)}
    (h : readLinks model inner scope limit tokens = .ok joined) :
    ∃ links : List Link, tokens = links.flatMap Link.tokens := by
  induction limit generalizing tokens joined with
  | zero =>
      cases tokens with
      | nil => exact ⟨[], rfl⟩
      | cons token tokens => cases h
  | succ limit ih =>
      cases tokens with
      | nil => exact ⟨[], rfl⟩
      | cons token tokens =>
          unfold readLinks at h
          split at h
          · cases h
          · rename_i hkind
            split at h
            · cases h
            · rename_i operator hoperator
              obtain ⟨-, h⟩ := guard_eq_ok.1 h
              obtain ⟨⟨operand, behind⟩, hoperand, h⟩ := bind_eq_ok.1 h
              obtain ⟨others, hothers, -⟩ := bind_eq_ok.1 h
              obtain ⟨operand, rfl⟩ := exists_operand hoperand
              obtain ⟨links, rfl⟩ := ih hothers
              have hvalue : token.value = operator.keyword := by
                have hfound := List.find?_some hoperator
                exact (beq_iff_eq.1 hfound).symm
              exact ⟨⟨token, operator, operand, by simpa using hkind, hvalue⟩ :: links, rfl⟩

theorem exists_clause {tokens : List Token} (h : readClause model inner scope tokens = .ok e) :
    ∃ clause : Clause, clause.tokens = tokens := by
  have hchain {tokens : List Token} {e : Expression}
      (h : readChain model inner scope tokens = .ok e) :
      ∃ clause : Clause, clause.tokens = tokens := by
    unfold readChain at h
    obtain ⟨⟨first, rest⟩, hfirst, h⟩ := bind_eq_ok.1 h
    obtain ⟨joined, hjoined, -⟩ := bind_eq_ok.1 h
    obtain ⟨first, rfl⟩ := exists_operand hfirst
    obtain ⟨links, rfl⟩ := exists_links hjoined
    exact ⟨⟨[], first, links, List.forall_mem_nil _⟩, rfl⟩
  induction tokens generalizing e with
  | nil => exact hchain h
  | cons token tokens ih =>
      rw [readClause] at h
      split at h
      · rename_i hkind
        split at h
        · cases h
        · obtain ⟨operand, hoperand, -⟩ := map_eq_ok.1 h
          obtain ⟨⟨negations, first, links, kinds⟩, rfl⟩ := ih hoperand
          have hkinds : ∀ negation ∈ token :: negations, negation.kind = .not :=
            List.forall_mem_cons.2 ⟨by simpa using hkind, kinds⟩
          exact ⟨⟨token :: negations, first, links, hkinds⟩, rfl⟩
      · exact hchain h

theorem exists_joints {root : Expression} {more : List (Token × List Token)}
    (hcuts : ∀ piece ∈ more, piece.1.kind.isLogical = true)
    (h : joinClauses (readClause model inner scope) root more = .ok e) :
    ∃ joints : List Joint, joints.flatMap Joint.tokens = joined more := by
  induction more generalizing root with
  | nil => exact ⟨[], rfl⟩
  | cons piece more ih =>
      obtain ⟨hcut, hrest⟩ := List.forall_mem_cons.1 hcuts
      obtain ⟨token, tokens⟩ := piece
      rw [joinClauses] at h
      obtain ⟨-, h⟩ := guard_eq_ok.1 h
      obtain ⟨right, hright, hjoin⟩ := bind_eq_ok.1 h
      obtain ⟨clause, rfl⟩ := exists_clause hright
      obtain ⟨joints, hjoints⟩ := ih hrest hjoin
      have hkind : ∃ operator : BinaryOperator,
          token.kind = .and ∧ operator = .and ∨ token.kind = .or ∧ operator = .or := by
        dsimp only at hcut
        cases hkind : token.kind with
        | and => exact ⟨.and, .inl ⟨rfl, rfl⟩⟩
        | or => exact ⟨.or, .inr ⟨rfl, rfl⟩⟩
        | _ =>
            rw [hkind] at hcut
            cases hcut
      obtain ⟨operator, kind⟩ := hkind
      refine ⟨⟨token, operator, clause, kind⟩ :: joints, ?_⟩
      rw [List.flatMap_cons, hjoints]
      rfl

theorem exists_sentence {tokens : List Token} (h : readTokens model scope tokens = .ok e) :
    ∃ sentence : Sentence, sentence.tokens = tokens := by
  obtain ⟨htokens, hcuts⟩ := splitOutside_eq (·.kind.isLogical) 0 tokens
  rw [readTokens_eq, readWith] at h
  dsimp only at h
  split at h
  · split at h <;> cases h
  · obtain ⟨root, hroot, h⟩ := bind_eq_ok.1 h
    obtain ⟨first, hfirst⟩ := exists_clause hroot
    obtain ⟨joints, hjoints⟩ := exists_joints hcuts h
    refine ⟨⟨first, joints⟩, ?_⟩
    rw [Sentence.tokens, hfirst, hjoints, ← htokens]

/-! ## Reading filters -/

/-- Parentheses around an expression do not change what is read. -/
theorem Group.readTokens_eq_ok_iff (group : Group) :
    readTokens model scope group.tokens = .ok e ↔ readTokens model scope group.inside = .ok e := by
  have hgroup : Filter.takeGroup group.opening (group.inside ++ [group.closing]) =
      .ok (group.inside, []) := by
    have htaken := group.takeGroup []
    rwa [List.append_nil] at htaken
  have hread : readTokens model scope group.tokens = _ :=
    (Operand.parenthesised group).readTokens_tokens
  rw [hread, Operand.tokens, Group.tokens, readOperand.eq_def]
  simp only [group.opens, hgroup, ok_bind]
  cases hinside : group.inside with
  | nil =>
      rw [readTokens_eq]
      constructor <;> intro h <;> cases h
  | cons token tokens =>
      simp only [List.isEmpty_cons, Bool.false_eq_true, if_false]
      cases readTokens model scope (token :: tokens) with
      | error error => constructor <;> intro h <;> cases h
      | ok inner => rfl

theorem Sentence.enclosed (sentence : Sentence) : Enclosed true sentence.tokens := by
  have hjoints : ∀ joints : List Joint, Enclosed true (joints.flatMap Joint.tokens) := by
    intro joints
    induction joints with
    | nil => exact .nil
    | cons joint joints ih =>
        have hplain : joint.token.kind ≠ .openParen ∧ joint.token.kind ≠ .closeParen := by
          rcases joint.kind with ⟨kind, -⟩ | ⟨kind, -⟩ <;> rw [kind] <;> decide
        exact .token hplain.1 hplain.2 (.inl rfl) (joint.clause.enclosed.deepen.append ih)
  exact sentence.first.enclosed.deepen.append (hjoints sentence.joints)

/-- The filters that can be read are the sentences that denote something. -/
theorem parse_eq_ok_iff {type : TypeKey} {input : String} :
    parse model type input = .ok e ↔ ∃ sentence : Sentence,
      tokenize input = .ok sentence.tokens ∧ sentence.Denotes model ⟨type, []⟩ e := by
  unfold parse
  rw [bind_eq_ok]
  constructor
  · rintro ⟨tokens, htokens, h⟩
    obtain ⟨-, h⟩ := guard_eq_ok.1 h
    obtain ⟨-, -, hread⟩ := bind_eq_ok.1 h
    obtain ⟨sentence, rfl⟩ := exists_sentence hread
    exact ⟨sentence, htokens, sentence.readTokens_eq_ok_iff.1 hread⟩
  · rintro ⟨sentence, htokens, hdenotes⟩
    have hne : sentence.tokens.isEmpty = false := by
      simp [Sentence.tokens, sentence.first.ne_nil]
    have hbalance : checkBalance input.utf8ByteSize [] sentence.tokens = .ok () := by
      have happend := sentence.enclosed.checkBalance_append input.utf8ByteSize [] []
      rwa [List.append_nil] at happend
    refine ⟨sentence.tokens, htokens, guard_eq_ok.2 ⟨by simp [hne], ?_⟩⟩
    exact bind_eq_ok.2 ⟨(), hbalance, sentence.readTokens_eq_ok_iff.2 hdenotes⟩

/-- Operands with operators between them can be grouped by the strength of the operators in exactly
one way.  An expression in parentheses is read like the expression itself.  What is read from a
sentence is what it denotes: the operands of every clause are grouped in that way, every `not` takes
the rest of its clause and nothing else, and `and` and `or` join the clauses from the left without
regard for each other.  Every filter that can be read is such a sentence. -/
theorem reads_by_strength (model : Model) :
    (∀ (first : Expression) (links : List (BinaryOperator × Expression)), ∃! chain : Chain,
      chain.Grouped ∧ chain.first = first ∧ chain.links = links) ∧
    ((∀ level ∈ Chain.levels, ∀ a ∈ level, ∀ b ∈ level, a.precedence = b.precedence) ∧
      Chain.levels.Pairwise (fun loose tight =>
        ∀ a ∈ loose, ∀ b ∈ tight, a.precedence < b.precedence) ∧
      ∀ operator, operator ∈ Chain.levels.flatten ↔ operator.isLogical = false) ∧
    (∀ (scope : Scope) (group : Group) (e : Expression),
      readTokens model scope group.tokens = .ok e ↔ readTokens model scope group.inside = .ok e) ∧
    (∀ (scope : Scope) (sentence : Sentence) (e : Expression),
      readTokens model scope sentence.tokens = .ok e ↔ sentence.Denotes model scope e) ∧
    ∀ (type : TypeKey) (input : String) (e : Expression),
      parse model type input = .ok e ↔ ∃ sentence : Sentence,
        tokenize input = .ok sentence.tokens ∧ sentence.Denotes model ⟨type, []⟩ e := by
  refine ⟨fun first links => ?_, ?_, fun scope group e => group.readTokens_eq_ok_iff,
    fun scope sentence e => sentence.readTokens_eq_ok_iff, fun type input e => parse_eq_ok_iff⟩
  · exact ⟨Chain.group first links, Chain.grouped_iff_eq_group.2 rfl,
      fun chain hchain => Chain.grouped_iff_eq_group.1 hchain⟩
  · exact ⟨Chain.precedence_levels.1, Chain.precedence_levels.2, Chain.mem_levels⟩

end EntityQuery.Filter.Written
