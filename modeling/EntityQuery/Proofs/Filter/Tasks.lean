import EntityQuery.Filter.Parser
import EntityQuery.Proofs.Result
import Mathlib.Logic.Relation

/-!
# What reading a filter works on

The functions that read a filter hand slices of its tokens to each other.  A `Task` is one of these
functions with the tokens that it is given, and `Calls` says which tasks a task may lead to: there
is one rule for every call in their definitions, under the conditions that are checked before it.

The rules ask for nothing else.  In particular names need not be known, and to go on behind an
operand it is enough that some reader gets past it.  So no run makes a call that is not among them:
what is read depends on the expressions that are reached and on no other ones (`readWith_congr`).
-/

namespace EntityQuery.Filter

/-- A function at work on tokens. -/
inductive Task
  | expression (tokens : List Token)
  | clause (tokens : List Token)
  | operand (tokens : List Token)
  -- What is behind the first operand of a chain.
  | links (tokens : List Token)
  | group (opening : Token) (rest : List Token)
  -- The group that has to follow the name of a function or a lambda.
  | follower (name : Token) (rest : List Token)
  | arguments (tokens : List Token)
  -- A cut into pieces that has come to tokens inside of so many groups.
  | cut (isCut : Token → Bool) (depth : Nat) (tokens : List Token)

/-- The tasks that a task leads to. -/
inductive Calls : Task → Task → Prop
  | cutClauses {tokens : List Token} :
      Calls (.expression tokens) (.cut (·.kind.isLogical) 0 tokens)
  | firstClause {tokens : List Token} (hne : (splitOutside (·.kind.isLogical) 0 tokens).1 ≠ []) :
      Calls (.expression tokens) (.clause (splitOutside (·.kind.isLogical) 0 tokens).1)
  | nextClause {tokens : List Token} {piece : Token × List Token}
      (hpiece : piece ∈ (splitOutside (·.kind.isLogical) 0 tokens).2) (hne : piece.2 ≠ []) :
      Calls (.expression tokens) (.clause piece.2)
  | negated {token : Token} {rest : List Token} (hkind : token.kind = .not) (hne : rest ≠ []) :
      Calls (.clause (token :: rest)) (.clause rest)
  | first {tokens : List Token} (hkind : ∀ token ∈ tokens.head?, token.kind ≠ .not) :
      Calls (.clause tokens) (.operand tokens)
  | behind {model : Model} {inner : InnerReader} {scope : Scope} {tokens after : List Token}
      {e : Expression} (h : readOperand model inner scope tokens = .ok (e, after)) :
      Calls (.operand tokens) (.links after)
  | next {operator : Token} {rest : List Token} (hkind : operator.kind = .binaryOperator)
      (hne : rest ≠ []) : Calls (.links (operator :: rest)) (.operand rest)
  | group {token : Token} {rest : List Token} (hkind : token.kind = .openParen) :
      Calls (.operand (token :: rest)) (.group token rest)
  | inside {token : Token} {rest inside after : List Token} (hkind : token.kind = .openParen)
      (hgroup : takeGroup token rest = .ok (inside, after)) (hne : inside ≠ []) :
      Calls (.operand (token :: rest)) (.expression inside)
  | follower {token : Token} {rest : List Token}
      (hkind : token.kind = .functionName ∨ token.kind = .lambda) :
      Calls (.operand (token :: rest)) (.follower token rest)
  | opening {name opening : Token} {rest : List Token} :
      Calls (.follower name (opening :: rest)) (.group opening rest)
  | arguments {token : Token} {rest inside after : List Token} (hkind : token.kind = .functionName)
      (hgroup : groupAfter token rest = .ok (inside, after)) (hne : inside ≠ []) :
      Calls (.operand (token :: rest)) (.arguments inside)
  | body {token parameter : Token} {rest body after : List Token} (hkind : token.kind = .lambda)
      (hgroup : groupAfter token rest = .ok (parameter :: body, after))
      (hparameter : parameter.kind = .lambdaParameter) (hne : body ≠ []) :
      Calls (.operand (token :: rest)) (.expression body)
  | cutArguments {tokens : List Token} :
      Calls (.arguments tokens) (.cut (·.kind == .comma) 0 tokens)
  | firstArgument {tokens : List Token} (hne : (splitOutside (·.kind == .comma) 0 tokens).1 ≠ []) :
      Calls (.arguments tokens) (.expression (splitOutside (·.kind == .comma) 0 tokens).1)
  | nextArgument {tokens : List Token} {piece : Token × List Token}
      (hpiece : piece ∈ (splitOutside (·.kind == .comma) 0 tokens).2) (hne : piece.2 ≠ []) :
      Calls (.arguments tokens) (.expression piece.2)
  | pass {isCut : Token → Bool} {depth : Nat} {token : Token} {rest : List Token} :
      Calls (.cut isCut depth (token :: rest))
        (.cut isCut (if depth == 0 && isCut token then 0 else depthAfter depth token) rest)

/-- Something holds of all expressions that a task leads to, in every scope. -/
def Behind (task : Task) (P : Scope → List Token → Prop) : Prop :=
  ∀ scope tokens, Relation.TransGen Calls task (.expression tokens) → P scope tokens

section Behind

variable {task next : Task} {P : Scope → List Token → Prop} {tokens : List Token}

theorem Behind.step (h : Behind task P) (hcall : Calls task next) : Behind next P :=
  fun scope tokens hreach => h scope tokens (.head hcall hreach)

theorem Behind.apply (h : Behind task P) (hcall : Calls task (.expression tokens)) (scope : Scope) :
    P scope tokens :=
  h scope tokens (.single hcall)

end Behind

/-! ## Readers that agree on what is reached -/

variable {model : Model} {scope : Scope} {inner other : InnerReader} {token : Token}
  {tokens inside rest after : List Token} {e : Expression}

theorem readArguments_congr {read read' : List Token → Except QueryError Expression}
    {function : Function} {before : Option Token} {piece : List Token}
    {more : List (Token × List Token)} (hpiece : piece ≠ [] → read piece = read' piece)
    (hmore : ∀ next ∈ more, next.2 ≠ [] → read next.2 = read' next.2) :
    readArguments read function before piece more
      = readArguments read' function before piece more := by
  induction more generalizing before piece with
  | nil =>
      cases piece with
      | nil => cases before <;> rfl
      | cons token piece =>
          rw [readArguments, readArguments, hpiece (List.cons_ne_nil token piece)]
  | cons next more ih =>
      obtain ⟨hnext, hrest⟩ := List.forall_mem_cons.1 hmore
      obtain ⟨comma, next⟩ := next
      rw [readArguments, readArguments, ih hnext hrest]
      cases piece with
      | nil => rfl
      | cons token piece => rw [hpiece (List.cons_ne_nil token piece)]

theorem readCall_congr (hkind : token.kind = .functionName)
    (h : Behind (.operand (token :: rest)) fun scope slice =>
      inner scope slice = other scope slice) :
    readCall inner scope token rest = readCall other scope token rest := by
  unfold readCall
  split
  · rfl
  · cases hgroup : groupAfter token rest with
    | error e => rfl
    | ok parts =>
        obtain ⟨inside, after⟩ := parts
        rw [ok_bind, ok_bind]
        dsimp only
        by_cases hne : inside = []
        · subst hne
          rfl
        · have hslices := h.step (.arguments hkind hgroup hne)
          rw [readArguments_congr (fun hne => hslices.apply (.firstArgument hne) scope)
            fun next hnext hne => hslices.apply (.nextArgument hnext hne) scope]

theorem readLambda_congr (hkind : token.kind = .lambda)
    (h : Behind (.operand (token :: rest)) fun scope slice =>
      inner scope slice = other scope slice) :
    readLambda model inner scope token rest = readLambda model other scope token rest := by
  unfold readLambda
  split
  · rfl
  · split
    · rfl
    · cases hgroup : groupAfter token rest with
      | error e => rfl
      | ok parts =>
          obtain ⟨inside, after⟩ := parts
          have hbody (element : TypeKey) (quantifier : Quantifier) :
              readLambdaBody inner scope element quantifier token inside
                = readLambdaBody other scope element quantifier token inside := by
            cases inside with
            | nil => rfl
            | cons parameter body =>
                by_cases hparameter : parameter.kind = .lambdaParameter
                · by_cases hne : body = []
                  · subst hne
                    rfl
                  · have hsame (scope : Scope) : inner scope body = other scope body :=
                      h.apply (.body hkind hgroup hparameter hne) scope
                    simp only [readLambdaBody, hsame]
                · have hwrong : (parameter.kind != .lambdaParameter) = true := by
                    simpa using hparameter
                  rw [readLambdaBody, readLambdaBody, if_pos hwrong, if_pos hwrong]
                  rfl
          simp only [ok_bind, hbody]

theorem readOperand_congr
    (h : Behind (.operand tokens) fun scope slice => inner scope slice = other scope slice) :
    readOperand model inner scope tokens = readOperand model other scope tokens := by
  cases tokens with
  | nil => rfl
  | cons token rest =>
      unfold readOperand
      dsimp only
      split
      · rename_i hkind
        cases hgroup : takeGroup token rest with
        | error e => rfl
        | ok parts =>
            obtain ⟨inside, after⟩ := parts
            rw [ok_bind, ok_bind]
            dsimp only
            by_cases hne : inside = []
            · subst hne
              rfl
            · rw [h.apply (.inside hkind hgroup hne) scope]
      · rename_i hkind
        exact readCall_congr hkind h
      · rename_i hkind
        exact readLambda_congr hkind h
      · rfl
      · rfl

theorem readLinks_congr {limit : Nat}
    (h : Behind (.links tokens) fun scope slice => inner scope slice = other scope slice) :
    readLinks model inner scope limit tokens = readLinks model other scope limit tokens := by
  induction limit generalizing tokens with
  | zero => cases tokens <;> rfl
  | succ limit ih =>
      cases tokens with
      | nil => rfl
      | cons token rest =>
          unfold readLinks
          split
          · rfl
          · rename_i hkind
            split
            · rfl
            · by_cases hne : rest = []
              · subst hne
                rfl
              · have hrest := h.step (.next (by simpa using hkind) hne)
                rw [readOperand_congr hrest]
                cases hoperand : readOperand model other scope rest with
                | error e => rfl
                | ok parts =>
                    obtain ⟨operand, after⟩ := parts
                    rw [ok_bind, ok_bind]
                    dsimp only
                    rw [ih (hrest.step (.behind hoperand))]

theorem readChain_congr
    (h : Behind (.operand tokens) fun scope slice => inner scope slice = other scope slice) :
    readChain model inner scope tokens = readChain model other scope tokens := by
  unfold readChain
  rw [readOperand_congr h]
  cases hoperand : readOperand model other scope tokens with
  | error e => rfl
  | ok parts =>
      obtain ⟨first, rest⟩ := parts
      rw [ok_bind, ok_bind]
      dsimp only
      rw [readLinks_congr (h.step (.behind hoperand))]

theorem readClause_congr
    (h : Behind (.clause tokens) fun scope slice => inner scope slice = other scope slice) :
    readClause model inner scope tokens = readClause model other scope tokens := by
  induction tokens with
  | nil => exact readChain_congr (h.step (.first nofun))
  | cons token rest ih =>
      rw [readClause, readClause]
      by_cases hkind : token.kind = .not
      · have hnot : (token.kind == .not) = true := by simpa using hkind
        rw [if_pos hnot, if_pos hnot]
        by_cases hne : rest = []
        · subst hne
          rfl
        · rw [ih (h.step (.negated hkind hne))]
      · rw [readChain_congr (h.step (.first (by simpa using hkind)))]
        simp [hkind]

theorem joinClauses_congr {clause clause' : List Token → Except QueryError Expression}
    {more : List (Token × List Token)}
    (h : ∀ next ∈ more, next.2 ≠ [] → clause next.2 = clause' next.2) :
    joinClauses clause e more = joinClauses clause' e more := by
  induction more generalizing e with
  | nil => rfl
  | cons next more ih =>
      obtain ⟨hnext, hrest⟩ := List.forall_mem_cons.1 h
      obtain ⟨token, tokens⟩ := next
      rw [joinClauses, joinClauses]
      cases tokens with
      | nil => rfl
      | cons token' tokens => simp only [hnext (List.cons_ne_nil token' tokens), ih hrest]

/-- An expression is read from the expressions that it leads to. -/
theorem readWith_congr
    (h : Behind (.expression tokens) fun scope slice => inner scope slice = other scope slice) :
    readWith model inner scope tokens = readWith model other scope tokens := by
  unfold readWith
  dsimp only
  have hjoin (root : Expression) :
      joinClauses (readClause model inner scope) root (splitOutside (·.kind.isLogical) 0 tokens).2
        = joinClauses (readClause model other scope) root
            (splitOutside (·.kind.isLogical) 0 tokens).2 :=
    joinClauses_congr fun next hnext hne => readClause_congr (h.step (.nextClause hnext hne))
  by_cases hne : (splitOutside (·.kind.isLogical) 0 tokens).1 = []
  · rw [hne]
    -- Both sides are the same error before the readers come into play.
    cases (splitOutside (·.kind.isLogical) 0 tokens).2 with
    | nil => exact (error_bind _ _).trans (error_bind _ _).symm
    | cons next more => exact (error_bind _ _).trans (error_bind _ _).symm
  · simp only [readClause_congr (h.step (.firstClause hne)), hjoin]

end EntityQuery.Filter
