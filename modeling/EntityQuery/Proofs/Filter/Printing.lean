import EntityQuery.Proofs.Filter.Groups
import EntityQuery.Proofs.Filter.Paths
import EntityQuery.Proofs.Filter.Words

/-!
# Reading what was printed

`Prints model scope e words` says that the text of `e` is cut into `words`, whatever operator,
comma or parenthesis stands behind it, and that these words are read as the operand `e` again.
An operator is printed between parentheses with its operands, so that neither the operators around
it nor its strength matter.
-/

namespace EntityQuery.Filter

/-- An expression is printed as words that are read as an operand again. -/
structure Prints (model : Model) (scope : Scope) (e : Expression)
    (words : List (TokenKind × String)) : Prop where
  reads : ∀ {rest : List Char} {more : List (TokenKind × String)}, Delimited rest →
    Reads rest more → Reads (e.text.toList ++ rest) (words ++ more)
  enclosed : ∀ {tokens : List Token}, tokens.map Token.word = words → Enclosed false tokens
  operand : ∀ {depth : Nat} {tokens : List Token} (rest : List Token),
    tokens.map Token.word = words → tokens.length ≤ depth →
      readOperand model (readNested model depth) scope (tokens ++ rest) = .ok (e, rest)
  front : ∃ word others, words = word :: others ∧ word.1 ≠ .not

variable {kind : TokenKind} {t rest : List Char} {words more : List (TokenKind × String)}
variable {model : Model} {scope : Scope} {e left right operand : Expression} {depth : Nat}
variable {tokens after : List Token} {inner : InnerReader}
variable {leftWords rightWords : List (TokenKind × String)}

/-! ## Reading words, given how operands are read -/

theorem isLogical_of_cut (token : Token) (h : token.kind.isLogical = true) :
    token.kind.isLogical = true ∨ token.kind = .comma := .inl h

theorem readClause_of_ne_not {token : Token} (h : token.kind ≠ .not) :
    readClause model inner scope (token :: tokens) =
      readChain model inner scope (token :: tokens) := by
  rw [readClause, if_neg (by simpa using h)]

theorem readWith_of_clause (hne : tokens ≠ [])
    (hsplit : splitOutside (·.kind.isLogical) 0 tokens = (tokens, []))
    (h : readClause model inner scope tokens = .ok e) :
    readWith model inner scope tokens = .ok e := by
  rw [readWith, hsplit]
  cases tokens with
  | nil => exact absurd rfl hne
  | cons token tokens =>
      simp only [List.isEmpty_cons]
      rw [h]
      rfl

/-- Two clauses with `and` or `or` between them. -/
theorem readWith_joined {operator : BinaryOperator} {token : Token}
    {leftTokens rightTokens : List Token} (hleft : Enclosed false leftTokens)
    (hright : Enclosed false rightTokens) (hleftNe : leftTokens ≠ []) (hrightNe : rightTokens ≠ [])
    (hleftClause : readClause model inner scope leftTokens = .ok left)
    (hrightClause : readClause model inner scope rightTokens = .ok right)
    (hkind : token.kind = operatorKind operator) (hlogical : operator = .and ∨ operator = .or) :
    readWith model inner scope (leftTokens ++ token :: rightTokens) =
      .ok (.binary operator left right) := by
  have hcut : token.kind.isLogical = true := by
    rcases hlogical with rfl | rfl <;> rw [hkind] <;> rfl
  have hjoin : joiningOperator token = operator := by
    rcases hlogical with rfl | rfl <;> rw [joiningOperator, hkind] <;> rfl
  -- The operator cuts the tokens into two clauses.
  have hsplit : splitOutside (·.kind.isLogical) 0 (leftTokens ++ token :: rightTokens)
      = (leftTokens, [(token, rightTokens)]) := by
    have hdeep : false = true → 0 < 0 := by simp
    have hbehind := hright.splitOutside_append isLogical_of_cut hdeep []
    rw [List.append_nil] at hbehind
    rw [hleft.splitOutside_append isLogical_of_cut (by simp), splitOutside]
    simp [hcut, hbehind, splitOutside]
  rw [readWith, hsplit]
  simp only [List.isEmpty_iff, hleftNe, if_false]
  rw [hleftClause]
  simp [joinClauses, hrightNe, hrightClause, hjoin]

namespace Prints

theorem ne_nil (h : Prints model scope e words) (htokens : tokens.map Token.word = words) :
    tokens ≠ [] := by
  rintro rfl
  obtain ⟨word, others, rfl, -⟩ := h.front
  cases htokens

theorem split (h : Prints model scope e words) (htokens : tokens.map Token.word = words)
    (after : List Token) : splitOutside (·.kind.isLogical) 0 (tokens ++ after)
      = (tokens ++ (splitOutside (·.kind.isLogical) 0 after).1,
        (splitOutside (·.kind.isLogical) 0 after).2) :=
  (h.enclosed htokens).splitOutside_append isLogical_of_cut (by simp) after

theorem split_self (h : Prints model scope e words) (htokens : tokens.map Token.word = words) :
    splitOutside (·.kind.isLogical) 0 tokens = (tokens, []) := by
  simpa [splitOutside] using h.split htokens []

/-- An operand and the operators behind it form a chain. -/
theorem chain (h : Prints model scope e words) (htokens : tokens.map Token.word = words)
    (hdepth : tokens.length ≤ depth) (after : List Token) :
    readClause model (readNested model depth) scope (tokens ++ after)
      = (readLinks model (readNested model depth) scope after.length after).map fun links =>
        (Chain.group e links).toExpression := by
  obtain ⟨word, others, rfl, hnot⟩ := h.front
  obtain ⟨token, tokens, rfl, rfl, hothers⟩ := List.map_eq_cons_iff.1 htokens
  rw [List.cons_append, readClause_of_ne_not hnot, ← List.cons_append, readChain,
    h.operand after htokens hdepth, ok_bind]
  dsimp only
  cases readLinks model (readNested model depth) scope after.length after <;> rfl

theorem clause (h : Prints model scope e words) (htokens : tokens.map Token.word = words)
    (hdepth : tokens.length ≤ depth) :
    readClause model (readNested model depth) scope tokens = .ok e := by
  have hchain := h.chain htokens hdepth []
  rw [List.append_nil] at hchain
  rw [hchain]
  rfl

/-- An operand alone is an expression. -/
theorem nested (h : Prints model scope e words) (htokens : tokens.map Token.word = words)
    (hdepth : tokens.length ≤ depth) : readNested model (depth + 1) scope tokens = .ok e :=
  readWith_of_clause (h.ne_nil htokens) (h.split_self htokens) (h.clause htokens hdepth)

/-- Two operands with `and` or `or` between them are two clauses. -/
theorem nested_joined (hleft : Prints model scope left leftWords)
    (hright : Prints model scope right rightWords) {operator : BinaryOperator} {token : Token}
    {leftTokens rightTokens : List Token} (hleftTokens : leftTokens.map Token.word = leftWords)
    (hrightTokens : rightTokens.map Token.word = rightWords)
    (hleftDepth : leftTokens.length ≤ depth) (hrightDepth : rightTokens.length ≤ depth)
    (hkind : token.kind = operatorKind operator) (hlogical : operator = .and ∨ operator = .or) :
    readNested model (depth + 1) scope (leftTokens ++ token :: rightTokens) =
      .ok (.binary operator left right) :=
  readWith_joined (hleft.enclosed hleftTokens) (hright.enclosed hrightTokens)
    (hleft.ne_nil hleftTokens) (hright.ne_nil hrightTokens) (hleft.clause hleftTokens hleftDepth)
    (hright.clause hrightTokens hrightDepth) hkind hlogical

/-- Two operands with any other operator between them are a chain of one link. -/
theorem clause_chained (hleft : Prints model scope left leftWords)
    (hright : Prints model scope right rightWords) {operator : BinaryOperator} {token : Token}
    {leftTokens rightTokens : List Token} (hleftTokens : leftTokens.map Token.word = leftWords)
    (hrightTokens : rightTokens.map Token.word = rightWords)
    (hleftDepth : leftTokens.length ≤ depth) (hrightDepth : rightTokens.length ≤ depth)
    (hkind : token.kind = .binaryOperator) (hvalue : token.value = operator.keyword) :
    readClause model (readNested model depth) scope (leftTokens ++ token :: rightTokens) =
      .ok (.binary operator left right) := by
  have hrightNe : rightTokens ≠ [] := hright.ne_nil hrightTokens
  have hlinks : readLinks model (readNested model depth) scope (token :: rightTokens).length
      (token :: rightTokens) = .ok [(operator, right)] := by
    have hoperand := hright.operand [] hrightTokens hrightDepth
    rw [List.append_nil] at hoperand
    rw [List.length_cons, readLinks, if_neg (by simp [hkind]), hvalue,
      BinaryOperator.ofKeyword?_keyword]
    simp only [List.isEmpty_iff, hrightNe, if_false, hoperand, ok_bind, readLinks]
    rfl
  rw [hleft.chain hleftTokens hleftDepth, hlinks]
  rfl

/-- A chain is a clause by itself. -/
theorem nested_chained (hleft : Prints model scope left leftWords)
    (hright : Prints model scope right rightWords) {operator : BinaryOperator} {token : Token}
    {leftTokens rightTokens : List Token} (hleftTokens : leftTokens.map Token.word = leftWords)
    (hrightTokens : rightTokens.map Token.word = rightWords)
    (hleftDepth : leftTokens.length ≤ depth) (hrightDepth : rightTokens.length ≤ depth)
    (hkind : token.kind = .binaryOperator) (hvalue : token.value = operator.keyword) :
    readNested model (depth + 1) scope (leftTokens ++ token :: rightTokens) =
      .ok (.binary operator left right) := by
  have hsplit : splitOutside (·.kind.isLogical) 0 (leftTokens ++ token :: rightTokens)
      = (leftTokens ++ token :: rightTokens, []) := by
    have hkeep : token.kind.isLogical = false := by rw [hkind]; rfl
    have hsame : depthAfter 0 token = 0 := by rw [depthAfter, hkind]
    rw [hleft.split hleftTokens, splitOutside]
    simp [hkeep, hsame, hright.split_self hrightTokens]
  exact readWith_of_clause (by simp) hsplit (hleft.clause_chained hright hleftTokens hrightTokens
    hleftDepth hrightDepth hkind hvalue)

/-- Two operands with an operator between them are read as its application. -/
theorem nested_binary (hleft : Prints model scope left leftWords)
    (hright : Prints model scope right rightWords) {operator : BinaryOperator}
    (htokens : tokens.map Token.word
      = leftWords ++ (operatorKind operator, operator.keyword) :: rightWords)
    (hdepth : tokens.length ≤ depth) :
    readNested model (depth + 1) scope tokens = .ok (.binary operator left right) := by
  obtain ⟨leftTokens, token, rightTokens, rfl, hleftTokens, hkind, hvalue, hrightTokens⟩ :=
    exists_between htokens
  simp only [List.length_append, List.length_cons] at hdepth
  have hleftDepth : leftTokens.length ≤ depth := by omega
  have hrightDepth : rightTokens.length ≤ depth := by omega
  by_cases hlogical : operator = .and ∨ operator = .or
  · exact hleft.nested_joined hright hleftTokens hrightTokens hleftDepth hrightDepth hkind hlogical
  · have hplain : operatorKind operator = .binaryOperator := by
      cases operator <;> simp at hlogical ⊢ <;> rfl
    exact hleft.nested_chained hright hleftTokens hrightTokens hleftDepth hrightDepth
      (hkind.trans hplain) hvalue

/-- An operand behind `not` is read as its negation. -/
theorem nested_not (h : Prints model scope e words)
    (htokens : tokens.map Token.word = (.not, "not") :: words) (hdepth : tokens.length ≤ depth) :
    readNested model (depth + 1) scope tokens = .ok (.unary .not e) := by
  obtain ⟨token, tokens, rfl, hkind, -, hrest⟩ := exists_token htokens
  have hne : tokens ≠ [] := h.ne_nil hrest
  rw [List.length_cons] at hdepth
  refine readWith_of_clause (by simp) ?_ ?_
  · have hkeep : token.kind.isLogical = false := by rw [hkind]; rfl
    have hsame : depthAfter 0 token = 0 := by rw [depthAfter, hkind]
    rw [splitOutside]
    simp [hkeep, hsame, h.split_self hrest]
  · rw [readClause, if_pos (by simp [hkind]), h.clause hrest (by omega)]
    simp [hne, Except.map]

end Prints

/-! ## Words in parentheses -/

/-- What is printed in parentheses is read as an operand if it is read as an expression. -/
theorem prints_group (text : List Char) (htext : e.text.toList = '(' :: (text ++ [')']))
    (hne : words ≠ [])
    (hreads : ∀ {rest more}, Reads rest more →
      Reads (text ++ ')' :: rest) (words ++ (.closeParen, ")") :: more))
    (henclosed : ∀ {tokens : List Token}, tokens.map Token.word = words → Enclosed true tokens)
    (hnested : ∀ {depth : Nat} {tokens : List Token}, tokens.map Token.word = words →
      tokens.length ≤ depth → readNested model (depth + 1) scope tokens = .ok e) :
    Prints model scope e ((.openParen, "(") :: (words ++ [(.closeParen, ")")])) := by
  refine ⟨fun _ hrest => ?_, fun htokens => ?_, ?_, _, _, rfl, by decide⟩
  · rw [htext]
    simp only [List.cons_append, List.append_assoc, List.nil_append]
    exact (hreads hrest).openParen
  · obtain ⟨opening, inside, closing, rfl, hopening, hinside, hclosing⟩ := exists_group htokens
    exact .group hopening hclosing (henclosed hinside) .nil
  · intro depth tokens after htokens hdepth
    obtain ⟨opening, inside, closing, rfl, hopening, hinside, hclosing⟩ := exists_group htokens
    simp only [List.length_cons, List.length_append, List.length_nil] at hdepth
    -- The parentheses use up one level, which is more than they need.
    obtain ⟨depth, rfl⟩ : ∃ d, depth = d + 1 := ⟨depth - 1, by omega⟩
    have hinsideNe : inside ≠ [] := by
      rintro rfl
      exact hne hinside.symm
    have hgroup := takeGroup_of_enclosed hopening hclosing (henclosed hinside) after
    simp only [List.cons_append, List.append_assoc, List.nil_append]
    rw [readOperand.eq_def]
    simp only [hopening]
    rw [hgroup, ok_bind]
    simp only [List.isEmpty_iff, hinsideNe, if_false]
    rw [hnested hinside (by omega)]
    rfl

theorem Prints.reads_binary (hleft : Prints model scope left leftWords)
    (hright : Prints model scope right rightWords) (operator : BinaryOperator)
    (hrest : Delimited rest) (h : Reads rest more) :
    Reads (left.text.toList ++ ' ' :: (operator.keyword.toList ++
        ' ' :: (right.text.toList ++ rest)))
      (leftWords ++ (operatorKind operator, operator.keyword) :: (rightWords ++ more)) := by
  refine hleft.reads (delimited_blank _) (Reads.blank ?_)
  exact Reads.operator (Reads.blank (hright.reads hrest h)) operator

theorem Prints.binary (hleft : Prints model scope left leftWords)
    (hright : Prints model scope right rightWords) (operator : BinaryOperator) :
    Prints model scope (.binary operator left right) ((.openParen, "(") ::
      ((leftWords ++ (operatorKind operator, operator.keyword) :: rightWords)
        ++ [(.closeParen, ")")])) := by
  refine prints_group (left.text.toList ++ ' ' :: (operator.keyword.toList ++
      ' ' :: right.text.toList)) ?_ (by simp) (fun hrest => ?_) (fun htokens => ?_)
    fun htokens hdepth => hleft.nested_binary hright htokens hdepth
  · simp [Expression.text, toString]
  · simp only [List.append_assoc, List.cons_append]
    exact hleft.reads_binary hright operator (delimited_close _) hrest.closeParen
  · obtain ⟨leftTokens, token, rightTokens, rfl, hleftTokens, hkind, -, hrightTokens⟩ :=
      exists_between htokens
    refine (hleft.enclosed hleftTokens).deepen.append (.token ?_ ?_ (.inl rfl) ?_)
    · rw [hkind]
      cases operator <;> decide
    · rw [hkind]
      cases operator <;> decide
    · exact (hright.enclosed hrightTokens).deepen

theorem Prints.not (h : Prints model scope e words) :
    Prints model scope (.unary .not e) ((.openParen, "(") ::
      (((.not, "not") :: words) ++ [(.closeParen, ")")])) := by
  refine prints_group ("not".toList ++ ' ' :: e.text.toList) ?_ (by simp)
    (fun hrest => ?_) (fun htokens => ?_) fun htokens hdepth => h.nested_not htokens hdepth
  · simp [Expression.text, toString, UnaryOperator.keyword]
  · simp only [List.append_assoc, List.cons_append]
    exact (Reads.blank (h.reads (delimited_close _) hrest.closeParen)).token (firstToken?_not _)
      (by decide)
  · obtain ⟨token, tokens, rfl, hkind, -, hrest⟩ := exists_token htokens
    exact .token (by simp [hkind]) (by simp [hkind]) (.inl rfl) (h.enclosed hrest).deepen

/-! ## Filters -/

/-- A filter is read from its words. -/
theorem parse_of_reads {type : TypeKey} {input : String} (hne : words ≠ [])
    (hreads : Reads input.toList words)
    (henclosed : ∀ {tokens : List Token}, tokens.map Token.word = words → Enclosed true tokens)
    (hnested : ∀ {tokens : List Token}, tokens.map Token.word = words →
      readNested model (tokens.length + 1) ⟨type, []⟩ tokens = .ok e) :
    parse model type input = .ok e := by
  obtain ⟨tokens, htokens, hwords⟩ := hreads 0
  have htokensNe : tokens ≠ [] := by
    rintro rfl
    exact hne hwords.symm
  have hbalance : checkBalance input.utf8ByteSize [] tokens = .ok () := by
    have hwhole := (henclosed hwords).checkBalance_append input.utf8ByteSize [] []
    rwa [List.append_nil] at hwhole
  rw [parse, tokenize, htokens, ok_bind]
  simp only [List.isEmpty_iff, htokensNe, if_false]
  rw [hbalance, ok_bind]
  exact hnested hwords

/-! ## Literals and paths -/

/-- An expression of a single token. -/
theorem prints_token {text : String} (htext : e.text = text) (hspelled : Spelled kind text.toList)
    (hkind : kind.isLiteral = true ∨ kind = .propertyPath)
    (hoperand : ∀ {inner : InnerReader} {token : Token} {after : List Token}, token.kind = kind →
      token.value = text → readOperand model inner scope (token :: after) = .ok (e, after)) :
    Prints model scope e [(kind, text)] := by
  have hplain : kind ≠ .whitespace ∧ kind ≠ .lambdaParameter ∧ kind ≠ .openParen ∧
      kind ≠ .closeParen ∧ kind.isLogical = false ∧ kind ≠ .comma ∧ kind ≠ .not := by
    clear hspelled hoperand
    revert hkind
    cases kind <;> decide
  obtain ⟨hblank, hparameter, hopen, hclose, hlogical, hcomma, hnot⟩ := hplain
  refine ⟨fun hrest hmore => ?_, fun htokens => ?_, ?_, _, _, rfl, hnot⟩
  · rw [htext]
    have htoken := hmore.token (hspelled _ hrest) hblank
    rwa [tokenText_toList hparameter] at htoken
  · obtain ⟨token, others, rfl, rfl, -, hothers⟩ := exists_token htokens
    obtain rfl := List.map_eq_nil_iff.1 hothers
    exact .token hopen hclose (.inr ⟨hlogical, hcomma⟩) .nil
  · intro depth tokens after htokens _
    obtain ⟨token, others, rfl, hkind, hvalue, hothers⟩ := exists_token htokens
    obtain rfl := List.map_eq_nil_iff.1 hothers
    exact hoperand hkind hvalue

theorem readOperand_literal {token : Token} (hkind : token.kind.isLiteral = true)
    (after : List Token) : readOperand model inner scope (token :: after) =
      (Literal.ofToken model token.kind token.value).map fun constant =>
        (.literal constant, after) := by
  have hother {other : TokenKind} (hother : other.isLiteral = false) : token.kind ≠ other := by
    intro heq
    rw [heq, hother] at hkind
    cases hkind
  rw [readOperand.eq_def]
  dsimp only
  split
  · exact absurd (by assumption) (hother rfl)
  · exact absurd (by assumption) (hother rfl)
  · exact absurd (by assumption) (hother rfl)
  · exact absurd (by assumption) (hother rfl)
  · rw [if_pos hkind]
    cases Literal.ofToken model token.kind token.value <;> rfl

theorem prints_literal {text : String} {constant : Literal} (hkind : kind.isLiteral = true)
    (hread : Literal.ofToken model kind text = .ok constant) (htext : constant.text = text)
    (hspelled : Spelled kind text.toList) :
    Prints model scope (.literal constant) [(kind, text)] := by
  refine prints_token (by rw [Expression.text, htext]) hspelled (.inl hkind) ?_
  rintro inner token after rfl rfl
  rw [readOperand_literal hkind, hread]
  rfl

theorem prints_path {text : String} {steps : PropertyPath} {root : Option String}
    (hresolve : resolvePath model scope text = .ok (steps, root))
    (hspelled : Spelled .propertyPath text.toList) :
    Prints model scope (.path steps root) [(.propertyPath, text)] := by
  refine prints_token (by rw [Expression.text, pathText_of_resolvePath hresolve]) hspelled
    (.inr rfl) ?_
  rintro inner token after hkind rfl
  rw [readOperand.eq_def]
  simp only [hkind]
  rw [hresolve]
  rfl

end EntityQuery.Filter
