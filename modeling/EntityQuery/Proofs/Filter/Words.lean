import EntityQuery.Proofs.Filter.Tokens

/-!
# The words of a text

When a printed text is read, the positions of its tokens do not matter.  What is left of a token is
a word, its kind and its text.  `Reads cs words` says that a text is cut into words wherever it
begins, and is put together from the back to the front, a word at a time.
-/

namespace EntityQuery.Filter

/-- A token without its position. -/
def Token.word (token : Token) : TokenKind × String := (token.kind, token.value)

/-- A text is cut into tokens of given kinds and texts, wherever it begins. -/
def Reads (cs : List Char) (words : List (TokenKind × String)) : Prop :=
  ∀ position, ∃ tokens, tokenizeFrom position 0 cs = .ok tokens ∧ tokens.map Token.word = words

variable {kind : TokenKind} {t cs rest : List Char} {words more : List (TokenKind × String)}

theorem reads_nil : Reads [] [] := fun _ => ⟨[], rfl, rfl⟩

theorem Reads.token (h : Reads rest words)
    (hfirst : firstToken? (t ++ rest) = some (kind, t.length)) (hkind : kind ≠ .whitespace) :
    Reads (t ++ rest) ((kind, tokenText kind t) :: words) := by
  intro position
  obtain ⟨tokens, htokens, hwords⟩ := h (position + Text.utf8Length t)
  refine ⟨⟨kind, tokenText kind t, position⟩ :: tokens, ?_, ?_⟩
  · rw [tokenizeFrom_of_firstToken? hfirst, List.take_left, List.drop_left, htokens]
    simp [Except.map, hkind]
  · rw [List.map_cons, hwords]
    rfl

/-- A blank adds nothing to the blanks that may follow it. -/
theorem tokenizeFrom_blank (position : Nat) (cs : List Char) :
    tokenizeFrom position 0 (' ' :: cs) = tokenizeFrom (position + 1) 0 cs := by
  have hstep {n : Nat} {cs : List Char} (h : firstToken? cs = some (.whitespace, n))
      (position : Nat) : tokenizeFrom position 0 cs
        = tokenizeFrom (position + Text.utf8Length (cs.take n)) 0 (cs.drop n) := by
    rw [tokenizeFrom_of_firstToken? h]
    cases tokenizeFrom (position + Text.utf8Length (cs.take n)) 0 (cs.drop n) <;> rfl
  have hsize : Text.utf8Length (' ' :: cs.take (cs.takeWhile Text.isAsciiBlank).length)
      = 1 + Text.utf8Length (cs.take (cs.takeWhile Text.isAsciiBlank).length) := by
    rw [Text.utf8Length]
    rfl
  rw [hstep (firstToken?_blank (by decide) cs), List.take_succ_cons, List.drop_succ_cons, hsize,
    ← Nat.add_assoc]
  cases cs with
  | nil => rfl
  | cons c cs =>
      by_cases hc : Text.isAsciiBlank c = true
      · rw [List.takeWhile_cons_of_pos hc, List.length_cons, ← hstep (firstToken?_blank hc cs)]
      · rw [List.takeWhile_cons_of_neg hc, List.length_nil, List.take_zero, List.drop_zero]
        rfl

theorem Reads.blank (h : Reads rest words) : Reads (' ' :: rest) words := by
  intro position
  rw [tokenizeFrom_blank]
  exact h (position + 1)

theorem delimited_blank (cs : List Char) : Delimited (' ' :: cs) := by simp [Delimited, delimiters]

theorem delimited_close (cs : List Char) : Delimited (')' :: cs) := by simp [Delimited, delimiters]

theorem delimited_comma (cs : List Char) : Delimited (',' :: cs) := by simp [Delimited, delimiters]

theorem Reads.openParen (h : Reads rest words) : Reads ('(' :: rest) ((.openParen, "(") :: words) :=
  h.token (t := ['(']) (firstToken?_openParen rest) (by decide)

theorem Reads.closeParen (h : Reads rest words) :
    Reads (')' :: rest) ((.closeParen, ")") :: words) :=
  h.token (t := [')']) (firstToken?_closeParen rest) (by decide)

theorem Reads.comma (h : Reads rest words) : Reads (',' :: rest) ((.comma, ",") :: words) :=
  h.token (t := [',']) (firstToken?_comma rest) (by decide)

theorem tokenText_toList (hkind : kind ≠ .lambdaParameter) (text : String) :
    tokenText kind text.toList = text := by
  rw [tokenText, if_neg (by simpa using hkind), String.ofList_toList]

theorem Reads.operator (h : Reads (' ' :: rest) words) (operator : BinaryOperator) :
    Reads (operator.keyword.toList ++ ' ' :: rest)
      ((operatorKind operator, operator.keyword) :: words) := by
  have htoken := h.token (firstToken?_operator operator rest) (by cases operator <;> decide)
  rwa [tokenText_toList (by cases operator <;> decide)] at htoken

/-! ## Tokens of words -/

variable {tokens : List Token} {leftWords rightWords : List (TokenKind × String)}

theorem exists_token {text : String} (h : tokens.map Token.word = (kind, text) :: words) :
    ∃ token others, tokens = token :: others ∧ token.kind = kind ∧ token.value = text ∧
      others.map Token.word = words := by
  obtain ⟨token, others, rfl, htoken, hothers⟩ := List.map_eq_cons_iff.1 h
  obtain ⟨hkind, hvalue⟩ := Prod.mk.inj htoken
  exact ⟨token, others, rfl, hkind, hvalue, hothers⟩

/-- The tokens of words on both sides of another one. -/
theorem exists_between {text : String}
    (h : tokens.map Token.word = leftWords ++ (kind, text) :: rightWords) :
    ∃ leftTokens token rightTokens, tokens = leftTokens ++ token :: rightTokens ∧
      leftTokens.map Token.word = leftWords ∧ token.kind = kind ∧ token.value = text ∧
      rightTokens.map Token.word = rightWords := by
  obtain ⟨leftTokens, others, rfl, hleft, hothers⟩ := List.map_eq_append_iff.1 h
  obtain ⟨token, rightTokens, rfl, hkind, hvalue, hright⟩ := exists_token hothers
  exact ⟨leftTokens, token, rightTokens, rfl, hleft, hkind, hvalue, hright⟩

/-- The tokens of words in parentheses. -/
theorem exists_group
    (h : tokens.map Token.word = (.openParen, "(") :: (words ++ [(.closeParen, ")")])) :
    ∃ opening inside closing, tokens = opening :: (inside ++ [closing]) ∧
      opening.kind = .openParen ∧ inside.map Token.word = words ∧ closing.kind = .closeParen := by
  obtain ⟨opening, others, rfl, hopening, -, hothers⟩ := exists_token h
  obtain ⟨inside, closing, nothing, rfl, hinside, hclosing, -, hnothing⟩ := exists_between hothers
  obtain rfl := List.map_eq_nil_iff.1 hnothing
  exact ⟨opening, inside, closing, rfl, hopening, hinside, hclosing⟩

end EntityQuery.Filter
