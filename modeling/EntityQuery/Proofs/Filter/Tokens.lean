import EntityQuery.Proofs.Filter.QuotedLexemes

/-!
# Token lists

What is left of the text of a filter once it has been cut into tokens.  Tokenizing goes through a
text in rounds (`Scans`).  Each round takes the first token off what is left.  No token is empty, so
there are at most as many rounds as characters.

`Settled` says that every
token of a list can be moved to another text, given that the token behind it ends an operand or
there is none; all tokens that tokenizing yields are settled.  In the other direction, `Reads` puts
together what a printed text is cut into, token by token.
-/

namespace EntityQuery.Filter

variable {kind : TokenKind} {t r cs : List Char} {n rounds position : Nat}
variable {tokens rest : List Token} {token : Token}

/-! ## One token after the other -/

theorem tokenizeFrom_skip (position skip : Nat) (cs : List Char) :
    tokenizeFrom position skip cs
      = tokenizeFrom (position + Text.utf8Length (cs.take skip)) 0 (cs.drop skip) := by
  induction cs generalizing position skip with
  | nil => simp [tokenizeFrom]
  | cons c cs ih =>
      cases skip with
      | zero => simp [Text.utf8Length]
      | succ skip =>
          rw [tokenizeFrom, ih, List.take_succ_cons, List.drop_succ_cons, Text.utf8Length,
            Nat.add_assoc]

/-- The tokens of a text are its first token, unless it is white space, and those behind it. -/
theorem tokenizeFrom_of_firstToken? (h : firstToken? cs = some (kind, n)) (position : Nat) :
    tokenizeFrom position 0 cs
      = (tokenizeFrom (position + Text.utf8Length (cs.take n)) 0 (cs.drop n)).map fun tokens =>
        if kind == .whitespace then tokens
        else ⟨kind, tokenText kind (cs.take n), position⟩ :: tokens := by
  obtain ⟨-, -, -, -, hpos, -⟩ := exists_rule h
  -- No token is empty, so the first character is passed and those behind it are skipped.
  obtain ⟨n, rfl⟩ : ∃ m, n = m + 1 := ⟨n - 1, by omega⟩
  cases cs with
  | nil =>
      have hempty : firstToken? [] = none := by decide
      rw [hempty] at h
      cases h
  | cons c cs =>
      rw [tokenizeFrom]
      simp only [h, Nat.add_sub_cancel]
      rw [tokenizeFrom_skip, List.take_succ_cons, List.drop_succ_cons, Text.utf8Length,
        Nat.add_assoc]
      cases tokenizeFrom (position + (c.utf8Size + Text.utf8Length (cs.take n))) 0
          (cs.drop n) with
      | error e => rfl
      | ok tokens =>
          simp only [Except.map]
          split <;> rfl

theorem length_le_of_firstToken? (h : firstToken? cs = some (kind, n)) : n ≤ cs.length := by
  obtain ⟨rule, hrule, -, hscan, -⟩ := exists_rule h
  exact bounded_of_mem_tokenRules hrule hscan

/-! ## Rounds -/

/-- What comes of a text that begins at a byte position, after some rounds. -/
inductive Scans : Nat → Nat → List Char → Except QueryError (List Token) → Prop
  | finish {position : Nat} : Scans 0 position [] (.ok [])
  | stop {position : Nat} {cs : List Char} (hne : cs ≠ []) (h : firstToken? cs = none) :
      Scans 0 position cs (.error (.malformed (.unrecognized (fragment cs) position)))
  | blank {rounds position n : Nat} {cs : List Char} {outcome : Except QueryError (List Token)}
      (h : firstToken? cs = some (.whitespace, n))
      (hrest : Scans rounds (position + Text.utf8Length (cs.take n)) (cs.drop n) outcome) :
      Scans (rounds + 1) position cs outcome
  | token {rounds position n : Nat} {cs : List Char} {outcome : Except QueryError (List Token)}
      {kind : TokenKind} (hkind : kind ≠ .whitespace) (h : firstToken? cs = some (kind, n))
      (hrest : Scans rounds (position + Text.utf8Length (cs.take n)) (cs.drop n) outcome) :
      Scans (rounds + 1) position cs
        (outcome.map (⟨kind, tokenText kind (cs.take n), position⟩ :: ·))

/-- Every round leaves less of a text. -/
theorem length_drop_lt (h : firstToken? cs = some (kind, n)) : (cs.drop n).length < cs.length := by
  obtain ⟨rule, -, -, -, hpos, -⟩ := exists_rule h
  have hle := length_le_of_firstToken? h
  rw [List.length_drop]
  omega

/-- Tokenizing comes to an end after at most one round for each character. -/
theorem exists_scans (position : Nat) (cs : List Char) :
    ∃ rounds ≤ cs.length, Scans rounds position cs (tokenizeFrom position 0 cs) := by
  induction hlength : cs.length using Nat.strongRecOn generalizing cs position with
  | ind length ih =>
      subst hlength
      cases hfirst : firstToken? cs with
      | none =>
          refine ⟨0, Nat.zero_le _, ?_⟩
          cases cs with
          | nil => exact .finish
          | cons c cs =>
              rw [tokenizeFrom, hfirst]
              exact .stop (List.cons_ne_nil c cs) hfirst
      | some found =>
          obtain ⟨kind, n⟩ := found
          have hlt := length_drop_lt hfirst
          obtain ⟨rounds, hrounds, hscans⟩ :=
            ih _ hlt (position + Text.utf8Length (cs.take n)) (cs.drop n) rfl
          refine ⟨rounds + 1, by omega, ?_⟩
          rw [tokenizeFrom_of_firstToken? hfirst]
          by_cases hkind : kind = .whitespace
          · subst hkind
            have hsame (outcome : Except QueryError (List Token)) :
                outcome.map (fun tokens => if TokenKind.whitespace == .whitespace then tokens
                  else ⟨.whitespace, tokenText .whitespace (cs.take n), position⟩ :: tokens) =
                outcome := by
              cases outcome <;> rfl
            rw [hsame]
            exact .blank hfirst hscans
          · simp only [beq_iff_eq, hkind, if_false]
            exact .token hkind hfirst hscans

/-! ## Tokens that can be moved -/

/-- The kinds of tokens that may stand behind an operand. -/
def endsOperand : TokenKind → Bool
  | .closeParen | .comma | .and | .or | .binaryOperator => true
  | _ => false

/-- Tokens that an operand may precede. -/
def Closes (tokens : List Token) : Prop := ∀ next ∈ tokens.head?, endsOperand next.kind = true

/-- What is known of a token with others behind it: printed elsewhere, it is the same token. -/
structure Stands (token : Token) (rest : List Token) : Prop where
  literal : token.kind.isLiteral = true → Closes rest → Spelled token.kind token.value.toList
  path : token.kind = .propertyPath → token.value ∉ reservedWords → Closes rest →
    Spelled .propertyPath token.value.toList
  lambda : token.kind = .lambda → ∀ s, firstToken? (token.value.toList ++ '(' :: s)
    = some (.lambda, token.value.toList.length)
  parameter : token.kind = .lambdaParameter → ∀ s, firstToken? (token.value.toList ++ ':' :: s)
    = some (.lambdaParameter, token.value.toList.length + 1)

/-- Token lists in which every token can be moved. -/
def Settled : List Token → Prop
  | [] => True
  | token :: rest => Stands token rest ∧ Settled rest

theorem Settled.of_append {tokens rest : List Token} (h : Settled (tokens ++ rest)) :
    Settled rest := by
  induction tokens with
  | nil => exact h
  | cons token tokens ih => exact ih h.2

/-- The tokens in front of one that ends an operand are settled by themselves. -/
theorem Settled.of_append_cons {tokens rest : List Token} {closing : Token}
    (h : Settled (tokens ++ closing :: rest)) (hclosing : endsOperand closing.kind = true) :
    Settled tokens := by
  have hcloses (more : List Token) : Closes more → Closes (more ++ closing :: rest) := by
    intro hmore
    cases more with
    | nil => simpa [Closes] using hclosing
    | cons next more => exact hmore
  induction tokens with
  | nil => trivial
  | cons token tokens ih =>
      obtain ⟨hstands, hrest⟩ := h
      refine ⟨⟨fun hkind hmore => ?_, fun hkind hword hmore => ?_, hstands.lambda,
        hstands.parameter⟩, ih hrest⟩
      · exact hstands.literal hkind (hcloses _ hmore)
      · exact hstands.path hkind hword (hcloses _ hmore)

/-! ## How a token begins -/

theorem eq_of_mark {c d : Char} (h : Scan.mark c (d :: r) = some n) : d = c := by
  rw [Scan.mark, Scan.one] at h
  split at h
  · rename_i heq
    simpa using heq
  · cases h

theorem head?_of_word {w : List Char} {c d : Char} (hw : w.head? = some c)
    (h : Scan.word w (d :: r) = some n) : d = c := by
  obtain ⟨v, rfl⟩ := List.head?_eq_some_iff.1 hw
  unfold Scan.word at h
  split at h
  · rename_i hprefix
    simp only [List.isPrefixOf, Bool.and_eq_true, beq_iff_eq] at hprefix
    exact hprefix.1.symm
  · cases h

theorem isNameStart_of_operator {d : Char} (h : Scan.operator (d :: r) = some n) :
    Scan.isNameStart d = true := by
  obtain ⟨a, ha, h⟩ := List.exists_of_findSome?_eq_some h
  obtain ⟨w, hw, rfl⟩ := List.mem_map.1 ha
  have hhead : ∀ w ∈ ["eq", "ne", "gt", "ge", "lt", "le", "has", "add", "sub", "mul", "div",
      "mod"], w.toList.head?.any Scan.isNameStart = true := by decide
  obtain ⟨c, hc, hstart⟩ := (Option.any_eq_true _ _).1 (hhead w hw)
  rw [head?_of_word hc h]
  exact hstart

/-- A token that ends an operand begins with a delimiter or a letter. -/
theorem ending_of_scan : ∀ rule ∈ tokenRules, endsOperand rule.kind = true →
    ∀ d r n, rule.scan (d :: r) = some n → d ∈ delimiters ∨ Scan.isNameStart d = true := by
  have hmark {c d : Char} {r : List Char} {n : Nat} (hc : c ∈ delimiters)
      (h : Scan.mark c (d :: r) = some n) : d ∈ delimiters := eq_of_mark h ▸ hc
  have hword {w : List Char} {c d : Char} {r : List Char} {n : Nat} (hw : w.head? = some c)
      (hc : Scan.isNameStart c = true) (h : Scan.word w (d :: r) = some n) :
      Scan.isNameStart d = true := head?_of_word hw h ▸ hc
  simp only [tokenRules, List.forall_mem_cons]
  refine ⟨by simp [endsOperand], by simp [endsOperand], ?_, ?_, ?_, ?_, by simp [endsOperand], ?_,
    by simp [endsOperand]⟩
  · exact fun _ d r n h => .inl (hmark (by decide) h)
  · exact fun _ d r n h => .inl (hmark (by decide) h)
  · exact fun _ d r n h => .inr (hword rfl (by decide) h)
  · exact fun _ d r n h => .inr (hword rfl (by decide) h)
  · exact fun _ d r n h => .inr (isNameStart_of_operator h)

theorem mem_delimiters_of_isAsciiBlank {c : Char} (h : Text.isAsciiBlank c = true) :
    c ∈ delimiters := by
  have hblanks : ∀ b ∈ [' ', '\t', '\n', '\x0b', '\x0c', '\r'], b ∈ delimiters := by decide
  refine hblanks c ?_
  simp only [Text.isAsciiBlank, Bool.or_eq_true, Bool.and_eq_true, beq_iff_eq, decide_eq_true_eq,
    UInt32.le_iff_toNat_le, ← UInt32.toNat_inj] at h
  simp only [List.mem_cons, List.not_mem_nil, or_false, Char.ext_iff, ← UInt32.toNat_inj]
  have h₁ : (9 : UInt32).toNat = 9 := rfl
  have h₂ : (13 : UInt32).toNat = 13 := rfl
  have h₃ : (32 : UInt32).toNat = 32 := rfl
  rw [h₁, h₂, h₃] at h
  show c.val.toNat = 32 ∨ c.val.toNat = 9 ∨ c.val.toNat = 10 ∨ c.val.toNat = 11 ∨
    c.val.toNat = 12 ∨ c.val.toNat = 13
  omega

theorem isAsciiBlank_of_whitespace {c : Char}
    (h : firstToken? (c :: cs) = some (.whitespace, n)) : Text.isAsciiBlank c = true := by
  have hscan : Scan.some1 Text.isAsciiBlank (c :: cs) = some n :=
    scan_of_firstToken? ⟨.whitespace, .some1 Text.isAsciiBlank, .anything⟩
      (by simp [tokenRules]) h
  by_cases hc : Text.isAsciiBlank c = true
  · exact hc
  · simp [Scan.some1, hc] at hscan

/-- What a token is known to be when it is read in front of other tokens. -/
theorem stands_of_firstToken? {position : Nat} (h : firstToken? (t ++ r) = some (kind, t.length))
    (hending : Closes tokens → Ending r) :
    Stands ⟨kind, tokenText kind t, position⟩ tokens := by
  have hvalue (hkind : kind ≠ .lambdaParameter) : (tokenText kind t).toList = t := by
    rw [tokenText, if_neg (by simpa using hkind), String.toList_ofList]
  refine ⟨fun hkind hcloses => ?_, ?_, ?_, ?_⟩
  · show Spelled kind (tokenText kind t).toList
    rw [hvalue (by rintro rfl; cases hkind)]
    exact spelled_of_isLiteral hkind (hending hcloses) h
  · rintro rfl hword hcloses
    show Spelled .propertyPath (tokenText .propertyPath t).toList
    rw [hvalue (by decide)]
    exact spelled_of_path hword (hending hcloses) h
  · rintro rfl s
    show firstToken? ((tokenText .lambda t).toList ++ '(' :: s) = some (.lambda, _)
    rw [hvalue (by decide)]
    obtain ⟨rule, hrule, hkind, -, -, haccepts⟩ := exists_rule h
    -- The rule for lambdas has made sure of a parenthesis.
    have hfollow : ∀ rule ∈ tokenRules, rule.kind = .lambda → rule.follow = .openParen := by decide
    rw [hfollow rule hrule hkind, List.drop_left] at haccepts
    cases r with
    | nil => cases haccepts
    | cons d r =>
        obtain rfl : d = '(' := by simpa [Follow.accepts] using haccepts
        exact (plain_of_firstToken? h (by decide) (by decide)).firstToken?_paren h s
  · rintro rfl s
    obtain ⟨u, rfl, -⟩ := eq_append_colon h
    have hu : (tokenText .lambdaParameter (u ++ [':'])).toList = u := by
      rw [tokenText, if_pos (by decide), List.dropLast_concat, String.toList_ofList]
    show firstToken? ((tokenText .lambdaParameter (u ++ [':'])).toList ++ ':' :: s) = some (_, _)
    rw [hu]
    simpa using firstToken?_parameter h s

theorem ending_nil : Ending [] := fun _ hd => nomatch hd

/-- White space is a delimiter to what stands before it. -/
theorem ending_of_whitespace (h : firstToken? cs = some (.whitespace, n)) : Ending cs := by
  cases cs with
  | nil => exact ending_nil
  | cons c rest =>
      simpa [Ending] using Or.inl (mem_delimiters_of_isAsciiBlank (isAsciiBlank_of_whitespace h))

/-- A token that may stand behind an operand ends the operand. -/
theorem ending_of_firstToken? (h : firstToken? cs = some (kind, n))
    (hends : endsOperand kind = true) : Ending cs := by
  obtain ⟨rule, hrule, rfl, hscan, -, -⟩ := exists_rule h
  cases cs with
  | nil => exact ending_nil
  | cons c rest => simpa [Ending] using ending_of_scan rule hrule hends c rest n hscan

/-- Every round leaves settled tokens in front of what it begins with. -/
theorem settled_of_scans (h : Scans rounds position cs (.ok tokens)) :
    Settled tokens ∧ (Closes tokens → Ending cs) := by
  generalize houtcome : Except.ok tokens = outcome at h
  induction h generalizing tokens with
  | finish =>
      obtain rfl := Except.ok.inj houtcome
      exact ⟨trivial, fun _ => ending_nil⟩
  | stop => cases houtcome
  | blank hfirst _ ih => exact ⟨(ih houtcome).1, fun _ => ending_of_whitespace hfirst⟩
  | @token _ position n cs outcome kind hkind hfirst _ ih =>
      cases outcome with
      | error => cases houtcome
      | ok more =>
          obtain ⟨hsettled, hending⟩ := ih rfl
          obtain rfl := Except.ok.inj houtcome
          have hlength : (cs.take n).length = n :=
            List.length_take_of_le (length_le_of_firstToken? hfirst)
          have hfirst' :
              firstToken? (cs.take n ++ cs.drop n) = some (kind, (cs.take n).length) := by
            rw [List.take_append_drop, hlength, hfirst]
          exact ⟨⟨stands_of_firstToken? hfirst' hending, hsettled⟩,
            fun hcloses => ending_of_firstToken? hfirst (hcloses _ rfl)⟩

/-- All tokens of a text are settled. -/
theorem settled_of_tokenizeFrom (h : tokenizeFrom position 0 cs = .ok tokens) :
    Settled tokens ∧ (Closes tokens → Ending cs) := by
  obtain ⟨rounds, -, hscans⟩ := exists_scans position cs
  rw [h] at hscans
  exact settled_of_scans hscans

end EntityQuery.Filter
