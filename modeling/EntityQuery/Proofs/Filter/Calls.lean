import EntityQuery.Proofs.Filter.Printing

/-!
# Printed calls and lambdas

A call holds its arguments between parentheses of its own, and a lambda its body.  Arguments are cut
apart at the commas between them, which no argument contains outside of parentheses.
-/

namespace EntityQuery.Filter

variable {kind : TokenKind} {rest : List Char} {words more : List (TokenKind × String)}
variable {model : Model} {scope : Scope} {e : Expression} {depth : Nat}
variable {tokens after : List Token} {inner : InnerReader}

/-! ## Arguments -/

/-- The words of arguments that stand behind other arguments. -/
def laterWords (parts : List (Expression × List (TokenKind × String))) :
    List (TokenKind × String) :=
  parts.flatMap fun part => (.comma, ",") :: part.2

/-- The text of arguments that stand behind other arguments. -/
def laterText (parts : List (Expression × List (TokenKind × String))) : List Char :=
  parts.flatMap fun part => ',' :: ' ' :: part.1.text.toList

variable {part : Expression × List (TokenKind × String)}
variable {parts : List (Expression × List (TokenKind × String))}

theorem toList_texts (part : Expression × List (TokenKind × String))
    (parts : List (Expression × List (TokenKind × String))) :
    (String.intercalate ", " (Expression.texts ((part :: parts).map Prod.fst))).toList
      = part.1.text.toList ++ laterText parts := by
  have hsep : ", ".toList = [',', ' '] := by decide
  rw [String.toList_intercalate, hsep]
  induction parts generalizing part with
  | nil => simp [Expression.texts, laterText]
  | cons next parts ih =>
      simp only [List.map_cons, Expression.texts, List.intercalate_cons_cons] at ih ⊢
      rw [ih]
      simp [laterText]

theorem reads_later (hparts : ∀ part ∈ parts, Prints model scope part.1 part.2)
    (hrest : Delimited rest) (h : Reads rest more) :
    Delimited (laterText parts ++ rest) ∧
      Reads (laterText parts ++ rest) (laterWords parts ++ more) := by
  induction parts with
  | nil => exact ⟨hrest, h⟩
  | cons part parts ih =>
      obtain ⟨hpart, hparts⟩ := List.forall_mem_cons.1 hparts
      obtain ⟨hdelimited, hreads⟩ := ih hparts
      simp only [laterText, laterWords, List.flatMap_cons, List.cons_append, List.append_assoc]
        at hdelimited hreads ⊢
      exact ⟨delimited_comma _, (Reads.blank (hpart.reads hdelimited hreads)).comma⟩

theorem enclosed_later (hparts : ∀ part ∈ parts, Prints model scope part.1 part.2)
    (htokens : tokens.map Token.word = laterWords parts) : Enclosed true tokens := by
  induction parts generalizing tokens with
  | nil =>
      obtain rfl := List.map_eq_nil_iff.1 htokens
      exact .nil
  | cons part parts ih =>
      obtain ⟨hpart, hparts⟩ := List.forall_mem_cons.1 hparts
      obtain ⟨comma, others, rfl, hkind, -, hothers⟩ := exists_token htokens
      obtain ⟨first, later, rfl, hfirst, hlater⟩ := List.map_eq_append_iff.1 hothers
      refine .token (by simp [hkind]) (by simp [hkind]) (.inl rfl) ?_
      exact (hpart.enclosed hfirst).deepen.append (ih hparts hlater)

/-- Arguments are cut at the commas between them, and read one by one. -/
theorem readArguments_later (hpart : Prints model scope part.1 part.2)
    (hparts : ∀ part ∈ parts, Prints model scope part.1 part.2) {first later : List Token}
    (hfirst : first.map Token.word = part.2) (hlater : later.map Token.word = laterWords parts)
    (hdepth : (first ++ later).length ≤ depth) (function : Function) (before : Option Token) :
    readArguments (readNested model (depth + 1) scope) function before
        (splitOutside (·.kind == .comma) 0 (first ++ later)).1
        (splitOutside (·.kind == .comma) 0 (first ++ later)).2
      = .ok (part.1 :: parts.map Prod.fst) := by
  have hcuts (token : Token) (hcut : (token.kind == .comma) = true) :
      token.kind.isLogical = true ∨ token.kind = .comma := .inr (beq_iff_eq.1 hcut)
  have hne : first ≠ [] := hpart.ne_nil hfirst
  rw [List.length_append] at hdepth
  have hread := hpart.nested hfirst (Nat.le_trans (Nat.le_add_right _ _) hdepth)
  rw [(hpart.enclosed hfirst).splitOutside_append hcuts (by simp)]
  induction parts generalizing part first later before with
  | nil =>
      obtain rfl := List.map_eq_nil_iff.1 hlater
      obtain ⟨token, others, rfl⟩ := List.exists_cons_of_ne_nil hne
      simp only [splitOutside, List.append_nil]
      rw [readArguments, hread]
      rfl
  | cons next parts ih =>
      obtain ⟨hnext, hparts⟩ := List.forall_mem_cons.1 hparts
      obtain ⟨comma, others, rfl, hkind, -, hothers⟩ := exists_token hlater
      obtain ⟨second, later, rfl, hsecond, hlater⟩ := List.map_eq_append_iff.1 hothers
      simp only [List.length_cons, List.length_append] at hdepth
      -- The comma ends the first piece, and what follows it is cut and read in the same way.
      have hmore := ih hnext hparts hsecond hlater (by omega) (some comma)
        (hnext.ne_nil hsecond) (hnext.nested hsecond (by omega))
      rw [splitOutside]
      simp only [hkind, beq_self_eq_true, Bool.and_self, if_true, List.append_nil]
      rw [readArguments]
      simp only [List.isEmpty_iff, hne, if_false]
      rw [hread, ok_bind, (hnext.enclosed hsecond).splitOutside_append hcuts (by simp), hmore]
      rfl

/-! ## Calls and lambdas -/

/-- A name in front of a group in parentheses is an operand if it is read as one. -/
theorem prints_applied {name : String} (text : List Char) (htext : e.text.toList
      = name.toList ++ '(' :: (text ++ [')']))
    (hkind : kind = .functionName ∨ kind = .lambda)
    (hname : ∀ s, firstToken? (name.toList ++ '(' :: s) = some (kind, name.toList.length))
    (hreads : ∀ {rest more}, Reads rest more →
      Reads (text ++ ')' :: rest) (words ++ (.closeParen, ")") :: more))
    (henclosed : ∀ {tokens : List Token}, tokens.map Token.word = words → Enclosed true tokens)
    (hoperand : ∀ {depth : Nat} {token opening closing : Token} {inside : List Token}
      (after : List Token), token.kind = kind → token.value = name →
        opening.kind = .openParen → closing.kind = .closeParen →
          inside.map Token.word = words → inside.length < depth →
            readOperand model (readNested model depth) scope
              (token :: opening :: (inside ++ closing :: after)) = .ok (e, after)) :
    Prints model scope e
      ((kind, name) :: (.openParen, "(") :: (words ++ [(.closeParen, ")")])) := by
  -- Such a name is an ordinary token, neither a cut nor a parenthesis.
  have hplain : kind ≠ .whitespace ∧ kind ≠ .lambdaParameter ∧ kind ≠ .openParen ∧
      kind ≠ .closeParen ∧ kind.isLogical = false ∧ kind ≠ .comma ∧ kind ≠ .not := by
    rcases hkind with rfl | rfl <;> decide
  obtain ⟨hblank, hparameter, hopen, hclose, hlogical, hcomma, hnot⟩ := hplain
  refine ⟨fun _ hrest => ?_, fun htokens => ?_, ?_, _, _, rfl, hnot⟩
  · have htoken := (hreads hrest).openParen.token (hname _) hblank
    rw [tokenText_toList hparameter] at htoken
    rw [htext]
    simp only [List.cons_append, List.append_assoc, List.nil_append] at htoken ⊢
    exact htoken
  · obtain ⟨token, others, rfl, rfl, -, hothers⟩ := exists_token htokens
    obtain ⟨opening, inside, closing, rfl, hopening, hinside, hclosing⟩ := exists_group hothers
    exact .token hopen hclose (.inr ⟨hlogical, hcomma⟩)
      (.group hopening hclosing (henclosed hinside) .nil)
  · intro depth tokens after htokens hdepth
    obtain ⟨token, others, rfl, htokenKind, htokenValue, hothers⟩ := exists_token htokens
    obtain ⟨opening, inside, closing, rfl, hopening, hinside, hclosing⟩ := exists_group hothers
    simp only [List.length_cons, List.length_append, List.length_nil] at hdepth
    simp only [List.cons_append, List.append_assoc, List.nil_append]
    exact hoperand after htokenKind htokenValue hopening hclosing hinside (by omega)

theorem prints_call (function : Function) (hpart : Prints model scope part.1 part.2)
    (hparts : ∀ part ∈ parts, Prints model scope part.1 part.2)
    (harity : function.accepts ((part :: parts).map Prod.fst).length = true) :
    Prints model scope (.call function ((part :: parts).map Prod.fst))
      ((.functionName, function.name) :: (.openParen, "(") ::
        ((part.2 ++ laterWords parts) ++ [(.closeParen, ")")])) := by
  have henclosed {tokens : List Token} (h : tokens.map Token.word = part.2 ++ laterWords parts) :
      Enclosed true tokens := by
    obtain ⟨first, later, rfl, hfirst, hlater⟩ := List.map_eq_append_iff.1 h
    exact (hpart.enclosed hfirst).deepen.append (enclosed_later hparts hlater)
  refine prints_applied (part.1.text.toList ++ laterText parts) ?_ (.inl rfl)
    (firstToken?_function function) (fun hrest => ?_) henclosed ?_
  · have hopen : "(".toList = ['('] := by decide
    have hclose : ")".toList = [')'] := by decide
    simp only [Expression.text, String.toList_append, toList_texts, hopen, hclose,
      List.append_assoc, List.cons_append, List.nil_append]
  · obtain ⟨hdelimited, hreads⟩ := reads_later hparts (delimited_close _) hrest.closeParen
    simp only [List.append_assoc]
    exact hpart.reads hdelimited hreads
  · intro depth token opening closing inside after hkind hvalue hopening hclosing hinside hdepth
    have hgroup := takeGroup_of_enclosed hopening hclosing (henclosed hinside) after
    obtain ⟨first, later, rfl, hfirst, hlater⟩ := List.map_eq_append_iff.1 hinside
    have hne : first ++ later ≠ [] := by simp [hpart.ne_nil hfirst]
    obtain ⟨depth, rfl⟩ : ∃ d, depth = d + 1 := ⟨depth - 1, by omega⟩
    have hdepth' : (first ++ later).length ≤ depth := by omega
    have harguments := readArguments_later hpart hparts hfirst hlater hdepth' function none
    rw [readOperand.eq_def]
    simp only [hkind]
    rw [readCall, hvalue, Function.ofName?_name]
    simp only [groupAfter]
    rw [hgroup, ok_bind]
    simp only [List.isEmpty_iff, hne, if_false]
    rw [harguments, ok_bind, if_neg (by simpa using harity)]
    rfl

theorem splitLast?_append {front last : String} (hlast : '/' ∉ last.toList) :
    splitLast? (front ++ "/" ++ last) = some (front, last) := by
  have hslash : "/".toList = ['/'] := by decide
  have hreversed : (front ++ "/" ++ last).toList.reverse
      = last.toList.reverse ++ '/' :: front.toList.reverse := by
    simp [hslash]
  have htake : (last.toList.reverse ++ '/' :: front.toList.reverse).takeWhile (· != '/')
      = last.toList.reverse := by
    rw [List.takeWhile_append_of_pos]
    · simp
    · intro c hc
      have hmem : c ∈ last.toList := List.mem_reverse.1 hc
      simp only [bne_iff_ne, ne_eq]
      rintro rfl
      exact hlast hmem
  rw [splitLast?, hreversed, htake, if_neg (by simp), List.reverse_reverse, String.ofList_toList,
    List.drop_append, List.drop_eq_nil_of_le (Nat.le_succ _)]
  simp

/-- A lambda is read from the path it ranges over and what stands between its parentheses. -/
theorem readLambda_of_body {text : String} {quantifier : Quantifier} {steps : PropertyPath}
    {root : Option String} {element : TypeKey} {token opening closing : Token}
    {inside : List Token} {parameter : String} {body : Option Expression}
    (hvalue : token.value = text ++ "/" ++ quantifier.keyword)
    (hresolve : resolvePath model scope text = .ok (steps, root))
    (helement : elementKey text steps = .ok element) (hopening : opening.kind = .openParen)
    (hclosing : closing.kind = .closeParen) (hinside : Enclosed true inside)
    (hbody : readLambdaBody inner scope element quantifier token inside = .ok (parameter, body)) :
    readLambda model inner scope token (opening :: (inside ++ closing :: after))
      = .ok (.lambda quantifier (.path steps root) parameter body, after) := by
  have hkeyword : '/' ∉ quantifier.keyword.toList ∧
      Quantifier.ofKeyword? quantifier.keyword = some quantifier := by
    cases quantifier <;> decide
  rw [readLambda, hvalue, splitLast?_append hkeyword.1]
  simp only [hkeyword.2]
  rw [hresolve, ok_bind, helement, ok_bind, groupAfter,
    takeGroup_of_enclosed hopening hclosing hinside, ok_bind]
  dsimp only
  rw [hbody]
  rfl

/-- A lambda without a body asks for any element. -/
theorem prints_exists {text : String} {steps : PropertyPath} {root : Option String}
    {element : TypeKey} (hresolve : resolvePath model scope text = .ok (steps, root))
    (helement : elementKey text steps = .ok element)
    (hspelled : ∀ s, firstToken? ((text ++ "/" ++ Quantifier.any.keyword).toList ++ '(' :: s)
      = some (.lambda, (text ++ "/" ++ Quantifier.any.keyword).toList.length)) :
    Prints model scope (.lambda .any (.path steps root) "" none)
      ((.lambda, text ++ "/" ++ Quantifier.any.keyword) :: (.openParen, "(") ::
        ([] ++ [(.closeParen, ")")])) := by
  refine prints_applied [] ?_ (.inr rfl) hspelled (fun hrest => hrest.closeParen)
    (fun htokens => ?_) ?_
  · have hparens : "()".toList = ['(', ')'] := by decide
    simp only [Expression.text, pathText_of_resolvePath hresolve, String.toList_append, hparens,
      List.nil_append]
  · obtain rfl := List.map_eq_nil_iff.1 htokens
    exact .nil
  · intro depth token opening closing inside after hkind hvalue hopening hclosing hinside hdepth
    obtain rfl := List.map_eq_nil_iff.1 hinside
    rw [readOperand.eq_def]
    simp only [hkind]
    exact readLambda_of_body hvalue hresolve helement hopening hclosing .nil rfl

theorem prints_lambda {text parameter : String} {quantifier : Quantifier} {steps : PropertyPath}
    {root : Option String} {element : TypeKey} {body : Expression}
    (hresolve : resolvePath model scope text = .ok (steps, root))
    (helement : elementKey text steps = .ok element)
    (hspelled : ∀ s, firstToken? ((text ++ "/" ++ quantifier.keyword).toList ++ '(' :: s)
      = some (.lambda, (text ++ "/" ++ quantifier.keyword).toList.length))
    (hfresh : scope.parameter? parameter = none)
    (hparameter : ∀ s, firstToken? (parameter.toList ++ ':' :: s)
      = some (.lambdaParameter, parameter.toList.length + 1))
    (hbody : Prints model (scope.bind parameter element) body words) :
    Prints model scope (.lambda quantifier (.path steps root) parameter (some body))
      ((.lambda, text ++ "/" ++ quantifier.keyword) :: (.openParen, "(") ::
        (((.lambdaParameter, parameter) :: words) ++ [(.closeParen, ")")])) := by
  have henclosed {tokens : List Token}
      (h : tokens.map Token.word = (.lambdaParameter, parameter) :: words) :
      Enclosed true tokens := by
    obtain ⟨name, tokens, rfl, hkind, -, hrest⟩ := exists_token h
    exact .token (by simp [hkind]) (by simp [hkind]) (.inl rfl) (hbody.enclosed hrest).deepen
  refine prints_applied (parameter.toList ++ ':' :: ' ' :: body.text.toList) ?_ (.inr rfl)
    hspelled (fun {rest more} hrest => ?_) henclosed ?_
  · have hopen : "(".toList = ['('] := by decide
    have hcolon : ": ".toList = [':', ' '] := by decide
    have hclose : ")".toList = [')'] := by decide
    simp only [Expression.text, pathText_of_resolvePath hresolve, String.toList_append, hopen,
      hcolon, hclose, List.append_assoc, List.cons_append, List.nil_append]
  · have hreads := Reads.blank (hbody.reads (delimited_close _) hrest.closeParen)
    -- The colon belongs to the token, but not to its text.
    have hname := hparameter (' ' :: (body.text.toList ++ ')' :: rest))
    have htoken := Reads.token (t := parameter.toList ++ [':']) hreads (by simpa using hname)
      (by decide)
    have hkeeps : tokenText .lambdaParameter (parameter.toList ++ [':']) = parameter := by
      rw [tokenText, if_pos (by decide), List.dropLast_concat, String.ofList_toList]
    rw [hkeeps] at htoken
    simp only [List.append_assoc, List.cons_append, List.nil_append] at htoken ⊢
    exact htoken
  · intro depth token opening closing inside after hkind hvalue hopening hclosing hinside hdepth
    have hgroup := henclosed hinside
    obtain ⟨name, tokens, rfl, hnameKind, hnameValue, hrest⟩ := exists_token hinside
    rw [List.length_cons] at hdepth
    obtain ⟨depth, rfl⟩ : ∃ d, depth = d + 1 := ⟨depth - 1, by omega⟩
    have hne : tokens ≠ [] := hbody.ne_nil hrest
    rw [readOperand.eq_def]
    simp only [hkind]
    refine readLambda_of_body hvalue hresolve helement hopening hclosing hgroup ?_
    rw [readLambdaBody, if_neg (by simp [hnameKind]), hnameValue, hfresh]
    simp only [Option.isSome_none, List.isEmpty_iff, hne, if_false]
    rw [hbody.nested hrest (by omega)]
    rfl

end EntityQuery.Filter
