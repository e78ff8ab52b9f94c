import EntityQuery.Proofs.Filter.Identifiers
import EntityQuery.Proofs.Filter.Printing
import EntityQuery.Proofs.Sample

/-!
# Texts between quotation marks

A text of any characters is put into a filter between quotation marks, with every mark in it
doubled.  A doubled mark is never taken for the closing one, since what follows the closing mark in
a filter is no mark.  So the literal ends where the text does, it denotes that text, and nothing in
the text can become a part of the filter around it.
-/

namespace EntityQuery.Filter

open Scan (quote)

variable {r : List Char} {model : Model} {scope : Scope} {type : TypeKey} {record : ComplexType}
  {property : Property}

/-- A character between quotation marks. -/
def doubled (c : Char) : List Char := if c = quote then [quote, quote] else [c]

/-- A text between quotation marks. -/
def quoteText (s : String) : String :=
  String.ofList (quote :: (s.toList.flatMap doubled ++ [quote]))

/-- The literal for a text. -/
def textLiteral (s : String) : Literal := .ofKind .string (quoteText s) (.string s)

theorem toList_quoteText (s : String) :
    (quoteText s).toList = quote :: (s.toList.flatMap doubled ++ [quote]) := String.toList_ofList

/-! ## Reading a literal -/

theorem textBody_doubled (hr : ∀ d ∈ r.head?, d ≠ quote) (cs : List Char) :
    Scan.textBody (cs.flatMap doubled ++ quote :: r) = some ((cs.flatMap doubled).length + 1) := by
  induction cs with
  | nil => exact textBody_quote hr
  | cons c cs ih =>
      rw [List.flatMap_cons, List.append_assoc, List.length_append]
      by_cases hc : c = quote
      · rw [doubled, if_pos hc]
        simp only [List.cons_append, List.nil_append, textBody_quote_quote, ih]
        simp only [Option.map_some, Option.getD_some, List.length_cons, List.length_nil]
        congr 1
      · rw [doubled, if_neg hc, List.singleton_append, textBody_cons_of_ne hc, ih, Option.map_some,
          List.length_singleton]
        congr 1

/-- A text between quotation marks is one token. -/
theorem spelled_quoteText (s : String) : Spelled .string (quoteText s).toList := by
  intro r hr
  have hmark : ∀ d ∈ r.head?, d ≠ quote := by
    intro d hd heq
    have hmem : d ∈ delimiters := hr d hd
    rw [heq] at hmem
    exact absurd hmem (by decide)
  have hrule : tokenRules[21]? = some ⟨.string, .text, .anything⟩ := rfl
  have hscan : Scan.text ((quoteText s).toList ++ r) = some (quoteText s).toList.length := by
    rw [toList_quoteText, List.cons_append, List.append_assoc, List.singleton_append]
    simp only [Scan.text, Scan.inOrder, Scan.mark, Scan.one, BEq.rfl, if_true, Option.map_some,
      Option.bind_some, List.drop_succ_cons, List.drop_zero, textBody_doubled hmark,
      List.length_cons, List.length_append, List.length_nil, Option.some.injEq]
    omega
  refine firstToken?_eq_of_take hrule ?_ ?_
  · rw [toList_quoteText, List.cons_append]
    exact length?_quote_of_take _
  · have hpos : 0 < (quoteText s).toList.length := by simp [toList_quoteText]
    simp [TokenRule.length?, hscan, Option.filter, hpos]

theorem unescape_cons_of_ne {c : Char} (hc : c ≠ quote) (cs : List Char) :
    Literal.unescape (c :: cs) = c :: Literal.unescape cs := by
  have hmark : (c == Literal.quote) = false := beq_eq_false_iff_ne.2 hc
  cases cs with
  | nil => rfl
  | cons d cs => simp [Literal.unescape, hmark]

theorem unescape_doubled (cs : List Char) : Literal.unescape (cs.flatMap doubled) = cs := by
  induction cs with
  | nil => rfl
  | cons c cs ih =>
      rw [List.flatMap_cons]
      by_cases hc : c = quote
      · rw [doubled, if_pos hc, hc]
        show Literal.unescape (quote :: quote :: cs.flatMap doubled) = quote :: cs
        rw [Literal.unescape, if_pos (by decide), ih]
        rfl
      · rw [doubled, if_neg hc, List.singleton_append, unescape_cons_of_ne hc, ih]

/-- The token denotes the text. -/
theorem ofToken_quoteText (model : Model) (s : String) :
    Literal.ofToken model .string (quoteText s) = .ok (textLiteral s) := by
  have hread : Literal.readString? (quoteText s).toList = some (.string s) := by
    rw [toList_quoteText, Literal.readString?, if_pos, List.dropLast_concat, unescape_doubled,
      String.ofList_toList]
    simp [quote, Literal.quote]
  simp only [Literal.ofToken, hread, Literal.ofRead, textLiteral]

theorem prints_quoteText (s : String) :
    Prints model scope (.literal (textLiteral s)) [(.string, quoteText s)] :=
  prints_literal rfl (ofToken_quoteText model s) rfl (spelled_quoteText s)

/-! ## Reading a property -/

/-- The name of a property is read as the path of this property. -/
theorem prints_property (hrecord : model.complexType? type = some record)
    (hproperty : record.property? property.name = some property)
    (hname : isIdentifier property.name.toList = true) (hword : property.name ∉ keywords) :
    Prints model ⟨type, []⟩ (.path (.single property) none) [(.propertyPath, property.name)] := by
  have hslash : '/' ∉ property.name.toList := not_mem_of_isIdentifier hname (by decide)
  have hhead : splitHead property.name = (property.name, none) := by
    have hwhole : property.name.toList.takeWhile (· != '/') = property.name.toList :=
      Scan.takeWhile_eq_self fun c hc => bne_iff_ne.2 fun heq => hslash (heq ▸ hc)
    simp [splitHead, hwhole]
  have hsplit : Model.splitPath property.name = [property.name] := by
    rw [Model.splitPath, List.splitOn_eq_singleton hslash, List.map_singleton, String.ofList_toList]
  have hresolve : model.resolvePath type property.name = .ok (.single property) := by
    rw [Model.resolvePath, hsplit]
    simp only [Model.resolveProperty, Model.property, Model.complexType, hrecord, ok_bind,
      hproperty]
    rfl
  refine prints_path ?_ (spelled_of_isIdentifier hname (by rwa [String.ofList_toList]))
  rw [resolvePath, hhead]
  dsimp only [Scope.parameter?, List.lookup_nil]
  rw [hresolve]
  rfl

/-! ## Clauses without parentheses -/

/-- A text of a clause: the words it is cut into stay together at an `and` or `or`, and they are
read as an expression. -/
structure Clause (model : Model) (scope : Scope) (text : List Char) (e : Expression)
    (words : List (TokenKind × String)) : Prop where
  reads : ∀ {rest : List Char} {more : List (TokenKind × String)}, Delimited rest →
    Reads rest more → Reads (text ++ rest) (words ++ more)
  enclosed : ∀ {tokens : List Token}, tokens.map Token.word = words → Enclosed false tokens
  clause : ∀ {depth : Nat} {tokens : List Token}, tokens.map Token.word = words →
    tokens.length ≤ depth → readClause model (readNested model depth) scope tokens = .ok e
  ne_nil : words ≠ []

/-- Two operands with an operator between them, other than `and` and `or`. -/
theorem clause_binary {left right : Expression} {leftWords rightWords : List (TokenKind × String)}
    (hleft : Prints model scope left leftWords) (hright : Prints model scope right rightWords)
    {operator : BinaryOperator} (hoperator : operatorKind operator = .binaryOperator) :
    Clause model scope
      (left.text.toList ++ ' ' :: (operator.keyword.toList ++ ' ' :: right.text.toList))
      (.binary operator left right)
      (leftWords ++ (operatorKind operator, operator.keyword) :: rightWords) := by
  refine ⟨fun hrest hmore => ?_, fun htokens => ?_, fun htokens hdepth => ?_, by simp⟩
  · simpa using hleft.reads_binary hright operator hrest hmore
  · obtain ⟨leftTokens, token, rightTokens, rfl, hleftTokens, hkind, -, hrightTokens⟩ :=
      exists_between htokens
    have hplain : token.kind = .binaryOperator := hkind.trans hoperator
    exact (hleft.enclosed hleftTokens).append (.token (by simp [hplain]) (by simp [hplain])
      (.inr (by simp [hplain, TokenKind.isLogical])) (hright.enclosed hrightTokens))
  · obtain ⟨leftTokens, token, rightTokens, rfl, hleftTokens, hkind, hvalue, hrightTokens⟩ :=
      exists_between htokens
    simp only [List.length_append, List.length_cons] at hdepth
    exact hleft.clause_chained hright hleftTokens hrightTokens (by omega) (by omega)
      (hkind.trans hoperator) hvalue

/-- Two clauses with `and` or `or` between them are a filter. -/
theorem parse_joined {text text' : List Char} {e e' : Expression}
    {words words' : List (TokenKind × String)} (h : Clause model ⟨type, []⟩ text e words)
    (h' : Clause model ⟨type, []⟩ text' e' words') {operator : BinaryOperator}
    (hlogical : operator = .and ∨ operator = .or) {input : String}
    (hinput : input.toList = text ++ ' ' :: (operator.keyword.toList ++ ' ' :: text')) :
    parse model type input = .ok (.binary operator e e') := by
  have hne : words ++ (operatorKind operator, operator.keyword) :: words' ≠ [] := by simp
  refine parse_of_reads hne ?_ (fun htokens => ?_) fun htokens => ?_
  · have hlast : Reads text' words' := by simpa using h'.reads delimited_nil reads_nil
    rw [hinput]
    exact h.reads (delimited_blank _) (Reads.operator hlast.blank operator).blank
  · obtain ⟨tokens, token, tokens', rfl, htokens, hkind, -, htokens'⟩ := exists_between htokens
    have hplain : token.kind ≠ .openParen ∧ token.kind ≠ .closeParen := by
      rcases hlogical with rfl | rfl <;> simp [hkind, operatorKind]
    exact (h.enclosed htokens).deepen.append
      (.token hplain.1 hplain.2 (.inl rfl) (h'.enclosed htokens').deepen)
  · obtain ⟨tokens, token, tokens', rfl, htokens, hkind, -, htokens'⟩ := exists_between htokens
    have hne : tokens ≠ [] := by
      rintro rfl
      exact h.ne_nil htokens.symm
    have hne' : tokens' ≠ [] := by
      rintro rfl
      exact h'.ne_nil htokens'.symm
    have hlength : (tokens ++ token :: tokens').length = tokens.length + tokens'.length + 1 := by
      rw [List.length_append, List.length_cons, Nat.add_assoc]
    exact readWith_joined (h.enclosed htokens) (h'.enclosed htokens') hne hne'
      (h.clause htokens (by omega)) (h'.clause htokens' (by omega)) hkind hlogical

/-! ## Comparing a property with texts -/

/-- A property is a text. -/
def comparison (property : Property) (s : String) : Expression :=
  .binary .eq (.path (.single property) none) (.literal (textLiteral s))

theorem clause_comparison (hrecord : model.complexType? type = some record)
    (hproperty : record.property? property.name = some property)
    (hname : isIdentifier property.name.toList = true) (hword : property.name ∉ keywords)
    (s : String) : ∃ words, Clause model ⟨type, []⟩
      (property.name.toList ++ ' ' :: 'e' :: 'q' :: ' ' :: (quoteText s).toList)
      (comparison property s) words :=
  have hpath := prints_property hrecord hproperty hname hword
  have heq : operatorKind .eq = .binaryOperator := rfl
  ⟨_, clause_binary hpath (prints_quoteText s) heq⟩

/-- A comparison of a property that holds texts is a truth value. -/
theorem check_comparison (hstring : property.type = .primitive .string) (s : String) :
    (comparison property s).check model = .ok (some .boolean) := by
  have hterminal : (PropertyPath.single property).terminal.type = .primitive .string := hstring
  rw [comparison, Expression.check, Expression.check, Expression.check, hterminal]
  rfl

/-- Texts between quotation marks are the literals they stand for, whatever is in them. -/
theorem parseFilter_quoteText (hrecord : model.complexType? type = some record)
    (hproperty : record.property? property.name = some property)
    (hstring : property.type = .primitive .string)
    (hname : isIdentifier property.name.toList = true) (hword : property.name ∉ keywords)
    (s t : String) :
    parseFilter model type (property.name ++ " eq " ++ quoteText s ++ " or " ++
      property.name ++ " eq " ++ quoteText t) =
        .ok (.binary .or (comparison property s) (comparison property t)) := by
  obtain ⟨words, hs⟩ := clause_comparison hrecord hproperty hname hword s
  obtain ⟨words', ht⟩ := clause_comparison hrecord hproperty hname hword t
  have hor : BinaryOperator.or = .and ∨ BinaryOperator.or = .or := .inr rfl
  have hparse : parse model type (property.name ++ " eq " ++ quoteText s ++ " or " ++
      property.name ++ " eq " ++ quoteText t) =
        .ok (.binary .or (comparison property s) (comparison property t)) :=
    parse_joined hs ht hor (by simp [BinaryOperator.keyword])
  have hcheck : (Expression.binary .or (comparison property s) (comparison property t)).check model
      = .ok (some .boolean) := by
    rw [Expression.check, check_comparison hstring, check_comparison hstring]
    rfl
  rw [parseFilter, hparse, ok_bind, Expression.checkPredicate, hcheck]
  rfl

/-- A text that tries to close its own literal, and the empty text. -/
theorem parseFilter_quoteText_sample :
    let name : Property := Sample.property Sample.itemKey "Name" (.primitive .string)
    parseFilter Sample.model Sample.itemKey "Name eq ''' or true or ''' or Name eq ''" =
      .ok (.binary .or (comparison name "' or true or '") (comparison name "")) := by
  intro name
  have hrecord : Sample.model.complexType? Sample.itemKey = some Sample.itemType := by decide
  have hproperty : Sample.itemType.property? name.name = some name := by decide
  have htext : "Name eq ''' or true or ''' or Name eq ''" = name.name ++ " eq " ++
      quoteText "' or true or '" ++ " or " ++ name.name ++ " eq " ++ quoteText "" := by decide
  rw [htext]
  exact parseFilter_quoteText hrecord hproperty rfl (by decide) (by decide) _ _

end EntityQuery.Filter
