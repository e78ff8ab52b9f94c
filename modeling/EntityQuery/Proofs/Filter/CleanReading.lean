import EntityQuery.Proofs.Filter.SoundSlices

/-!
# Reading does not run out of tokens

Readers report an operand that is missing behind the last token and a group that does not come to
its end.  No reader ever does so on a sound slice (`Clean`): each of them hands sound slices on, and
where it would report one of these errors itself, the slice that it works on has what it looks for.

The errors of names and literals are other ones, whatever their text.
-/

namespace EntityQuery.Filter

variable {model : Model} {scope : Scope} {inner : InnerReader} {token : Token}
  {tokens rest : List Token} {e : Expression}

/-- A reader has run out of tokens: where an operand should be, or inside of a group. -/
def ranOut : QueryError → Bool
  | .malformed .missingOperand => true
  | .malformed (.openGroup _) => true
  | _ => false

/-- An outcome other than that a reader has run out of tokens. -/
def Clean {α : Type} (x : Except QueryError α) : Prop :=
  ∀ error, x = .error error → ranOut error = false

namespace Clean

variable {α β γ : Type} {x : Except QueryError α} {fault : QueryError}

theorem ok (a : α) : Clean (.ok a : Except QueryError α) := FailsWithout.ok a

theorem error (h : ranOut fault = false) : Clean (.error fault : Except QueryError α) :=
  FailsWithout.error h

theorem bind {f : α → Except QueryError β} (hx : Clean x) (hf : ∀ a, x = .ok a → Clean (f a)) :
    Clean (x >>= f) :=
  FailsWithout.bind hx hf

theorem map {f : α → β} (hx : Clean x) : Clean (x.map f) := FailsWithout.map f hx

theorem guard {c : Prop} [Decidable c] {f : γ → Except QueryError α} (hfault : ranOut fault = false)
    (hx : ¬c → Clean x) : Clean (if c then (throw fault : Except QueryError γ) >>= f else x) :=
  FailsWithout.guard hfault hx

end Clean

/-! ## Names and literals -/

theorem clean_property (key : TypeKey) (name : String) : Clean (model.property key name) := by
  unfold Model.property Model.complexType
  refine .bind ?_ fun type _ => ?_
  · split
    · exact .ok _
    · exact .error rfl
  · split
    · exact .ok _
    · exact .error rfl

theorem clean_resolveSegments (path : String) (key : TypeKey) (names : List String) :
    Clean (model.resolveSegments path key names) := by
  induction names generalizing key with
  | nil => exact .ok []
  | cons name rest ih =>
      rw [Model.resolveSegments.eq_def]
      dsimp only
      refine .guard rfl fun _ => .bind (clean_property key name) fun property _ => ?_
      split
      · exact .ok _
      · refine .bind ?_ fun next _ => .bind (ih next) fun _ _ => .ok _
        unfold Model.target
        split
        · exact .ok _
        · exact .error rfl

theorem clean_resolvePath (scope : Scope) (text : String) :
    Clean (resolvePath model scope text) := by
  have hmodel (key : TypeKey) (path : String) : Clean (model.resolvePath key path) := by
    unfold Model.resolvePath
    split
    · exact .map (clean_property key path)
    · exact .map (clean_property key path)
    · refine .bind (clean_resolveSegments path key _) fun properties _ => ?_
      split
      · exact .ok _
      · exact .error rfl
  unfold resolvePath
  dsimp only
  split
  · exact .bind (hmodel _ _) fun _ _ => .ok _
  · exact .error rfl
  · exact .bind (hmodel _ _) fun _ _ => .ok _

theorem clean_elementKey (text : String) (path : PropertyPath) : Clean (elementKey text path) := by
  unfold elementKey
  split
  · exact .ok _
  · exact .error rfl

theorem clean_ofRead (kind : PrimitiveKind) (text what : String) (value : Option Value) :
    Clean (Literal.ofRead kind text what value) := by
  cases value with
  | none => exact .error rfl
  | some value => exact .ok _

theorem clean_combine (type : EnumType) (name : String) (members : List String) :
    Clean (Literal.combine type name members) := by
  induction members with
  | nil => exact .ok _
  | cons member members ih =>
      rw [Literal.combine]
      refine .bind ?_ fun value _ => .bind ih fun _ _ => .ok _
      unfold Literal.memberValue
      split
      · exact .ok _
      · split
        · exact .ok _
        · exact .error rfl

theorem clean_readInteger (text : String) : Clean (Literal.readInteger text) := by
  unfold Literal.readInteger
  dsimp only
  split
  case h_3 =>
    split
    · exact .ok _
    · split
      · exact .ok _
      · exact .error rfl
  all_goals
    split
    · exact .ok _
    · exact .error rfl

theorem clean_readEnum (text : String) : Clean (Literal.readEnum model text) := by
  unfold Literal.readEnum
  dsimp only
  refine .guard rfl fun _ => ?_
  split
  · exact .bind (.ok _) fun type _ => .bind (clean_combine type _ _) fun _ _ => .ok _
  · exact .error rfl

theorem clean_readBoolean (text : String) : Clean (Literal.readBoolean text) := by
  unfold Literal.readBoolean
  split
  · exact .ok _
  · split
    · exact .ok _
    · exact .error rfl

theorem clean_literal (kind : TokenKind) (text : String) :
    Clean (Literal.ofToken model kind text) := by
  cases kind with
  | boolean => exact clean_readBoolean text
  | null => exact .ok _
  | integer => exact clean_readInteger text
  | enumeration => exact clean_readEnum text
  | decimal | double | single | date | dateTimeOffset | timeOfDay | duration | guid | binary
  | string => exact clean_ofRead _ _ _ _
  | openParen | closeParen | comma | and | or | not | binaryOperator | lambda | lambdaParameter
  | functionName | propertyPath | whitespace => exact .error rfl

/-! ## Reading -/

/-- The expressions that a task leads to are read without these errors. -/
abbrev CleanBehind (task : Task) (inner : InnerReader) : Prop :=
  Behind task fun scope slice => Clean (inner scope slice)

theorem clean_readArguments {read : List Token → Except QueryError Expression}
    {function : Function} {before : Option Token} {piece : List Token}
    {more : List (Token × List Token)} (hpiece : piece ≠ [] → Clean (read piece))
    (hmore : ∀ next ∈ more, next.2 ≠ [] → Clean (read next.2)) :
    Clean (readArguments read function before piece more) := by
  induction more generalizing before piece with
  | nil =>
      cases piece with
      | nil =>
          cases before with
          | none => exact .ok []
          | some comma => exact .error rfl
      | cons token piece =>
          rw [readArguments]
          exact .bind (hpiece (List.cons_ne_nil token piece)) fun _ _ => .ok _
  | cons next more ih =>
      obtain ⟨hnext, hrest⟩ := List.forall_mem_cons.1 hmore
      rw [readArguments]
      refine .guard rfl fun hne => .bind (hpiece (by simpa using hne)) fun argument _ => ?_
      exact .bind (ih hnext hrest) fun _ _ => .ok _

theorem clean_readCall (hwhole : Whole (token :: rest)) (hkind : token.kind = .functionName)
    (h : CleanBehind (.operand (token :: rest)) inner) :
    Clean (readCall inner scope token rest) := by
  unfold readCall
  split
  · exact .error rfl
  · obtain ⟨opening, more, inside, after, rfl, -, hgroup⟩ := hwhole.exists_follower (.inl hkind)
    rw [groupAfter, hgroup, ok_bind]
    refine .guard rfl fun hne => ?_
    have hslices := h.step (.arguments hkind hgroup (by simpa using hne))
    refine .bind (clean_readArguments (fun hne => hslices.apply (.firstArgument hne) scope)
      fun next hnext hne => hslices.apply (.nextArgument hnext hne) scope) fun arguments _ => ?_
    exact .guard rfl fun _ => .ok _

theorem clean_readLambda (hwhole : Whole (token :: rest)) (hkind : token.kind = .lambda)
    (h : CleanBehind (.operand (token :: rest)) inner) :
    Clean (readLambda model inner scope token rest) := by
  unfold readLambda
  split
  · exact .error rfl
  · split
    · exact .error rfl
    · rename_i sourceText keyword _ _ quantifier _
      refine .bind (clean_resolvePath scope sourceText) fun resolved _ => ?_
      refine .bind (clean_elementKey sourceText resolved.1) fun element _ => ?_
      obtain ⟨opening, more, inside, after, rfl, -, hgroup⟩ := hwhole.exists_follower (.inr hkind)
      rw [groupAfter, hgroup, ok_bind]
      refine .bind ?_ fun _ _ => .ok _
      cases inside with
      | nil =>
          cases quantifier with
          | any => exact .ok _
          | all => exact .error rfl
      | cons parameter body =>
          refine .guard rfl fun hparameter => .guard rfl fun _ => .guard rfl fun hne => ?_
          have hbody := h.apply (.body hkind hgroup (by simpa using hparameter)
            (by simpa using hne)) (scope.bind parameter.value element)
          exact .bind hbody fun _ _ => .ok _

theorem clean_readOperand (hsound : (Task.operand tokens).Sound)
    (h : CleanBehind (.operand tokens) inner) : Clean (readOperand model inner scope tokens) := by
  cases tokens with
  | nil => exact absurd rfl hsound.1
  | cons token rest =>
      unfold readOperand
      dsimp only
      split
      · rename_i hkind
        obtain ⟨inside, after, hgroup⟩ := hsound.2.exists_group hkind
        rw [hgroup, ok_bind]
        refine .guard rfl fun hne => ?_
        exact .bind (h.apply (.inside hkind hgroup (by simpa using hne)) scope) fun _ _ => .ok _
      · rename_i hkind
        exact clean_readCall hsound.2 hkind h
      · rename_i hkind
        exact clean_readLambda hsound.2 hkind h
      · exact .bind (clean_resolvePath scope token.value) fun _ _ => .ok _
      · split
        · exact .bind (clean_literal _ token.value) fun _ _ => .ok _
        · exact .error rfl

theorem clean_readLinks {limit : Nat} (hsound : (Task.links tokens).Sound)
    (h : CleanBehind (.links tokens) inner) : Clean (readLinks model inner scope limit tokens) := by
  induction limit generalizing tokens with
  | zero =>
      cases tokens with
      | nil => exact .ok []
      | cons token rest => exact .error rfl
  | succ limit ih =>
      cases tokens with
      | nil => exact .ok []
      | cons token rest =>
          unfold readLinks
          split
          · exact .error rfl
          · rename_i hkind
            split
            · exact .error rfl
            · refine .guard rfl fun hne => ?_
              have hcall : Calls (.links (token :: rest)) (.operand rest) :=
                .next (by simpa using hkind) (by simpa using hne)
              refine .bind (clean_readOperand (hcall.sound hsound) (h.step hcall))
                fun parts hparts => ?_
              have hbehind : Calls (.operand rest) (.links parts.2) := .behind hparts
              exact .bind (ih (hbehind.sound (hcall.sound hsound)) ((h.step hcall).step hbehind))
                fun _ _ => .ok _

theorem clean_readChain (hsound : (Task.operand tokens).Sound)
    (h : CleanBehind (.operand tokens) inner) : Clean (readChain model inner scope tokens) := by
  unfold readChain
  refine .bind (clean_readOperand hsound h) fun parts hparts => ?_
  have hbehind : Calls (.operand tokens) (.links parts.2) := .behind hparts
  exact .bind (clean_readLinks (hbehind.sound hsound) (h.step hbehind)) fun _ _ => .ok _

theorem clean_readClause (hsound : (Task.clause tokens).Sound)
    (h : CleanBehind (.clause tokens) inner) : Clean (readClause model inner scope tokens) := by
  induction tokens with
  | nil => exact absurd rfl hsound.1
  | cons token rest ih =>
      rw [readClause]
      split
      · rename_i hkind
        split
        · exact .error rfl
        · rename_i hne
          have hcall : Calls (.clause (token :: rest)) (.clause rest) :=
            .negated (by simpa using hkind) (by simpa using hne)
          exact .map (ih (hcall.sound hsound) (h.step hcall))
      · rename_i hkind
        have hcall : Calls (.clause (token :: rest)) (.operand (token :: rest)) :=
          .first (by simpa using hkind)
        exact clean_readChain (hcall.sound hsound) (h.step hcall)

theorem clean_joinClauses {clause : List Token → Except QueryError Expression}
    {more : List (Token × List Token)} (h : ∀ next ∈ more, next.2 ≠ [] → Clean (clause next.2)) :
    Clean (joinClauses clause e more) := by
  induction more generalizing e with
  | nil => exact .ok e
  | cons next more ih =>
      obtain ⟨hnext, hrest⟩ := List.forall_mem_cons.1 h
      rw [joinClauses]
      exact .guard rfl fun hne => .bind (hnext (by simpa using hne)) fun right _ => ih hrest

theorem clean_readWith (hsound : (Task.expression tokens).Sound)
    (h : CleanBehind (.expression tokens) inner) : Clean (readWith model inner scope tokens) := by
  have hclause {slice : List Token} (hcall : Calls (.expression tokens) (.clause slice)) :
      Clean (readClause model inner scope slice) :=
    clean_readClause (hcall.sound hsound) (h.step hcall)
  unfold readWith
  dsimp only
  split
  · split
    · exact .error rfl
    · exact .error rfl
  · rename_i hne
    refine .bind (hclause (.firstClause (by simpa using hne))) fun root _ => ?_
    exact clean_joinClauses fun next hnext hne => hclause (.nextClause hnext hne)

theorem clean_readNested (depth : Nat) (hsound : (Task.expression tokens).Sound) :
    Clean (readNested model depth scope tokens) := by
  induction depth generalizing scope tokens with
  | zero => exact .error rfl
  | succ depth ih =>
      refine clean_readWith hsound fun scope slice hreach => ih ?_
      exact sound_of_reaches hreach.to_reflTransGen hsound

/-! ## Filters -/

theorem whole_of_tokenize {input : String} (h : tokenize input = .ok tokens)
    (hbalance : checkBalance input.utf8ByteSize [] tokens = .ok ()) : Whole tokens :=
  ⟨checkBalance_eq_ok_iff.1 hbalance, followed_of_tokenize h⟩

theorem Scans.clean {rounds position : Nat} {cs : List Char}
    {outcome : Except QueryError (List Token)} (h : Scans rounds position cs outcome) :
    Clean outcome := by
  induction h with
  | finish => exact .ok []
  | stop => exact .error rfl
  | blank _ _ ih => exact ih
  | token _ _ _ ih => exact .map ih

theorem clean_checkBalance (stop : Nat) (opened : List Nat) (tokens : List Token) :
    Clean (checkBalance stop opened tokens) := by
  induction tokens generalizing opened with
  | nil =>
      cases opened with
      | nil => exact .ok ()
      | cons position outer => exact .error rfl
  | cons token rest ih =>
      rw [checkBalance.eq_def]
      dsimp only
      split
      · exact ih _
      · split
        · exact .error rfl
        · exact ih _
      · exact ih _

theorem clean_parse (model : Model) (type : TypeKey) (input : String) :
    Clean (parse model type input) := by
  unfold parse
  obtain ⟨rounds, -, hscans⟩ := exists_scans 0 input.toList
  refine .bind hscans.clean fun tokens htokens => .guard rfl fun _ => ?_
  refine .bind (clean_checkBalance _ [] tokens) fun _ hbalance => ?_
  exact clean_readNested _ (whole_of_tokenize htokens hbalance)

/-- Parentheses are checked once and for all.  The check of a filter's tokens succeeds exactly if
they are balanced.  Then every task that reading them leads to is sound: slices are balanced, no
depth is counted below zero, every group comes to its end, there is a group behind the name of a
function or a lambda, and there are tokens where an operand is looked for.  The expressions among
these tasks are all that matters to what is read, and no reader runs out of tokens. -/
theorem balance_suffices {input : String} (h : tokenize input = .ok tokens) :
    (checkBalance input.utf8ByteSize [] tokens = .ok () ↔ Balanced tokens) ∧
      (checkBalance input.utf8ByteSize [] tokens = .ok () →
        ∀ task, Relation.ReflTransGen Calls (.expression tokens) task → task.Sound) ∧
      (∀ model scope inner other,
        Behind (.expression tokens) (fun scope slice => inner scope slice = other scope slice) →
          readWith model inner scope tokens = readWith model other scope tokens) ∧
      ∀ model type error, parse model type input = .error error → ranOut error = false :=
  ⟨checkBalance_eq_ok_iff,
    fun hbalance _ hreach => sound_of_reaches hreach (whole_of_tokenize h hbalance),
    fun _ _ _ _ hagree => readWith_congr hagree,
    fun model type error hparse => clean_parse model type input error hparse⟩

/-- The group behind the `not` is taken apart from it and read.  As many closing parentheses as
opening ones are not enough. -/
theorem balance_suffices_not :
    tokenize "not (true)" = .ok [⟨.not, "not", 0⟩, ⟨.openParen, "(", 4⟩, ⟨.boolean, "true", 5⟩,
        ⟨.closeParen, ")", 9⟩] ∧
      checkBalance "not (true)".utf8ByteSize [] [⟨.not, "not", 0⟩, ⟨.openParen, "(", 4⟩,
        ⟨.boolean, "true", 5⟩, ⟨.closeParen, ")", 9⟩] = .ok () ∧
      (Task.operand [⟨.openParen, "(", 4⟩, ⟨.boolean, "true", 5⟩, ⟨.closeParen, ")", 9⟩]).Sound ∧
      (Task.expression [⟨.boolean, "true", 5⟩]).Sound ∧
      tokenize ")(" = .ok [⟨.closeParen, ")", 0⟩, ⟨.openParen, "(", 1⟩] ∧
      ¬Balanced [⟨.closeParen, ")", 0⟩, ⟨.openParen, "(", 1⟩] := by
  have htokens : tokenize "not (true)" = .ok [⟨.not, "not", 0⟩, ⟨.openParen, "(", 4⟩,
      ⟨.boolean, "true", 5⟩, ⟨.closeParen, ")", 9⟩] := rfl
  have hbalance : checkBalance "not (true)".utf8ByteSize [] [⟨.not, "not", 0⟩,
      ⟨.openParen, "(", 4⟩, ⟨.boolean, "true", 5⟩, ⟨.closeParen, ")", 9⟩] = .ok () := rfl
  have hturned : tokenize ")(" = .ok [⟨.closeParen, ")", 0⟩, ⟨.openParen, "(", 1⟩] := rfl
  have hsound := (balance_suffices htokens).2.1 hbalance
  have hoperand : Relation.ReflTransGen Calls
      (.expression [⟨.not, "not", 0⟩, ⟨.openParen, "(", 4⟩, ⟨.boolean, "true", 5⟩,
        ⟨.closeParen, ")", 9⟩])
      (.operand [⟨.openParen, "(", 4⟩, ⟨.boolean, "true", 5⟩, ⟨.closeParen, ")", 9⟩]) :=
    .tail (.tail (.single (.firstClause (by decide))) (.negated rfl (by decide))) (.first nofun)
  refine ⟨htokens, hbalance, hsound _ hoperand,
    hsound _ (hoperand.tail (.inside rfl rfl (by decide))), hturned, fun hbalanced => ?_⟩
  cases (balance_suffices hturned).1.2 hbalanced

end EntityQuery.Filter
