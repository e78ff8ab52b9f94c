import EntityQuery.Proofs.Expression.Literals
import EntityQuery.Proofs.Filter.Groups
import EntityQuery.Proofs.Filter.Tokens

/-!
# What the reader builds

`Readable model scope e` describes the expressions that reading can yield: their literals and paths
come from tokens, calls have the right number of arguments, and a lambda ranges over a collection of
records and binds a name that is still free.  The main result, `readable_of_parse`, says that
reading yields nothing else.

The texts of literals, paths, lambdas and parameters come with the fact that they are the same
tokens when they are printed.  For this, the readers are followed with token lists that are
`Settled`: whatever piece of the tokens a reader hands on, it is settled by itself, because pieces
are cut off in front of tokens that end an operand.
-/

namespace EntityQuery.Filter

/-- The expressions that can be read in a scope. -/
inductive Readable (model : Model) : Scope → Expression → Prop
  | literal {scope : Scope} {kind : TokenKind} {text : String} {constant : Literal}
      (hkind : kind.isLiteral = true) (hread : Literal.ofToken model kind text = .ok constant)
      (htext : constant.text = text) (hspelled : Spelled kind text.toList) :
      Readable model scope (.literal constant)
  | path {scope : Scope} {text : String} {steps : PropertyPath} {root : Option String}
      (hresolve : resolvePath model scope text = .ok (steps, root))
      (hspelled : text ∉ reservedWords → Spelled .propertyPath text.toList) :
      Readable model scope (.path steps root)
  | binary {scope : Scope} {operator : BinaryOperator} {left right : Expression}
      (hleft : Readable model scope left) (hright : Readable model scope right) :
      Readable model scope (.binary operator left right)
  | unary {scope : Scope} {operator : UnaryOperator} {operand : Expression}
      (hoperand : Readable model scope operand) : Readable model scope (.unary operator operand)
  | call {scope : Scope} {function : Function} {arguments : List Expression}
      (harity : function.accepts arguments.length = true)
      (harguments : ∀ e ∈ arguments, Readable model scope e) :
      Readable model scope (.call function arguments)
  | lambda {scope : Scope} {quantifier : Quantifier} {text : String} {steps : PropertyPath}
      {root : Option String} {element : TypeKey} {parameter : String} {body : Option Expression}
      (hresolve : resolvePath model scope text = .ok (steps, root))
      (helement : elementKey text steps = .ok element)
      (hspelled : ∀ s, firstToken? ((text ++ "/" ++ quantifier.keyword).toList ++ '(' :: s)
        = some (.lambda, (text ++ "/" ++ quantifier.keyword).toList.length))
      (hempty : body = none → quantifier = .any ∧ parameter = "")
      (hfresh : body ≠ none → scope.parameter? parameter = none ∧
        ∀ s, firstToken? (parameter.toList ++ ':' :: s)
          = some (.lambdaParameter, parameter.toList.length + 1))
      (hbody : ∀ e ∈ body, Readable model (scope.bind parameter element) e) :
      Readable model scope (.lambda quantifier (.path steps root) parameter body)

variable {model : Model} {scope : Scope} {tokens rest : List Token}

/-! ## Cutting token lists -/

/-- The pieces between tokens that end an operand are settled. -/
theorem Settled.pieces {piece : List Token} {more : List (Token × List Token)}
    (h : Settled (piece ++ joined more)) (hcuts : ∀ p ∈ more, endsOperand p.1.kind = true) :
    Settled piece ∧ ∀ p ∈ more, Settled p.2 := by
  induction more generalizing piece with
  | nil =>
      simp only [joined, List.flatMap_nil, List.append_nil] at h
      exact ⟨h, by simp⟩
  | cons next more ih =>
      simp only [joined, List.flatMap_cons, List.cons_append] at h
      have hcut : endsOperand next.1.kind = true := hcuts next (by simp)
      have hrest : Settled (next.2 ++ joined more) := h.of_append.2
      obtain ⟨hnext, hmore⟩ := ih hrest fun p hp => hcuts p (by simp [hp])
      exact ⟨h.of_append_cons hcut, List.forall_mem_cons.2 ⟨hnext, hmore⟩⟩

theorem Settled.split {isCut : Token → Bool} (h : Settled tokens)
    (hcut : ∀ token, isCut token = true → endsOperand token.kind = true) (depth : Nat) :
    Settled (splitOutside isCut depth tokens).1 ∧
      ∀ piece ∈ (splitOutside isCut depth tokens).2, Settled piece.2 := by
  obtain ⟨heq, hcuts⟩ := splitOutside_eq isCut depth tokens
  rw [heq] at h
  exact h.pieces fun piece hpiece => hcut piece.1 (hcuts piece hpiece)

/-! ## Readers, given that the reader of inner expressions is sound -/

/-- A reader of inner expressions yields readable ones. -/
def Sound (model : Model) (inner : InnerReader) : Prop :=
  ∀ ⦃scope : Scope⦄ ⦃tokens : List Token⦄ ⦃e : Expression⦄, Settled tokens →
    inner scope tokens = .ok e → Readable model scope e

variable {inner : InnerReader} {token : Token} {inside after : List Token} {e : Expression}

theorem Settled.group {close : Token} (h : Settled (inside ++ close :: after))
    (hclose : close.kind = .closeParen) : Settled inside ∧ Settled after :=
  ⟨h.of_append_cons (by rw [hclose]; rfl), h.of_append.2⟩

theorem groupAfter_eq_ok {token : Token} (h : groupAfter token rest = .ok (inside, after))
    (hrest : Settled rest) : Settled inside ∧ Settled after := by
  cases rest with
  | nil => cases h
  | cons opening rest =>
      obtain ⟨-, close, hclose, rfl⟩ := takeGroup_eq_ok h
      exact hrest.2.group hclose

theorem readArguments_sound (hinner : Sound model inner) {function : Function}
    {before : Option Token} {piece : List Token} {more : List (Token × List Token)}
    {arguments : List Expression} (hpiece : Settled piece) (hmore : ∀ p ∈ more, Settled p.2)
    (h : readArguments (inner scope) function before piece more = .ok arguments) :
    ∀ e ∈ arguments, Readable model scope e := by
  induction more generalizing before piece arguments with
  | nil =>
      unfold readArguments at h
      split at h
      · cases h
      · obtain rfl := Except.ok.inj h
        simp
      · obtain ⟨e, he, h⟩ := bind_eq_ok.1 h
        obtain rfl := pure_eq_ok.1 h
        simpa using hinner hpiece he
  | cons next more ih =>
      unfold readArguments at h
      dsimp only at h
      obtain ⟨-, h⟩ := guard_eq_ok.1 h
      obtain ⟨e, he, h⟩ := bind_eq_ok.1 h
      obtain ⟨others, hothers, h⟩ := bind_eq_ok.1 h
      obtain rfl := pure_eq_ok.1 h
      refine List.forall_mem_cons.2 ⟨hinner hpiece he, ?_⟩
      exact ih (hmore next (by simp)) (fun p hp => hmore p (by simp [hp])) hothers

theorem readCall_sound (hinner : Sound model inner) {name : Token} (hrest : Settled rest)
    (h : readCall inner scope name rest = .ok (e, after)) :
    Readable model scope e ∧ Settled after := by
  unfold readCall at h
  split at h
  · cases h
  · rename_i function hfunction
    obtain ⟨⟨inside, behind⟩, hgroup, h⟩ := bind_eq_ok.1 h
    obtain ⟨hinside, hbehind⟩ := groupAfter_eq_ok hgroup hrest
    dsimp only at h
    obtain ⟨-, h⟩ := guard_eq_ok.1 h
    obtain ⟨arguments, harguments, h⟩ := bind_eq_ok.1 h
    obtain ⟨harity, h⟩ := guard_eq_ok.1 h
    obtain ⟨rfl, rfl⟩ := Prod.mk.inj (pure_eq_ok.1 h)
    -- Arguments are cut apart at commas, which end operands.
    have hcut (token : Token) (htoken : (token.kind == .comma) = true) :
        endsOperand token.kind = true := by
      rw [beq_iff_eq.1 htoken]
      rfl
    obtain ⟨hpiece, hmore⟩ := hinside.split hcut 0
    refine ⟨.call (by simpa using harity) ?_, hbehind⟩
    exact readArguments_sound hinner hpiece hmore harguments

theorem readLambdaBody_sound (hinner : Sound model inner) {element : TypeKey}
    {quantifier : Quantifier} {token : Token} {parameter : String} {body : Option Expression}
    (htokens : Settled tokens)
    (h : readLambdaBody inner scope element quantifier token tokens = .ok (parameter, body)) :
    (body = none → quantifier = .any ∧ parameter = "") ∧
      (body ≠ none → scope.parameter? parameter = none ∧
        ∀ s, firstToken? (parameter.toList ++ ':' :: s)
          = some (.lambdaParameter, parameter.toList.length + 1)) ∧
      ∀ e ∈ body, Readable model (scope.bind parameter element) e := by
  cases tokens with
  | nil =>
      cases quantifier with
      | any =>
          obtain ⟨rfl, rfl⟩ := Prod.mk.inj (Except.ok.inj h)
          exact ⟨fun _ => ⟨rfl, rfl⟩, fun hne => absurd rfl hne, by simp⟩
      | all => cases h
  | cons name inside =>
      unfold readLambdaBody at h
      dsimp only at h
      obtain ⟨hkind, h⟩ := guard_eq_ok.1 h
      obtain ⟨hfresh, h⟩ := guard_eq_ok.1 h
      obtain ⟨-, h⟩ := guard_eq_ok.1 h
      obtain ⟨e, he, h⟩ := bind_eq_ok.1 h
      obtain ⟨rfl, rfl⟩ := Prod.mk.inj (pure_eq_ok.1 h)
      obtain ⟨hstands, hinside⟩ := htokens
      refine ⟨by simp, fun _ => ⟨by simpa using hfresh, ?_⟩, ?_⟩
      · exact hstands.parameter (by simpa using hkind)
      · simpa using hinner hinside he

theorem eq_takeWhile_append {c : Char} (cs : List Char)
    (h : (cs.takeWhile (· != c)).length ≠ cs.length) :
    cs = cs.takeWhile (· != c) ++ c :: cs.drop ((cs.takeWhile (· != c)).length + 1) := by
  induction cs with
  | nil => exact absurd rfl h
  | cons d cs ih =>
      by_cases hd : d = c
      · subst hd
        simp
      · have hne : (d != c) = true := by simpa using hd
        simp only [List.takeWhile_cons, hne, if_true, List.length_cons, List.drop_succ_cons,
          List.cons_append] at h ⊢
        rw [← ih fun heq => h (by rw [heq])]

/-- The text of a path or lambda is put together again from its parts. -/
theorem splitLast?_eq_some {text front last : String} (h : splitLast? text = some (front, last)) :
    text = front ++ "/" ++ last := by
  unfold splitLast? at h
  dsimp only at h
  split at h
  · cases h
  · rename_i hlength
    obtain ⟨rfl, rfl⟩ := Prod.mk.inj (Option.some.inj h)
    have hsplit := eq_takeWhile_append text.toList.reverse (by simpa using hlength)
    have hback := congrArg List.reverse hsplit
    rw [List.reverse_reverse] at hback
    apply String.toList_injective
    simpa using hback

theorem keyword_of_ofKeyword? {word : String} {quantifier : Quantifier}
    (h : Quantifier.ofKeyword? word = some quantifier) : quantifier.keyword = word := by
  unfold Quantifier.ofKeyword? at h
  split at h
  · rename_i hword
    obtain rfl := Option.some.inj h
    exact (beq_iff_eq.1 hword).symm
  · split at h
    · rename_i hword
      obtain rfl := Option.some.inj h
      exact (beq_iff_eq.1 hword).symm
    · cases h

theorem readLambda_sound (hinner : Sound model inner) (hkind : token.kind = .lambda)
    (hstands : Stands token rest) (hrest : Settled rest)
    (h : readLambda model inner scope token rest = .ok (e, after)) :
    Readable model scope e ∧ Settled after := by
  unfold readLambda at h
  split at h
  · cases h
  · rename_i text keyword hsplit
    split at h
    · cases h
    · rename_i quantifier hquantifier
      obtain ⟨⟨steps, root⟩, hresolve, h⟩ := bind_eq_ok.1 h
      obtain ⟨element, helement, h⟩ := bind_eq_ok.1 h
      obtain ⟨⟨inside, behind⟩, hgroup, h⟩ := bind_eq_ok.1 h
      obtain ⟨⟨parameter, body⟩, hbody, h⟩ := bind_eq_ok.1 h
      obtain ⟨rfl, rfl⟩ := Prod.mk.inj (pure_eq_ok.1 h)
      obtain ⟨hinside, hbehind⟩ := groupAfter_eq_ok hgroup hrest
      obtain ⟨hempty, hfresh, hreadable⟩ := readLambdaBody_sound hinner hinside hbody
      -- The token is printed again as the path and the quantifier that it was split into.
      have htext : token.value = text ++ "/" ++ quantifier.keyword := by
        rw [splitLast?_eq_some hsplit, keyword_of_ofKeyword? hquantifier]
      refine ⟨.lambda hresolve helement ?_ hempty hfresh hreadable, hbehind⟩
      rw [← htext]
      exact hstands.lambda hkind

theorem spelled_null : Spelled .null "null".toList := by
  have hplain : Plain "null".toList := ⟨⟨_, _, rfl, by decide⟩, by decide⟩
  exact hplain.spelled (r := []) (by decide) (by simp [Delimited]) (by decide)

theorem readable_literal {kind : TokenKind} {text : String} {constant : Literal}
    (hkind : kind.isLiteral = true) (hread : Literal.ofToken model kind text = .ok constant)
    (hspelled : Spelled kind text.toList) : Readable model scope (.literal constant) := by
  by_cases hnull : kind = .null
  · subst hnull
    obtain rfl := Except.ok.inj hread
    exact Readable.literal hkind rfl rfl spelled_null
  · exact .literal hkind hread (Literal.ofToken_text hread hnull) hspelled

theorem readOperand_sound (hinner : Sound model inner) (htokens : Settled tokens)
    (h : readOperand model inner scope tokens = .ok (e, rest)) (hrest : Closes rest) :
    Readable model scope e ∧ Settled rest := by
  cases tokens with
  | nil => cases h
  | cons token tokens =>
      obtain ⟨hstands, htokens⟩ := htokens
      unfold readOperand at h
      dsimp only at h
      split at h
      -- A group holds an expression that is read by itself.
      · obtain ⟨⟨inside, behind⟩, hgroup, h⟩ := bind_eq_ok.1 h
        obtain ⟨-, h⟩ := guard_eq_ok.1 h
        obtain ⟨operand, hoperand, h⟩ := bind_eq_ok.1 h
        obtain ⟨rfl, rfl⟩ := Prod.mk.inj (pure_eq_ok.1 h)
        obtain ⟨-, close, hclose, rfl⟩ := takeGroup_eq_ok hgroup
        obtain ⟨hinside, hbehind⟩ := htokens.group hclose
        exact ⟨hinner hinside hoperand, hbehind⟩
      · exact readCall_sound hinner htokens h
      · rename_i hkind
        exact readLambda_sound hinner hkind hstands htokens h
      · rename_i hkind
        obtain ⟨⟨steps, root⟩, hresolve, h⟩ := bind_eq_ok.1 h
        obtain ⟨rfl, rfl⟩ := Prod.mk.inj (pure_eq_ok.1 h)
        -- A path is the same token elsewhere, unless it is the word of an operator.
        exact ⟨.path hresolve fun hword => hstands.path hkind hword hrest, htokens⟩
      · split at h
        · rename_i hliteral
          obtain ⟨constant, hread, h⟩ := bind_eq_ok.1 h
          obtain ⟨rfl, rfl⟩ := Prod.mk.inj (pure_eq_ok.1 h)
          exact ⟨readable_literal hliteral hread (hstands.literal hliteral hrest), htokens⟩
        · cases h

/-! ## Chains and clauses -/

theorem closes_of_readLinks {limit : Nat} {links : List (BinaryOperator × Expression)}
    (h : readLinks model inner scope limit tokens = .ok links) : Closes tokens := by
  cases tokens with
  | nil => simp [Closes]
  | cons token tokens =>
      cases limit with
      | zero => cases h
      | succ limit =>
          unfold readLinks at h
          split at h
          · cases h
          · rename_i hkind
            have heq : token.kind = .binaryOperator := by simpa using hkind
            simp [Closes, heq, endsOperand]

theorem readLinks_sound (hinner : Sound model inner) {limit : Nat}
    {links : List (BinaryOperator × Expression)} (htokens : Settled tokens)
    (h : readLinks model inner scope limit tokens = .ok links) :
    ∀ link ∈ links, Readable model scope link.2 := by
  induction limit generalizing tokens links with
  | zero =>
      cases tokens with
      | nil =>
          obtain rfl := Except.ok.inj h
          simp
      | cons token tokens => cases h
  | succ limit ih =>
      cases tokens with
      | nil =>
          obtain rfl := Except.ok.inj h
          simp
      | cons token tokens =>
          unfold readLinks at h
          split at h
          · cases h
          · split at h
            · cases h
            · obtain ⟨-, h⟩ := guard_eq_ok.1 h
              obtain ⟨⟨operand, behind⟩, hoperand, h⟩ := bind_eq_ok.1 h
              obtain ⟨others, hothers, h⟩ := bind_eq_ok.1 h
              obtain rfl := pure_eq_ok.1 h
              obtain ⟨hreadable, hbehind⟩ :=
                readOperand_sound hinner htokens.2 hoperand (closes_of_readLinks hothers)
              exact List.forall_mem_cons.2 ⟨hreadable, ih hbehind hothers⟩

theorem Readable.attach {operator : BinaryOperator} {chain : Chain}
    (hchain : Readable model scope chain.toExpression) (he : Readable model scope e) :
    Readable model scope (Chain.attach operator e chain).toExpression := by
  induction chain with
  | operand first => exact .binary hchain he
  | join other left right _ ih =>
      unfold Chain.attach
      split
      · -- A weaker operator keeps its left side and takes the operand on its right one.
        cases hchain with
        | binary hleft hright => exact .binary hleft (ih hright)
      · exact .binary hchain he

theorem Readable.group {first : Expression} {links : List (BinaryOperator × Expression)}
    (hfirst : Readable model scope first) (hlinks : ∀ link ∈ links, Readable model scope link.2) :
    Readable model scope (Chain.group first links).toExpression := by
  have hfold (chain : Chain) (hchain : Readable model scope chain.toExpression) :
      Readable model scope (links.foldl (fun chain link => Chain.attach link.1 link.2 chain)
        chain).toExpression := by
    induction links generalizing chain with
    | nil => exact hchain
    | cons link links ih =>
        obtain ⟨hlink, hlinks⟩ := List.forall_mem_cons.1 hlinks
        exact ih hlinks _ (hchain.attach hlink)
  exact hfold (.operand first) hfirst

theorem readChain_sound (hinner : Sound model inner) (htokens : Settled tokens)
    (h : readChain model inner scope tokens = .ok e) : Readable model scope e := by
  obtain ⟨⟨first, behind⟩, hfirst, h⟩ := bind_eq_ok.1 h
  obtain ⟨links, hlinks, h⟩ := bind_eq_ok.1 h
  obtain rfl := pure_eq_ok.1 h
  obtain ⟨hreadable, hbehind⟩ :=
    readOperand_sound hinner htokens hfirst (closes_of_readLinks hlinks)
  exact hreadable.group (readLinks_sound hinner hbehind hlinks)

theorem readClause_sound (hinner : Sound model inner) (htokens : Settled tokens)
    (h : readClause model inner scope tokens = .ok e) : Readable model scope e := by
  induction tokens generalizing e with
  | nil => exact readChain_sound hinner htokens h
  | cons token tokens ih =>
      unfold readClause at h
      split at h
      · split at h
        · cases h
        · obtain ⟨operand, hoperand, rfl⟩ := map_eq_ok.1 h
          exact .unary (ih htokens.2 hoperand)
      · exact readChain_sound hinner htokens h

theorem joinClauses_sound (hinner : Sound model inner) {root : Expression}
    {more : List (Token × List Token)} (hroot : Readable model scope root)
    (hmore : ∀ p ∈ more, Settled p.2)
    (h : joinClauses (readClause model inner scope) root more = .ok e) :
    Readable model scope e := by
  induction more generalizing root with
  | nil =>
      obtain rfl := Except.ok.inj h
      exact hroot
  | cons next more ih =>
      obtain ⟨hnext, hmore⟩ := List.forall_mem_cons.1 hmore
      unfold joinClauses at h
      obtain ⟨-, h⟩ := guard_eq_ok.1 h
      obtain ⟨right, hright, h⟩ := bind_eq_ok.1 h
      exact ih (.binary hroot (readClause_sound hinner hnext hright)) hmore h

theorem readWith_sound (hinner : Sound model inner) : Sound model (readWith model inner) := by
  intro scope tokens e htokens h
  have hcut (token : Token) (htoken : token.kind.isLogical = true) :
      endsOperand token.kind = true := by
    cases hkind : token.kind <;> rw [hkind] at htoken <;> first | rfl | cases htoken
  obtain ⟨hfirst, hmore⟩ := htokens.split hcut 0
  unfold readWith at h
  dsimp only at h
  split at h
  · split at h <;> cases h
  · obtain ⟨root, hroot, h⟩ := bind_eq_ok.1 h
    exact joinClauses_sound hinner (readClause_sound hinner hfirst hroot) hmore h

theorem readNested_sound (model : Model) (depth : Nat) : Sound model (readNested model depth) := by
  induction depth with
  | zero =>
      intro scope tokens e _ h
      cases h
  | succ depth ih => exact readWith_sound ih

/-- Whatever a text is read as is readable. -/
theorem readable_of_parse {type : TypeKey} {input : String}
    (h : parse model type input = .ok e) : Readable model ⟨type, []⟩ e := by
  unfold parse at h
  obtain ⟨tokens, htokens, h⟩ := bind_eq_ok.1 h
  obtain ⟨-, h⟩ := guard_eq_ok.1 h
  obtain ⟨-, -, h⟩ := bind_eq_ok.1 h
  exact readNested_sound model _ (settled_of_tokenizeFrom htokens).1 h

end EntityQuery.Filter
