import EntityQuery.Proofs.Filter.Tokens

/-!
# What tokenizing keeps of a text

What the rounds of the scanner (`Scans`) have taken are tokens and white space, one behind the other
(`Lies`), so that a text can be put together again from its tokens and the white space around them.
A text that cannot be tokenized begins with such tokens, and what is reported stands right behind
them.
-/

namespace EntityQuery.Filter

open Text

variable {kind : TokenKind} {cs rest blanks : List Char} {n rounds position : Nat}
  {tokens : List Token} {token : Token} {outcome : Except QueryError (List Token)}

/-- The characters that a token was read from.  The text of a parameter goes without its colon. -/
def Token.source (token : Token) : List Char :=
  token.value.toList ++ if token.kind = .lambdaParameter then [':'] else []

/-! ## Tokens in a text -/

/-- Tokens lie in a text that begins at a byte position: each begins at the position it has, and
between them there is white space only. -/
inductive Lies : Nat → List Token → List Char → Prop
  | nil {position : Nat} {blanks : List Char} (hblanks : ∀ c ∈ blanks, isAsciiBlank c = true) :
      Lies position [] blanks
  | cons {position : Nat} {blanks rest : List Char} {token : Token} {tokens : List Token}
      (hblanks : ∀ c ∈ blanks, isAsciiBlank c = true)
      (hposition : token.position = position + utf8Length blanks) (hsource : token.source ≠ [])
      (hrest : Lies (token.position + utf8Length token.source) tokens rest) :
      Lies position (token :: tokens) (blanks ++ (token.source ++ rest))

theorem utf8Length_append (cs rest : List Char) :
    utf8Length (cs ++ rest) = utf8Length cs + utf8Length rest := by
  induction cs with
  | nil => simp [utf8Length]
  | cons c cs ih => rw [List.cons_append, utf8Length, utf8Length, ih, Nat.add_assoc]

theorem utf8Length_pos (h : cs ≠ []) : 0 < utf8Length cs := by
  obtain ⟨c, rest, rfl⟩ := List.exists_cons_of_ne_nil h
  exact Nat.lt_of_lt_of_le c.utf8Size_pos (Nat.le_add_right _ _)

theorem utf8ByteSize_ofList (cs : List Char) :
    (String.ofList cs).utf8ByteSize = utf8Length cs := by
  induction cs with
  | nil => rfl
  | cons c cs ih =>
      have hcons : String.ofList (c :: cs) = String.singleton c ++ String.ofList cs := by
        apply String.toList_injective
        simp
      rw [hcons, String.utf8ByteSize_append, String.utf8ByteSize_singleton, ih, utf8Length]

namespace Lies

/-- White space in front of a text moves the tokens. -/
theorem blank_append (hblanks : ∀ c ∈ blanks, isAsciiBlank c = true)
    (h : Lies (position + utf8Length blanks) tokens cs) : Lies position tokens (blanks ++ cs) := by
  cases h with
  | nil hmore =>
      refine .nil fun c hc => ?_
      rcases List.mem_append.1 hc with hc | hc
      · exact hblanks c hc
      · exact hmore c hc
  | @cons _ more rest token tokens hmore hposition hsource hrest =>
      rw [← List.append_assoc]
      refine .cons (fun c hc => ?_) ?_ hsource hrest
      · rcases List.mem_append.1 hc with hc | hc
        · exact hblanks c hc
        · exact hmore c hc
      · rw [hposition, utf8Length_append, Nat.add_assoc]

/-- A token has the byte offset of its text as its position. -/
theorem exists_eq_append (h : Lies position tokens cs) (hmem : token ∈ tokens) :
    ∃ front back, cs = front ++ (token.source ++ back) ∧
      token.position = position + utf8Length front := by
  induction h with
  | nil => cases hmem
  | @cons position blanks rest first tokens hblanks hposition hsource hrest ih =>
      rcases List.mem_cons.1 hmem with rfl | hmem
      · exact ⟨blanks, rest, rfl, hposition⟩
      · obtain ⟨front, back, rfl, heq⟩ := ih hmem
        refine ⟨blanks ++ (first.source ++ front), back, by simp only [List.append_assoc], ?_⟩
        rw [heq, hposition, utf8Length_append, utf8Length_append]
        omega

theorem position_le (h : Lies position tokens cs) (hmem : token ∈ tokens) :
    position ≤ token.position := by
  obtain ⟨front, back, -, heq⟩ := h.exists_eq_append hmem
  omega

theorem ascending (h : Lies position tokens cs) :
    tokens.Pairwise fun a b => a.position < b.position := by
  induction h with
  | nil => exact .nil
  | cons hblanks hposition hsource hrest ih =>
      refine .cons (fun next hnext => ?_) ih
      have hpos := utf8Length_pos hsource
      have hle := hrest.position_le hnext
      omega

/-- A position is never inside of a character. -/
theorem isValid {input : String} (h : Lies 0 tokens input.toList) (hmem : token ∈ tokens) :
    String.Pos.Raw.IsValid input ⟨token.position⟩ := by
  obtain ⟨front, back, hinput, hposition⟩ := h.exists_eq_append hmem
  refine String.Pos.Raw.isValid_iff_exists_append.2
    ⟨String.ofList front, String.ofList (token.source ++ back), ?_, ?_⟩
  · rw [← String.ofList_append, ← hinput, String.ofList_toList]
  · rw [hposition, Nat.zero_add, ← utf8ByteSize_ofList]
    rfl

end Lies

/-! ## Rounds take tokens and white space -/

theorem isAsciiBlank_of_mem_take (h : firstToken? cs = some (.whitespace, n)) :
    ∀ c ∈ cs.take n, isAsciiBlank c = true := by
  have hscan : Scan.some1 isAsciiBlank cs = some n :=
    scan_of_firstToken? ⟨.whitespace, .some1 isAsciiBlank, .anything⟩ (by simp [tokenRules]) h
  unfold Scan.some1 at hscan
  dsimp only at hscan
  split at hscan
  · cases hscan
  · obtain rfl := Option.some.inj hscan
    intro c hc
    rw [← List.prefix_iff_eq_take.1 (List.takeWhile_prefix _)] at hc
    exact List.all_eq_true.1 List.all_takeWhile c hc

theorem source_of_firstToken? (h : firstToken? cs = some (kind, n)) (position : Nat) :
    (⟨kind, tokenText kind (cs.take n), position⟩ : Token).source = cs.take n := by
  unfold Token.source tokenText
  by_cases hkind : kind = .lambdaParameter
  · subst hkind
    have hlength : (cs.take n).length = n := List.length_take_of_le (length_le_of_firstToken? h)
    obtain ⟨u, hu, -⟩ := eq_append_colon (t := cs.take n) (r := cs.drop n)
      (by rwa [List.take_append_drop, hlength])
    rw [hu]
    simp
  · simp [hkind]

/-- Tokens that lie in the front of a text, and the outcome that they lead to: there is nothing
behind them, or something that is no token. -/
theorem Scans.exists_lies (h : Scans rounds position cs outcome) :
    ∃ tokens front rest, cs = front ++ rest ∧ Lies position tokens front ∧
      (rest = [] ∧ outcome = .ok tokens ∨
        rest ≠ [] ∧ firstToken? rest = none ∧ outcome =
          .error (.malformed (.unrecognized (fragment rest) (position + utf8Length front)))) := by
  induction h with
  | finish => exact ⟨[], [], [], rfl, .nil (by simp), .inl ⟨rfl, rfl⟩⟩
  | @stop position cs hne h =>
      exact ⟨[], [], cs, rfl, .nil (by simp), .inr ⟨hne, h, rfl⟩⟩
  | @blank rounds position n cs outcome h _ ih =>
      obtain ⟨tokens, front, rest, hsplit, hlies, hcases⟩ := ih
      refine ⟨tokens, cs.take n ++ front, rest, ?_,
        hlies.blank_append (isAsciiBlank_of_mem_take h), ?_⟩
      · rw [List.append_assoc, ← hsplit, List.take_append_drop]
      · rwa [utf8Length_append, ← Nat.add_assoc]
  | @token rounds position n cs outcome kind _ h _ ih =>
      obtain ⟨tokens, front, rest, hsplit, hlies, hcases⟩ := ih
      have hsource := source_of_firstToken? h position
      have hne : cs.take n ≠ [] := fun hnil => by
        have hlt := length_drop_lt h
        rw [List.take_eq_nil_iff] at hnil
        rcases hnil with rfl | rfl
        · exact Nat.lt_irrefl _ hlt
        · cases hlt
      refine ⟨⟨kind, tokenText kind (cs.take n), position⟩ :: tokens, cs.take n ++ front, rest,
        ?_, ?_, ?_⟩
      · rw [List.append_assoc, ← hsplit, List.take_append_drop]
      · rw [← hsource] at hne hlies
        have hmore := Lies.cons (List.forall_mem_nil _) rfl hne hlies
        rwa [hsource] at hmore
      · rw [utf8Length_append, ← Nat.add_assoc]
        rcases hcases with ⟨hnil, rfl⟩ | ⟨hrest, hnone, rfl⟩
        · exact .inl ⟨hnil, rfl⟩
        · exact .inr ⟨hrest, hnone, rfl⟩

theorem fragment_prefix (cs : List Char) : (fragment cs).toList <+: cs := by
  rw [fragment, String.toList_ofList]
  exact (List.take_prefix _ _).trans (List.takeWhile_prefix _)

theorem isBlank_of_mem_fragment {c : Char} (h : c ∈ (fragment cs).toList) : isBlank c = false := by
  rw [fragment, String.toList_ofList] at h
  simpa using List.all_eq_true.1 List.all_takeWhile c (List.mem_of_mem_take h)

/-- Tokenizing comes to an end and loses nothing.  The tokens lie in the text one behind the other,
at the positions they have.  If it fails, such tokens lie in the text up to the place of the error,
whose target stands there. -/
theorem tokenize_lies (input : String) :
    (∃ rounds ≤ input.toList.length, Scans rounds 0 input.toList (tokenize input)) ∧
      ((∃ tokens, tokenize input = .ok tokens ∧ Lies 0 tokens input.toList ∧
          (tokens.Pairwise fun a b => a.position < b.position) ∧
          ∀ token ∈ tokens, String.Pos.Raw.IsValid input ⟨token.position⟩) ∨
        ∃ e tokens front rest target, tokenize input = .error e ∧
          input.toList = front ++ rest ∧ Lies 0 tokens front ∧ e.report.kind = .malformed ∧
          e.report.position = some (utf8Length front) ∧ e.report.target = some target ∧
          target.toList <+: rest ∧ ∀ c ∈ target.toList, isBlank c = false) := by
  obtain ⟨rounds, hrounds, hscans⟩ := exists_scans 0 input.toList
  refine ⟨⟨rounds, hrounds, hscans⟩, ?_⟩
  obtain ⟨tokens, front, rest, hsplit, hlies, ⟨rfl, hok⟩ | ⟨-, -, herror⟩⟩ := hscans.exists_lies
  · rw [List.append_nil] at hsplit
    rw [← hsplit] at hlies
    exact .inl ⟨tokens, hok, hlies, hlies.ascending, fun token => hlies.isValid⟩
  · rw [Nat.zero_add] at herror
    exact .inr ⟨_, tokens, front, rest, fragment rest, herror, hsplit, hlies, rfl, rfl, rfl,
      fragment_prefix rest, fun c => isBlank_of_mem_fragment⟩

end EntityQuery.Filter
