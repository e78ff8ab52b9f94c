import EntityQuery.Filter.Parser

/-!
# Groups in parentheses

What the readers make of token lists in which every parenthesis has its partner.  Such a list is
passed over as a whole: the search for the end of a group goes on behind it, no cut falls into it,
and it does not change which parentheses are open.

Taking a group and cutting at tokens loses nothing: the pieces make up the list again.
-/

namespace EntityQuery.Filter

variable {depth : Nat} {tokens inside after rest : List Token} {token : Token}

/-! ## Token by token -/

theorem checkBalance_of_ne (hopen : token.kind ≠ .openParen) (hclose : token.kind ≠ .closeParen)
    (stop : Nat) (opened : List Nat) :
    checkBalance stop opened (token :: rest) = checkBalance stop opened rest := by
  rw [checkBalance.eq_def]
  dsimp only
  split
  · exact absurd ‹_› hopen
  · exact absurd ‹_› hclose
  · rfl

theorem depthAfter_of_openParen (h : token.kind = .openParen) :
    depthAfter depth token = depth + 1 := by
  rw [depthAfter, h]

theorem depthAfter_of_closeParen (h : token.kind = .closeParen) :
    depthAfter depth token = depth - 1 := by
  rw [depthAfter, h]

theorem depthAfter_of_ne (hopen : token.kind ≠ .openParen) (hclose : token.kind ≠ .closeParen) :
    depthAfter depth token = depth := by
  unfold depthAfter
  split
  · exact absurd ‹_› hopen
  · exact absurd ‹_› hclose
  · rfl

/-- The group ends at a parenthesis that closes none inside it. -/
theorem untilClose?_of_end (h : token.kind = .closeParen) :
    untilClose? 0 (token :: rest) = some ([], rest) := by
  rw [untilClose?.eq_def]
  simp only [h]

theorem untilClose?_of_inside (h : token.kind = .closeParen → 0 < depth) :
    untilClose? depth (token :: rest) =
      (untilClose? (depthAfter depth token) rest).map fun parts => (token :: parts.1, parts.2) := by
  rw [untilClose?.eq_def]
  dsimp only
  split
  · rename_i hopen
    rw [depthAfter_of_openParen hopen]
  · rename_i hclose
    exact absurd (h hclose) (Nat.lt_irrefl 0)
  · rename_i depth hclose
    rw [depthAfter_of_closeParen hclose, Nat.succ_sub_one]
  · rename_i hopen hzero hsucc
    have hclose : token.kind ≠ .closeParen := by
      intro hclose
      exact hsucc _ hclose (Nat.succ_pred (Nat.ne_of_gt (h hclose))).symm
    rw [depthAfter_of_ne hopen hclose]

theorem end_of_not_inside (h : ¬(token.kind = .closeParen → 0 < depth)) :
    token.kind = .closeParen ∧ depth = 0 := by
  obtain ⟨hclose, hdepth⟩ := Classical.not_imp.1 h
  exact ⟨hclose, Nat.eq_zero_of_not_pos hdepth⟩

/-! ## Partners -/

/-- Tokens in which every parenthesis has its partner.  Outside of all parentheses, unless that is
inside of others (`deep`), there are no commas and no logical operators. -/
inductive Enclosed : Bool → List Token → Prop
  | nil {deep : Bool} : Enclosed deep []
  | token {deep : Bool} {token : Token} {rest : List Token} (hopen : token.kind ≠ .openParen)
      (hclose : token.kind ≠ .closeParen)
      (hcut : deep = true ∨ token.kind.isLogical = false ∧ token.kind ≠ .comma)
      (hrest : Enclosed deep rest) : Enclosed deep (token :: rest)
  | group {deep : Bool} {opening closing : Token} {inside rest : List Token}
      (hopening : opening.kind = .openParen) (hclosing : closing.kind = .closeParen)
      (hinside : Enclosed true inside) (hrest : Enclosed deep rest) :
      Enclosed deep (opening :: (inside ++ closing :: rest))

namespace Enclosed

variable {deep : Bool} {more : List Token}

theorem append (h : Enclosed deep tokens) (hmore : Enclosed deep more) :
    Enclosed deep (tokens ++ more) := by
  induction h with
  | nil => exact hmore
  | token hopen hclose hcut _ ih => exact .token hopen hclose hcut (ih hmore)
  | group hopening hclosing hinside _ _ ih =>
      rw [List.cons_append, List.append_assoc, List.cons_append]
      exact .group hopening hclosing hinside (ih hmore)

theorem deepen (h : Enclosed deep tokens) : Enclosed true tokens := by
  induction h with
  | nil => exact .nil
  | token hopen hclose _ _ ih => exact .token hopen hclose (.inl rfl) ih
  | group hopening hclosing hinside _ _ ih => exact .group hopening hclosing hinside ih

/-- The end of a group is found behind the tokens. -/
theorem untilClose?_append (h : Enclosed deep tokens) (depth : Nat) (rest : List Token) :
    untilClose? depth (tokens ++ rest)
      = (untilClose? depth rest).map fun parts => (tokens ++ parts.1, parts.2) := by
  induction h generalizing depth rest with
  | nil => simp
  | @token _ token tokens hopen hclose _ _ ih =>
      rw [List.cons_append, untilClose?_of_inside (absurd · hclose), depthAfter_of_ne hopen hclose,
        ih, Option.map_map]
      rfl
  | @group _ opening closing inside tokens hopening hclosing _ _ ihinside ih =>
      rw [List.cons_append, List.append_assoc, List.cons_append,
        untilClose?_of_inside (by rw [hopening]; nofun), depthAfter_of_openParen hopening, ihinside,
        untilClose?_of_inside (fun _ => depth.succ_pos), depthAfter_of_closeParen hclosing,
        Nat.succ_sub_one, ih]
      simp only [Option.map_map]
      congr 1
      funext parts
      simp

/-- No cut falls into the tokens. -/
theorem splitOutside_append {isCut : Token → Bool} (h : Enclosed deep tokens)
    (hcuts : ∀ token, isCut token = true → token.kind.isLogical = true ∨ token.kind = .comma)
    {depth : Nat} (hdepth : deep = true → 0 < depth) (rest : List Token) :
    splitOutside isCut depth (tokens ++ rest)
      = (tokens ++ (splitOutside isCut depth rest).1, (splitOutside isCut depth rest).2) := by
  have hparen (token : Token) (hkind : token.kind = .openParen ∨ token.kind = .closeParen) :
      isCut token = false := by
    rw [Bool.eq_false_iff]
    intro hcut
    rcases hcuts token hcut with hlogical | hcomma
    · rcases hkind with hkind | hkind <;> rw [hkind] at hlogical <;> cases hlogical
    · rcases hkind with hkind | hkind <;> rw [hkind] at hcomma <;> cases hcomma
  induction h generalizing depth rest with
  | nil => rfl
  | @token deep token tokens hopen hclose hcut _ ih =>
      have hkeep : ¬(depth == 0 && isCut token) = true := by
        intro hboth
        simp only [Bool.and_eq_true, beq_iff_eq] at hboth
        rcases hcut with hdeep | ⟨hlogical, hcomma⟩
        · exact absurd (hdepth hdeep) (by omega)
        · rcases hcuts token hboth.2 with hcut | hcut
          · rw [hlogical] at hcut
            cases hcut
          · exact hcomma hcut
      rw [List.cons_append, splitOutside, if_neg hkeep, depthAfter_of_ne hopen hclose,
        ih hdepth]
      rfl
  | @group deep opening closing inside tokens hopening hclosing _ _ ihinside ih =>
      have hopen : isCut opening = false := hparen opening (.inl hopening)
      have hclose : isCut closing = false := hparen closing (.inr hclosing)
      rw [List.cons_append, List.append_assoc, List.cons_append, splitOutside, hopen,
        Bool.and_false, if_neg (by decide), depthAfter_of_openParen hopening,
        ihinside (fun _ => Nat.succ_pos _), splitOutside, hclose, Bool.and_false,
        if_neg (by decide), depthAfter_of_closeParen hclosing, Nat.succ_sub_one, ih hdepth]
      simp

/-- The open parentheses are the same behind the tokens. -/
theorem checkBalance_append (h : Enclosed deep tokens) (stop : Nat) (opened : List Nat)
    (rest : List Token) :
    checkBalance stop opened (tokens ++ rest) = checkBalance stop opened rest := by
  induction h generalizing opened rest with
  | nil => rfl
  | @token deep token tokens hopen hclose _ _ ih =>
      rw [List.cons_append, checkBalance_of_ne hopen hclose, ih]
  | @group deep opening closing inside tokens hopening hclosing _ _ ihinside ih =>
      rw [List.cons_append, List.append_assoc, List.cons_append, checkBalance.eq_def]
      simp only [hopening]
      rw [ihinside, checkBalance.eq_def]
      simp only [hclosing]
      exact ih opened rest

end Enclosed

/-! ## Cutting token lists -/

theorem untilClose?_eq_some (h : untilClose? depth tokens = some (inside, after)) :
    ∃ close : Token, close.kind = .closeParen ∧ tokens = inside ++ close :: after := by
  induction tokens generalizing depth inside after with
  | nil => cases h
  | cons token rest ih =>
      by_cases hend : token.kind = .closeParen → 0 < depth
      · rw [untilClose?_of_inside hend] at h
        obtain ⟨⟨inner, behind⟩, hinner, heq⟩ := Option.map_eq_some_iff.1 h
        obtain ⟨rfl, rfl⟩ := Prod.mk.inj heq
        obtain ⟨close, hclose, rfl⟩ := ih hinner
        exact ⟨close, hclose, rfl⟩
      · obtain ⟨hclose, rfl⟩ := end_of_not_inside hend
        rw [untilClose?_of_end hclose] at h
        obtain ⟨rfl, rfl⟩ := Prod.mk.inj (Option.some.inj h)
        exact ⟨token, hclose, rfl⟩

/-- Tokens in which so many parentheses are open, and every other one has its partner. -/
inductive Opened : Nat → List Token → Prop
  | enclosed {tokens : List Token} (h : Enclosed true tokens) : Opened 0 tokens
  | opening {depth : Nat} {front tokens : List Token} {token : Token} (hfront : Opened depth front)
      (hkind : token.kind = .openParen) (h : Enclosed true tokens) :
      Opened (depth + 1) (front ++ token :: tokens)

theorem Opened.append {depth : Nat} {front : List Token} (h : Opened depth front)
    (htokens : Enclosed true tokens) : Opened depth (front ++ tokens) := by
  cases h with
  | enclosed h => exact .enclosed (h.append htokens)
  | opening hfront hkind h =>
      rw [List.append_assoc]
      exact .opening hfront hkind (h.append htokens)

/-- A token more, which does not close what is not open. -/
theorem Opened.concat {front : List Token} (h : Opened depth front)
    (hinside : token.kind = .closeParen → 0 < depth) :
    Opened (depthAfter depth token) (front ++ [token]) := by
  by_cases hopen : token.kind = .openParen
  · rw [depthAfter_of_openParen hopen]
    exact .opening h hopen .nil
  by_cases hclose : token.kind = .closeParen
  · rw [depthAfter_of_closeParen hclose]
    cases h with
    | enclosed h => exact absurd (hinside hclose) (Nat.lt_irrefl 0)
    | opening hfront hopening h =>
        rw [List.append_assoc]
        exact hfront.append (.group hopening hclose h .nil)
  · rw [depthAfter_of_ne hopen hclose]
    exact h.append (.token hopen hclose (.inl rfl) .nil)

/-- Behind open parentheses, the search for the end of a group closes them all. -/
theorem Opened.enclosed_append {front : List Token} (h : Opened depth front)
    (hfound : untilClose? depth tokens = some (inside, after)) :
    Enclosed true (front ++ inside) := by
  induction tokens generalizing depth front inside with
  | nil => cases hfound
  | cons token tokens ih =>
      by_cases hend : token.kind = .closeParen → 0 < depth
      · rw [untilClose?_of_inside hend] at hfound
        obtain ⟨⟨inner, behind⟩, hinner, heq⟩ := Option.map_eq_some_iff.1 hfound
        obtain ⟨rfl, rfl⟩ := Prod.mk.inj heq
        rw [List.append_cons]
        exact ih (h.concat hend) hinner
      · obtain ⟨hclose, rfl⟩ := end_of_not_inside hend
        rw [untilClose?_of_end hclose] at hfound
        obtain ⟨rfl, rfl⟩ := Prod.mk.inj (Option.some.inj hfound)
        rw [List.append_nil]
        cases h with
        | enclosed h => exact h

theorem takeGroup_eq_ok {opening : Token} (h : takeGroup opening tokens = .ok (inside, after)) :
    opening.kind = .openParen ∧
      ∃ close : Token, close.kind = .closeParen ∧ tokens = inside ++ close :: after := by
  unfold takeGroup at h
  split at h
  · cases h
  · rename_i hkind
    split at h
    · rename_i parts hparts
      obtain rfl := Except.ok.inj h
      exact ⟨by simpa using hkind, untilClose?_eq_some hparts⟩
    · cases h

theorem enclosed_of_takeGroup {opening : Token}
    (h : takeGroup opening tokens = .ok (inside, after)) : Enclosed true inside := by
  unfold takeGroup at h
  split at h
  · cases h
  · split at h
    · rename_i parts hparts
      obtain rfl := Except.ok.inj h
      exact (Opened.enclosed .nil).enclosed_append hparts
    · cases h

theorem takeGroup_of_enclosed {opening closing : Token}
    (hopening : opening.kind = .openParen) (hclosing : closing.kind = .closeParen)
    (hinside : Enclosed true inside) (after : List Token) :
    takeGroup opening (inside ++ closing :: after) = .ok (inside, after) := by
  rw [takeGroup, if_neg (by simp [hopening]), hinside.untilClose?_append]
  simp [untilClose?, hclosing]

/-- The tokens of pieces that come with the token before them. -/
def joined (pieces : List (Token × List Token)) : List Token :=
  pieces.flatMap fun piece => piece.1 :: piece.2

theorem splitOutside_eq (isCut : Token → Bool) (depth : Nat) (tokens : List Token) :
    tokens = (splitOutside isCut depth tokens).1 ++ joined (splitOutside isCut depth tokens).2 ∧
      ∀ piece ∈ (splitOutside isCut depth tokens).2, isCut piece.1 = true := by
  induction tokens generalizing depth with
  | nil => exact ⟨rfl, by simp [splitOutside]⟩
  | cons token rest ih =>
      rw [splitOutside]
      split
      · rename_i hcut
        obtain ⟨hrest, hcuts⟩ := ih 0
        simp only [Bool.and_eq_true] at hcut
        refine ⟨?_, ?_⟩
        · simp only [joined, List.flatMap_cons, List.nil_append, List.cons_append] at hrest ⊢
          rw [← hrest]
        · intro piece hpiece
          rcases List.mem_cons.1 hpiece with rfl | hpiece
          · exact hcut.2
          · exact hcuts piece hpiece
      · obtain ⟨hrest, hcuts⟩ := ih (depthAfter depth token)
        refine ⟨?_, hcuts⟩
        simp only [List.cons_append]
        rw [← hrest]

end EntityQuery.Filter
