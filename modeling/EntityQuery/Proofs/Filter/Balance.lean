import EntityQuery.Proofs.Filter.Groups
import EntityQuery.Proofs.Filter.Layout
import EntityQuery.Proofs.Result

/-!
# Balanced parentheses

Parentheses are balanced if no part at the front of the tokens closes more of them than it opens,
and all of the tokens close as many as they open.  Behind parentheses that are open already, this is
`BalancedFrom`: their number counts with those that are opened.  One token more or less in front
moves that number as the readers count it (`balancedFrom_cons`), and everything else follows by
induction on the tokens: the check finds exactly the balanced ones (`checkBalance_eq_ok_iff`),
cutting them outside of all parentheses leaves balanced pieces, and every group comes to its end.

Behind the name of a function or a lambda there is always a parenthesis that opens.
-/

namespace EntityQuery.Filter

variable {depth : Nat} {tokens inside after rest : List Token} {token opening : Token}
  {opened : List Nat} {isCut : Token → Bool}

/-- How many parentheses are opened. -/
def openings (tokens : List Token) : Nat := tokens.countP fun token => token.kind == .openParen

/-- How many parentheses are closed. -/
def closings (tokens : List Token) : Nat := tokens.countP fun token => token.kind == .closeParen

/-- Behind so many open parentheses, none is closed that is not open, and none is left open. -/
structure BalancedFrom (depth : Nat) (tokens : List Token) : Prop where
  enough : ∀ front, front <+: tokens → closings front ≤ depth + openings front
  total : depth + openings tokens = closings tokens

/-- Every part at the front has at least as many opening parentheses as closing ones, and all of the
tokens have as many of them. -/
abbrev Balanced (tokens : List Token) : Prop := BalancedFrom 0 tokens

/-! ## Token by token -/

theorem balancedFrom_nil : BalancedFrom depth [] ↔ depth = 0 := by
  constructor
  · intro h
    exact h.total
  · rintro rfl
    refine ⟨fun front hfront => ?_, rfl⟩
    rw [List.prefix_nil.1 hfront]
    exact Nat.zero_le _

/-- The depth counts the open parentheses as long as only open ones are closed. -/
theorem depthAfter_add (h : token.kind = .closeParen → 0 < depth) :
    depthAfter depth token + closings [token] = depth + openings [token] := by
  by_cases hopen : token.kind = .openParen
  · rw [depthAfter_of_openParen hopen]
    simp [openings, closings, hopen]
  by_cases hclose : token.kind = .closeParen
  · have hpos := h hclose
    rw [depthAfter_of_closeParen hclose]
    simp only [openings, closings, List.countP_singleton, hclose]
    simp
    omega
  · rw [depthAfter_of_ne hopen hclose]
    simp [openings, closings, hopen, hclose]

theorem depthAfter_succ (h : token.kind = .closeParen → 0 < depth) :
    depthAfter (depth + 1) token = depthAfter depth token + 1 := by
  have hadd := depthAfter_add h
  have hsucc : depthAfter (depth + 1) token + closings [token] = depth + 1 + openings [token] :=
    depthAfter_add fun _ => depth.succ_pos
  omega

theorem openings_cons (token : Token) (tokens : List Token) :
    openings (token :: tokens) = openings [token] + openings tokens := by
  unfold openings
  rw [← List.singleton_append, List.countP_append]

theorem closings_cons (token : Token) (tokens : List Token) :
    closings (token :: tokens) = closings [token] + closings tokens := by
  unfold closings
  rw [← List.singleton_append, List.countP_append]

/-- A token in front closes nothing that is not open, and moves the number of open parentheses. -/
theorem balancedFrom_cons : BalancedFrom depth (token :: rest) ↔
    (token.kind = .closeParen → 0 < depth) ∧ BalancedFrom (depthAfter depth token) rest := by
  constructor
  · intro h
    have hclose : token.kind = .closeParen → 0 < depth := by
      intro hkind
      have hle := h.enough [token] ⟨rest, rfl⟩
      simp only [closings, openings, List.countP_singleton, hkind] at hle
      simp at hle
      omega
    have hdepth := depthAfter_add hclose
    refine ⟨hclose, fun front hfront => ?_, ?_⟩
    · have hle := h.enough (token :: front) ((List.prefix_cons_inj token).2 hfront)
      rw [openings_cons, closings_cons] at hle
      omega
    · have htotal := h.total
      rw [openings_cons, closings_cons] at htotal
      omega
  · rintro ⟨hclose, h⟩
    have hdepth := depthAfter_add hclose
    refine ⟨fun front hfront => ?_, ?_⟩
    · rcases List.prefix_cons_iff.1 hfront with rfl | ⟨others, rfl, hothers⟩
      · exact Nat.zero_le _
      · have hle := h.enough others hothers
        rw [openings_cons, closings_cons]
        omega
    · have htotal := h.total
      rw [openings_cons, closings_cons]
      omega

/-- The check succeeds exactly for balanced parentheses. -/
theorem checkBalance_eq_ok_iff {stop : Nat} :
    checkBalance stop opened tokens = .ok () ↔ BalancedFrom opened.length tokens := by
  induction tokens generalizing opened with
  | nil =>
      rw [balancedFrom_nil, List.length_eq_zero_iff]
      cases opened <;> simp [checkBalance]
  | cons token rest ih =>
      rw [balancedFrom_cons]
      by_cases hopen : token.kind = .openParen
      · rw [depthAfter_of_openParen hopen]
        simp [checkBalance, hopen, ih]
      by_cases hclose : token.kind = .closeParen
      · rw [depthAfter_of_closeParen hclose]
        cases opened <;> simp [checkBalance, hclose, ih]
      · rw [depthAfter_of_ne hopen hclose, checkBalance_of_ne hopen hclose]
        simp [ih, hclose]

/-! ## Cutting -/

/-- Cutting does not take a parenthesis away. -/
def SparesParens (isCut : Token → Bool) : Prop :=
  ∀ token, isCut token = true → token.kind ≠ .openParen ∧ token.kind ≠ .closeParen

theorem BalancedFrom.splitOutside (h : BalancedFrom depth tokens) (hcuts : SparesParens isCut) :
    BalancedFrom depth (splitOutside isCut depth tokens).1 ∧
      ∀ piece ∈ (splitOutside isCut depth tokens).2, Balanced piece.2 := by
  induction tokens generalizing depth with
  | nil => exact ⟨h, nofun⟩
  | cons token rest ih =>
      obtain ⟨hclose, hrest⟩ := balancedFrom_cons.1 h
      rw [Filter.splitOutside]
      split
      · rename_i hcut
        simp only [Bool.and_eq_true, beq_iff_eq] at hcut
        obtain ⟨rfl, hcut⟩ := hcut
        rw [depthAfter_of_ne (hcuts token hcut).1 (hcuts token hcut).2] at hrest
        obtain ⟨hfirst, hmore⟩ := ih hrest
        exact ⟨balancedFrom_nil.2 rfl, List.forall_mem_cons.2 ⟨hfirst, hmore⟩⟩
      · obtain ⟨hfirst, hmore⟩ := ih hrest
        exact ⟨balancedFrom_cons.2 ⟨hclose, hfirst⟩, hmore⟩

/-- Every group that is open comes to its end. -/
theorem BalancedFrom.untilClose? (h : BalancedFrom (depth + 1) tokens) :
    ∃ inside after, untilClose? depth tokens = some (inside, after) ∧
      BalancedFrom depth inside ∧ Balanced after := by
  induction tokens generalizing depth with
  | nil => cases balancedFrom_nil.1 h
  | cons token rest ih =>
      obtain ⟨-, hrest⟩ := balancedFrom_cons.1 h
      -- Only the parenthesis that closes the group itself closes none inside it.
      by_cases hend : token.kind = .closeParen → 0 < depth
      · rw [depthAfter_succ hend] at hrest
        obtain ⟨inside, after, hfound, hinside, hafter⟩ := ih hrest
        rw [untilClose?_of_inside hend, hfound]
        exact ⟨token :: inside, after, rfl, balancedFrom_cons.2 ⟨hend, hinside⟩, hafter⟩
      · obtain ⟨hclose, rfl⟩ := end_of_not_inside hend
        rw [depthAfter_of_closeParen hclose] at hrest
        exact ⟨[], rest, untilClose?_of_end hclose, balancedFrom_nil.2 rfl, hrest⟩

theorem Balanced.exists_group (h : Balanced (opening :: rest))
    (hopening : opening.kind = .openParen) :
    ∃ inside after, takeGroup opening rest = .ok (inside, after) ∧
      Balanced inside ∧ Balanced after := by
  obtain ⟨-, hrest⟩ := balancedFrom_cons.1 h
  rw [depthAfter_of_openParen hopening] at hrest
  obtain ⟨inside, after, hfound, hinside, hafter⟩ := hrest.untilClose?
  refine ⟨inside, after, ?_, hinside, hafter⟩
  rw [Filter.takeGroup, hopening, hfound]
  rfl

/-! ## Behind names -/

/-- Behind the name of a function or a lambda there is a parenthesis that opens. -/
def Followed (tokens : List Token) : Prop :=
  ∀ front token rest, tokens = front ++ token :: rest →
    token.kind = .functionName ∨ token.kind = .lambda →
    ∃ opening more, rest = opening :: more ∧ opening.kind = .openParen

theorem followed_nil : Followed [] := by
  intro front token rest heq
  simp at heq

theorem followed_cons : Followed (token :: rest) ↔
    (token.kind = .functionName ∨ token.kind = .lambda →
      ∃ opening more, rest = opening :: more ∧ opening.kind = .openParen) ∧ Followed rest := by
  constructor
  · intro h
    refine ⟨h [] token rest rfl, fun front other behind heq => ?_⟩
    exact h (token :: front) other behind (congrArg (token :: ·) heq)
  · rintro ⟨hfirst, hrest⟩ front other behind heq
    cases front with
    | nil =>
        obtain ⟨rfl, rfl⟩ := List.cons.inj heq
        exact hfirst
    | cons _ front => exact hrest front other behind (List.cons.inj heq).2

/-- A slice may end at every token that is no parenthesis that opens. -/
theorem Followed.of_append (front back : List Token) {slice : List Token}
    (h : Followed (front ++ (slice ++ back)))
    (hback : ∀ token ∈ back.head?, token.kind ≠ .openParen) : Followed slice := by
  rintro before token behind rfl hname
  obtain ⟨opening, more, hbehind, hopening⟩ := h (front ++ before) token (behind ++ back)
    (by simp) hname
  cases behind with
  | nil =>
      obtain rfl : back = opening :: more := hbehind
      exact absurd hopening (hback opening rfl)
  | cons next behind => exact ⟨next, behind, rfl, (List.cons.inj hbehind).1 ▸ hopening⟩

theorem Followed.splitOutside (h : Followed tokens) (hcuts : SparesParens isCut) (depth : Nat) :
    Followed (splitOutside isCut depth tokens).1 ∧
      ∀ piece ∈ (splitOutside isCut depth tokens).2, Followed piece.2 := by
  induction tokens generalizing depth with
  | nil => exact ⟨followed_nil, nofun⟩
  | cons token rest ih =>
      obtain ⟨hname, hrest⟩ := followed_cons.1 h
      rw [Filter.splitOutside]
      split
      · obtain ⟨hfirst, hmore⟩ := ih hrest 0
        exact ⟨followed_nil, List.forall_mem_cons.2 ⟨hfirst, hmore⟩⟩
      · obtain ⟨hfirst, hmore⟩ := ih hrest (depthAfter depth token)
        refine ⟨followed_cons.2 ⟨fun hkind => ?_, hfirst⟩, hmore⟩
        obtain ⟨opening, behind, rfl, hopening⟩ := hname hkind
        -- What follows the name is no place to cut at, so it stays in the piece.
        have hstays : isCut opening = false := by
          rw [Bool.eq_false_iff]
          exact fun hcut => (hcuts opening hcut).1 hopening
        rw [Filter.splitOutside, hstays, Bool.and_false]
        exact ⟨opening, _, rfl, hopening⟩

/-- What follows the name of a function or a lambda in a text is a parenthesis that opens. -/
theorem exists_cons_of_name {kind : TokenKind} {cs : List Char} {n : Nat}
    (h : firstToken? cs = some (kind, n)) (hkind : kind = .functionName ∨ kind = .lambda) :
    ∃ rest, cs.drop n = '(' :: rest := by
  obtain ⟨rule, hrule, rfl, -, -, haccepts⟩ := exists_rule h
  have hfollow : rule.follow = .openParen := by
    revert hkind
    revert rule
    simp [tokenRules]
  rw [hfollow] at haccepts
  cases hdrop : cs.drop n with
  | nil =>
      rw [hdrop] at haccepts
      cases haccepts
  | cons c rest =>
      rw [hdrop] at haccepts
      exact ⟨rest, congrArg (· :: rest) (beq_iff_eq.1 haccepts)⟩

/-- The first token of a text that begins with a parenthesis is this parenthesis. -/
theorem Scans.exists_opening {rounds position : Nat} {cs : List Char}
    {outcome : Except QueryError (List Token)} (h : Scans rounds position ('(' :: cs) outcome)
    (hok : outcome = .ok tokens) :
    ∃ opening more, tokens = opening :: more ∧ opening.kind = .openParen := by
  generalize hopening : '(' :: cs = text at h
  cases h with
  | finish => cases hopening
  | stop => cases hok
  | blank hfirst =>
      rw [← hopening, firstToken?_openParen] at hfirst
      cases hfirst
  | token hkind hfirst hrest =>
      rw [← hopening, firstToken?_openParen] at hfirst
      obtain ⟨rfl, rfl⟩ := Prod.mk.inj (Option.some.inj hfirst)
      obtain ⟨more, -, rfl⟩ := map_eq_ok.1 hok
      exact ⟨_, more, rfl, rfl⟩

theorem Scans.followed {rounds position : Nat} {cs : List Char}
    {outcome : Except QueryError (List Token)} (h : Scans rounds position cs outcome)
    (hok : outcome = .ok tokens) : Followed tokens := by
  induction h generalizing tokens with
  | finish =>
      obtain rfl := Except.ok.inj hok
      exact followed_nil
  | stop => cases hok
  | blank _ _ ih => exact ih hok
  | token hkind hfirst hrest ih =>
      obtain ⟨rest, houtcome, rfl⟩ := map_eq_ok.1 hok
      refine followed_cons.2 ⟨fun hname => ?_, ih houtcome⟩
      obtain ⟨cs, hcs⟩ := exists_cons_of_name hfirst hname
      rw [hcs] at hrest
      exact hrest.exists_opening houtcome

theorem followed_of_tokenize {input : String} (h : tokenize input = .ok tokens) :
    Followed tokens := by
  obtain ⟨rounds, -, hscans⟩ := exists_scans 0 input.toList
  exact hscans.followed h

end EntityQuery.Filter
