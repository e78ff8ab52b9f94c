import EntityQuery.Expression.Operator
import EntityQuery.Proofs.Filter.Rules

/-!
# Tokens that read the same elsewhere

A token that was read in front of one text has to be read again in front of another one when the
expression around it is printed.  `Spelled kind t` says that `t` is a token of its kind wherever a
printed filter may put an operand: at the end, or in front of a blank, a closing parenthesis or a
comma.

Whether this holds is a matter of the rules that are tried before the right one.  They do not see
what stands behind the token, with one exception: the words of operators ask for a blank behind
them.  A path or a literal that is not such a word is therefore spelled.
-/

namespace EntityQuery.Filter

/-- The words that are operators if a blank stands behind them. -/
def reservedWords : List String := "not" :: BinaryOperator.all.map BinaryOperator.keyword

/-- Nothing stands behind a token, or a delimiter. -/
def Delimited (rest : List Char) : Prop := ∀ d ∈ rest.head?, d ∈ delimiters

theorem delimited_nil : Delimited [] := by simp [Delimited]

theorem Delimited.mem_breaks {rest : List Char} (h : Delimited rest) :
    ∀ d ∈ rest.head?, d ∈ breaks :=
  fun d hd => List.mem_cons_of_mem _ (h d hd)

/-- A text that is a token of a kind at the end and in front of every delimiter. -/
def Spelled (kind : TokenKind) (t : List Char) : Prop :=
  ∀ rest, Delimited rest → firstToken? (t ++ rest) = some (kind, t.length)

variable {kind : TokenKind} {rule : TokenRule} {cs t r s : List Char} {n : Nat}

/-! ## One rule in front of two texts -/

@[simp]
theorem Follow.accepts_anything (cs : List Char) : Follow.anything.accepts cs = true := by
  cases cs <;> rfl

theorem Follow.accepts_congr (follow : Follow) (h : r.head? = s.head?) :
    follow.accepts r = follow.accepts s := by
  cases r <;> cases s
  · rfl
  · cases h
  · cases h
  · obtain rfl := Option.some.inj h
    rfl

theorem TokenRule.length?_congr (hscan : rule.scan (t ++ r) = rule.scan (t ++ s))
    (hbound : ∀ n, rule.scan (t ++ s) = some n → n ≤ t.length)
    (hfollow : rule.scan (t ++ s) = some t.length → rule.follow.accepts r = rule.follow.accepts s) :
    rule.length? (t ++ r) = rule.length? (t ++ s) := by
  rw [TokenRule.length?, TokenRule.length?, hscan]
  cases hn : rule.scan (t ++ s) with
  | none => rfl
  | some n =>
      have hle : n ≤ t.length := hbound n hn
      have haccepts : rule.follow.accepts ((t ++ r).drop n)
          = rule.follow.accepts ((t ++ s).drop n) := by
        rw [List.drop_append_of_le_length hle, List.drop_append_of_le_length hle]
        -- The first character behind what is taken is one of the token, or the first one behind it.
        rcases Nat.lt_or_eq_of_le hle with hlt | heq
        · apply Follow.accepts_congr
          rw [List.drop_eq_getElem_cons hlt]
          rfl
        · rw [heq, List.drop_length]
          exact hfollow (heq ▸ hn)
      simp only [Option.filter, haccepts]

theorem firstToken?_congr (h : ∀ rule ∈ tokenRules, rule.length? cs = rule.length? t) :
    firstToken? cs = firstToken? t := by
  unfold firstToken?
  generalize tokenRules = rules at h
  induction rules with
  | nil => rfl
  | cons rule rules ih =>
      rw [List.findSome?_cons, List.findSome?_cons, h rule (by simp),
        ih fun other hother => h other (by simp [hother])]

/-! ## The rule behind a token -/

theorem exists_rule (h : firstToken? cs = some (kind, n)) :
    ∃ rule ∈ tokenRules, rule.kind = kind ∧ rule.scan cs = some n ∧ 0 < n ∧
      rule.follow.accepts (cs.drop n) = true := by
  obtain ⟨rule, hrule, hlength⟩ := List.exists_of_findSome?_eq_some h
  obtain ⟨m, hm, heq⟩ := Option.map_eq_some_iff.1 hlength
  obtain ⟨rfl, rfl⟩ := Prod.mk.inj heq
  obtain ⟨hscan, haccepts⟩ := Option.filter_eq_some_iff.1 hm
  simp only [Bool.and_eq_true, decide_eq_true_eq] at haccepts
  exact ⟨rule, hrule, rfl, hscan, haccepts.1, haccepts.2⟩

theorem find?_rule : ∀ rule ∈ tokenRules,
    tokenRules.find? (fun other => other.kind == rule.kind) = some rule := by
  simp [tokenRules]

/-- Every kind of token has one rule. -/
theorem scan_of_firstToken? (rule : TokenRule) (hrule : rule ∈ tokenRules)
    (h : firstToken? cs = some (rule.kind, n)) : rule.scan cs = some n := by
  obtain ⟨other, hother, hkind, hscan, -⟩ := exists_rule h
  have hfind := find?_rule other hother
  rw [hkind, find?_rule rule hrule] at hfind
  rw [Option.some.inj hfind]
  exact hscan

theorem length?_eq_none_of_take {i : Nat} (h : firstToken? cs = some (kind, n))
    (hkind : ∀ rule ∈ tokenRules.take i, rule.kind ≠ kind) :
    ∀ rule ∈ tokenRules.take i, rule.length? cs = none := by
  intro rule hrule
  rw [firstToken?, ← List.take_append_drop i tokenRules, List.findSome?_append,
    Option.or_eq_some_iff] at h
  rcases h with h | ⟨h, -⟩
  · obtain ⟨first, hfirst, hlength⟩ := List.exists_of_findSome?_eq_some h
    obtain ⟨m, -, heq⟩ := Option.map_eq_some_iff.1 hlength
    exact absurd (Prod.mk.inj heq).1 (hkind first hfirst)
  · have hnone := List.findSome?_eq_none_iff.1 h rule hrule
    simpa using hnone

theorem firstToken?_eq_of_take {i : Nat} {rule : TokenRule} (hi : tokenRules[i]? = some rule)
    (hbefore : ∀ rule ∈ tokenRules.take i, rule.length? cs = none)
    (hrule : rule.length? cs = some n) : firstToken? cs = some (rule.kind, n) := by
  have hsplit : tokenRules.drop i = rule :: tokenRules.drop (i + 1) := by
    obtain ⟨hlt, hget⟩ := List.getElem?_eq_some_iff.1 hi
    rw [← hget, List.drop_eq_getElem_cons hlt]
  have hnone : (tokenRules.take i).findSome? (fun rule =>
      (rule.length? cs).map fun n => (rule.kind, n)) = none := by
    rw [List.findSome?_eq_none_iff]
    intro other hother
    rw [hbefore other hother, Option.map_none]
  rw [firstToken?, ← List.take_append_drop i tokenRules, List.findSome?_append, hnone, hsplit,
    List.findSome?_cons, hrule]
  rfl

/-! ## Unquoted tokens -/

/-- The kinds of tokens between quotation marks. -/
def quotedKinds : List TokenKind := [.binary, .duration, .enumeration, .string]

theorem Scan.StopsAt.not_mem_take {a : Scan} {d : Char} (hbounded : Scan.Bounded a)
    (hstops : Scan.StopsAt d a) (h : a cs = some n) : d ∉ cs.take n := by
  intro hmem
  obtain ⟨u, v, huv⟩ := List.append_of_mem hmem
  have hcs : cs = u ++ d :: (v ++ cs.drop n) := by
    rw [← List.cons_append, ← List.append_assoc, ← huv, List.take_append_drop]
  have hshort : n ≤ u.length := by
    rw [hcs, hstops] at h
    exact hbounded h
  have hlength := congrArg List.length huv
  simp only [List.length_take, List.length_append, List.length_cons] at hlength
  omega

/-- Apart from those of quoted literals, no rule takes a quotation mark. -/
theorem stopsAt_quote : ∀ rule ∈ tokenRules, rule.kind ∉ quotedKinds →
    Scan.Bounded rule.scan ∧ Scan.StopsAt Scan.quote rule.scan := by
  have hone {p : Char → Bool} (hp : p Scan.quote = false) :
      Scan.Bounded (.one p) ∧ Scan.StopsAt Scan.quote (.one p) :=
    have h : Scan.Avoids [Scan.quote] (.one p) := .one (by simpa using hp)
    ⟨h.bounded, h.stopsAt (by simp)⟩
  have hword {w : List Char} (hw : ∀ d ∈ strangers, d ∉ w) :
      Scan.Bounded (.word w) ∧ Scan.StopsAt Scan.quote (.word w) :=
    have h : Scan.Avoids strangers (.word w) := .word hw
    ⟨h.bounded, h.stopsAt (by decide)⟩
  have hquote {a : Scan} (h : Scan.Avoids strangers a) :
      Scan.Bounded a ∧ Scan.StopsAt Scan.quote a := ⟨h.bounded, h.stopsAt (by decide)⟩
  have htime {a : Scan} (h : Scan.Avoids timeStrangers a) :
      Scan.Bounded a ∧ Scan.StopsAt Scan.quote a := ⟨h.bounded, h.stopsAt (by decide)⟩
  have hblank : Scan.Avoids [Scan.quote] (.some1 Text.isAsciiBlank) := .some1 (by decide)
  have hlambda (t : List Char) : Confined [Scan.quote] t Scan.lambda := confined_lambda (by decide)
  simp only [tokenRules, List.forall_mem_cons]
  exact ⟨fun _ => ⟨hblank.bounded, hblank.stopsAt (by simp)⟩, fun _ => hone (by decide),
    fun _ => hone (by decide), fun _ => hone (by decide), fun _ => hword (by decide),
    fun _ => hword (by decide), fun _ => hword (by decide), fun _ => hquote Scan.avoids_operator,
    fun _ => hquote Scan.avoids_truth, fun _ => hword (by decide), by simp [quotedKinds],
    by simp [quotedKinds], by simp [quotedKinds], fun _ => htime Scan.avoids_dateTime,
    fun _ => hquote Scan.avoids_guid, fun _ => hquote Scan.avoids_date,
    fun _ => htime Scan.avoids_time, fun _ => hquote Scan.avoids_decimal,
    fun _ => hquote Scan.avoids_single, fun _ => hquote Scan.avoids_double,
    fun _ => hquote Scan.avoids_integer, by simp [quotedKinds],
    fun _ => ⟨fun _ _ hn => (hlambda _).1 _ hn, fun t rest => (hlambda t).2 _ (by simp) rest⟩,
    fun _ => htime Scan.avoids_parameter, fun _ => hquote Scan.avoids_name,
    fun _ => hquote Scan.avoids_path, by simp⟩

theorem plain_of_firstToken? (h : firstToken? (t ++ r) = some (kind, t.length))
    (hblank : kind ≠ .whitespace) (hkind : kind ∉ quotedKinds) : Plain t := by
  obtain ⟨rule, hrule, rfl, hscan, hpos, -⟩ := exists_rule h
  obtain ⟨hbounded, hstops⟩ := stopsAt_quote rule hrule hkind
  refine ⟨?_, ?_⟩
  · obtain ⟨c, rest, rfl⟩ := List.exists_cons_of_length_pos hpos
    refine ⟨c, rest, rfl, ?_⟩
    -- A token that begins with a blank would have been taken as white space.
    rw [Bool.eq_false_iff]
    intro hc
    have hnone := length?_eq_none_of_take (i := 1) h (by simpa [tokenRules] using hblank.symm)
      _ List.mem_cons_self
    simp [TokenRule.length?, Scan.some1, hc, Option.filter] at hnone
  · simpa using hstops.not_mem_take hbounded hscan

theorem Plain.scan_append (ht : Plain t) (hrule : rule ∈ tokenRules)
    (hr : ∀ d ∈ r.head?, d ∈ breaks) : rule.scan (t ++ r) = rule.scan t := by
  cases r with
  | nil => rw [List.append_nil]
  | cons d r =>
      have hd : d ∈ breaks := hr d rfl
      refine (ht.confined rule hrule).2 d ?_ r
      unfold TokenRule.hidden
      split <;> simp [hd]

theorem Plain.firstToken?_congr (ht : Plain t) (hr : ∀ d ∈ r.head?, d ∈ breaks)
    (hs : ∀ d ∈ s.head?, d ∈ breaks)
    (hfollow : ∀ rule ∈ tokenRules, rule.scan t = some t.length →
      rule.follow.accepts r = rule.follow.accepts s) :
    firstToken? (t ++ r) = firstToken? (t ++ s) := by
  refine Filter.firstToken?_congr fun rule hrule => ?_
  apply TokenRule.length?_congr
  · rw [ht.scan_append hrule hr, ht.scan_append hrule hs]
  · rw [ht.scan_append hrule hs]
    exact (ht.confined rule hrule).1
  · rw [ht.scan_append hrule hs]
    exact hfollow rule hrule

theorem eq_of_scan_word {w : List Char} (h : Scan.word w t = some t.length) : w = t := by
  unfold Scan.word at h
  split at h
  · rename_i hprefix
    obtain ⟨tail, htail⟩ := List.isPrefixOf_iff_prefix.1 hprefix
    exact (List.append_inj (htail.trans (List.append_nil t).symm) (Option.some.inj h)).1
  · cases h

theorem mem_reservedWords_of_scan : ∀ rule ∈ tokenRules,
    rule.follow = .blankOrEnd ∨ rule.follow = .blankOrParen →
      rule.scan t = some t.length → String.ofList t ∈ reservedWords := by
  have hword {w : String} (hw : w ∈ reservedWords) (hscan : Scan.word w.toList t = some t.length) :
      String.ofList t ∈ reservedWords := by
    rw [← eq_of_scan_word hscan, String.ofList_toList]
    exact hw
  simp only [tokenRules, List.forall_mem_cons]
  refine ⟨by simp, by simp, by simp, by simp, fun _ => hword (by decide),
    fun _ => hword (by decide), fun _ => hword (by decide), fun _ hscan => ?_, by simp⟩
  obtain ⟨a, ha, hscan⟩ := List.exists_of_findSome?_eq_some hscan
  obtain ⟨w, hw, rfl⟩ := List.mem_map.1 ha
  have hmem : w ∈ reservedWords := by
    clear ha hscan
    revert w
    decide
  exact hword hmem hscan

theorem Follow.accepts_of_delimited (follow : Follow) (hr : Delimited r) (hs : Delimited s) :
    follow = .blankOrEnd ∨ follow = .blankOrParen ∨ follow.accepts r = follow.accepts s := by
  have hclosed (r : List Char) (hr : Delimited r) :
      Follow.anything.accepts r = true ∧ Follow.openParen.accepts r = false ∧
        Follow.wordEnd.accepts r = true := by
    cases r with
    | nil => decide
    | cons d r =>
        have hd : d ∈ delimiters := hr d rfl
        simp only [Follow.accepts]
        clear hr
        revert d
        decide
  obtain ⟨hr₁, hr₂, hr₃⟩ := hclosed r hr
  obtain ⟨hs₁, hs₂, hs₃⟩ := hclosed s hs
  cases follow
  · rw [hr₁, hs₁]
    exact .inr (.inr rfl)
  · exact .inl rfl
  · exact .inr (.inl rfl)
  · rw [hr₂, hs₂]
    exact .inr (.inr rfl)
  · rw [hr₃, hs₃]
    exact .inr (.inr rfl)

/-- An unquoted token that is no reserved word keeps its kind in front of every delimiter. -/
theorem Plain.spelled (ht : Plain t) (hword : String.ofList t ∉ reservedWords) (hr : Delimited r)
    (h : firstToken? (t ++ r) = some (kind, t.length)) : Spelled kind t := by
  intro s hs
  rw [← h]
  refine ht.firstToken?_congr hs.mem_breaks hr.mem_breaks fun rule hrule hscan => ?_
  rcases rule.follow.accepts_of_delimited hs hr with hfollow | hfollow | heq
  · exact absurd (mem_reservedWords_of_scan rule hrule (.inl hfollow) hscan) hword
  · exact absurd (mem_reservedWords_of_scan rule hrule (.inr hfollow) hscan) hword
  · exact heq

/-- A literal that is not quoted keeps its kind. -/
theorem spelled_literal (hliteral : kind.isLiteral = true) (hkind : kind ∉ quotedKinds)
    (hr : Delimited r) (h : firstToken? (t ++ r) = some (kind, t.length)) : Spelled kind t := by
  have hblank : kind ≠ .whitespace := by
    rintro rfl
    cases hliteral
  have ht : Plain t := plain_of_firstToken? h hblank hkind
  refine ht.spelled (fun hword => ?_) hr h
  obtain ⟨rule, hrule, rfl, hscan, -, -⟩ := exists_rule h
  -- No rule for literals takes the word of an operator.
  have hwords : ∀ rule ∈ tokenRules, rule.kind.isLiteral = true →
      ∀ w ∈ reservedWords, rule.scan w.toList ≠ some w.toList.length := by decide
  refine hwords rule hrule hliteral _ hword ?_
  rw [String.toList_ofList, ← ht.scan_append hrule hr.mem_breaks]
  exact hscan

/-- The name of a function or of a lambda keeps its kind in front of every text in parentheses. -/
theorem Plain.firstToken?_paren (ht : Plain t)
    (h : firstToken? (t ++ '(' :: r) = some (kind, t.length)) (s : List Char) :
    firstToken? (t ++ '(' :: s) = some (kind, t.length) := by
  rw [← h]
  exact ht.firstToken?_congr (by simp [breaks]) (by simp [breaks])
    fun rule _ _ => rule.follow.accepts_congr rfl

end EntityQuery.Filter
