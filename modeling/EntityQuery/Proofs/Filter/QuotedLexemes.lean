import EntityQuery.Proofs.Filter.Lexemes

/-!
# Quoted literals, parameters and marks

The tokens for which the argument of `Lexemes` fails.  A quoted literal may contain every character
a rule could stop at, but its closing mark settles it in front of any text.  The parameter of a
lambda ends in its colon and needs nothing behind it either.  The texts that never change are tried
out.
-/

namespace EntityQuery.Filter

open Scan (quote)

variable {kind : TokenKind} {rule : TokenRule} {t u r s : List Char} {d : Char} {n : Nat}

/-! ## The rules before those of quoted literals -/

theorem avoids_of_take : ∀ rule ∈ tokenRules.take 10, Scan.Avoids ['.', quote] rule.scan := by
  have hoperator : Scan.Avoids ['.', quote] Scan.operator := by
    refine .firstOf (List.forall_mem_map.2 fun w hw => .word ?_)
    revert w
    decide
  simp only [tokenRules, List.take_succ_cons, List.take_zero, List.forall_mem_cons]
  exact ⟨.some1 (by decide), .one (by decide), .one (by decide), .one (by decide),
    .word (by decide), .word (by decide), .word (by decide), hoperator,
    .choice (.word (by decide)) (.choice (.word (by decide)) .noChoice), .word (by decide),
    by simp⟩

/-- The rules for marks and words see nothing behind a dot or a quotation mark. -/
theorem length?_cons_of_take (hrule : rule ∈ tokenRules.take 10) (hd : d ∈ ['.', quote]) :
    rule.length? (t ++ d :: r) = rule.length? (t ++ d :: s) := by
  have havoids := avoids_of_take rule hrule
  have hstops (rest : List Char) : rule.scan (t ++ d :: rest) = rule.scan t :=
    havoids.stopsAt hd t rest
  apply TokenRule.length?_congr
  · rw [hstops, hstops]
  · rw [hstops]
    exact fun n hn => havoids.bounded hn
  · exact fun _ => rule.follow.accepts_congr rfl

/-- Literals that begin with a word are not taken off a text that does not. -/
theorem length?_eq_none_of_word {w : List Char} {as : List Scan}
    (hscan : rule.scan = Scan.inOrder (.word w :: as)) (hw : w.isPrefixOf t = false) :
    rule.length? t = none := by
  simp [TokenRule.length?, hscan, Scan.inOrder, Scan.word, hw]

/-- A token that one of the rules from `i` on takes is taken in front of other texts, if its own
rule takes it there and the rules before it do not notice. -/
theorem firstToken?_of_closed {i : Nat} (hi : tokenRules[i]? = some rule)
    (hkind : ∀ other ∈ tokenRules.take i, other.kind ≠ rule.kind)
    (hbefore : ∀ other ∈ tokenRules.take i, other.length? (t ++ r) = none →
      other.length? (t ++ s) = none)
    (hclosed : rule.scan (t ++ s) = some t.length) (hfollow : rule.follow = .anything)
    (h : firstToken? (t ++ r) = some (rule.kind, t.length)) :
    firstToken? (t ++ s) = some (rule.kind, t.length) := by
  obtain ⟨-, -, -, -, hpos, -⟩ := exists_rule h
  refine firstToken?_eq_of_take hi (fun other hother => ?_) ?_
  · exact hbefore other hother (length?_eq_none_of_take h hkind other hother)
  · simp [TokenRule.length?, hclosed, hfollow, Option.filter, hpos]

/-! ## Strings of bytes and durations -/

theorem closed_binary : Scan.Closed Scan.binary := by
  have hbefore : Scan.Avoids [quote] (.inOrder [.many Scan.isBase64Char, .optional (.mark '='),
      .optional (.mark '=')]) :=
    .cons (.many (by decide)) (.cons (.optional (.one (by decide)))
      (.cons (.optional (.one (by decide))) .nil))
  exact Scan.closed_inOrder_append (Scan.closed_inOrder_word _)
    (Scan.closed_inOrder_mark hbefore (by simp))

theorem closed_duration : Scan.Closed Scan.duration := by
  have hone {p : Char → Bool} (hp : p quote = false) : Scan.Avoids [quote] (.one p) :=
    .one (by simpa using hp)
  have hdigits : Scan.Avoids [quote] Scan.digits := .some1 (by decide)
  have hcomponent {unit : Char} (hunit : (quote == unit) = false) :
      Scan.Avoids [quote] (Scan.component unit) :=
    .optional (.cons hdigits (.cons (hone hunit) .nil))
  have hfraction : Scan.Avoids [quote] Scan.fraction :=
    .cons (hone (by decide)) (.cons hdigits .nil)
  have hseconds : Scan.Avoids [quote]
      (.optional (.inOrder [.digits, .optional .fraction, .mark 'S'])) :=
    .optional (.cons hdigits (.cons (.optional hfraction) (.cons (hone (by decide)) .nil)))
  have hbefore : Scan.Avoids [quote] (.inOrder [.optional (.mark '-'), .mark 'P', .component 'D',
      .optional (.inOrder [.mark 'T', .component 'H', .component 'M',
        .optional (.inOrder [.digits, .optional .fraction, .mark 'S'])])]) :=
    .cons (.optional (hone (by decide))) (.cons (hone (by decide)) (.cons (hcomponent (by decide))
      (.cons (.optional (.cons (hone (by decide)) (.cons (hcomponent (by decide))
        (.cons (hcomponent (by decide)) (.cons hseconds .nil))))) .nil)))
  exact Scan.closed_inOrder_append (Scan.closed_inOrder_word _)
    (Scan.closed_inOrder_mark hbefore (by simp))

/-- What a scanner takes begins with the word it begins with. -/
theorem eq_append_of_word {w : List Char} {as : List Scan}
    (h : Scan.inOrder (.word w :: as) (t ++ r) = some t.length) : ∃ u, t = w ++ u := by
  rw [Scan.inOrder, Option.bind_eq_some_iff] at h
  obtain ⟨first, hfirst, h⟩ := h
  obtain ⟨later, -, hsum⟩ := Option.map_eq_some_iff.1 h
  unfold Scan.word at hfirst
  split at hfirst
  · rename_i hprefix
    have hlength : w.length = first := Option.some.inj hfirst
    obtain ⟨tail, htail⟩ := List.isPrefixOf_iff_prefix.1 hprefix
    refine ⟨t.drop w.length, ?_⟩
    have hle : w.length ≤ t.length := by omega
    have htake : t.take w.length = w :=
      calc t.take w.length = (t ++ r).take w.length := (List.take_append_of_le_length hle).symm
        _ = w := by rw [← htail, List.take_left]
    calc t = t.take w.length ++ t.drop w.length := (List.take_append_drop _ _).symm
      _ = w ++ t.drop w.length := by rw [htake]
  · cases hfirst

theorem firstToken?_binary (h : firstToken? (t ++ r) = some (.binary, t.length))
    (s : List Char) : firstToken? (t ++ s) = some (.binary, t.length) := by
  have hscan : Scan.binary (t ++ r) = some t.length :=
    scan_of_firstToken? ⟨.binary, .binary, .anything⟩ (by simp [tokenRules]) h
  obtain ⟨u, hu⟩ := eq_append_of_word hscan
  have hword : "binary'".toList = "binary".toList ++ [quote] := by decide
  refine firstToken?_of_closed (i := 10) rfl (by decide) (fun other hother hnone => ?_)
    (closed_binary.whole hscan s) rfl h
  rw [← hnone, hu, hword]
  simp only [List.append_assoc, List.singleton_append]
  exact length?_cons_of_take hother (by simp)

theorem firstToken?_duration (h : firstToken? (t ++ r) = some (.duration, t.length))
    (s : List Char) : firstToken? (t ++ s) = some (.duration, t.length) := by
  have hscan : Scan.duration (t ++ r) = some t.length :=
    scan_of_firstToken? ⟨.duration, .duration, .anything⟩ (by simp [tokenRules]) h
  obtain ⟨u, hu⟩ := eq_append_of_word hscan
  have hword : "duration'".toList = "duration".toList ++ [quote] := by decide
  refine firstToken?_of_closed (i := 11) rfl (by decide) (fun other hother hnone => ?_)
    (closed_duration.whole hscan s) rfl h
  have hsplit : tokenRules.take 11 = tokenRules.take 10 ++ [⟨.binary, .binary, .anything⟩] := rfl
  rw [hsplit, List.mem_append, List.mem_singleton] at hother
  rcases hother with hother | rfl
  · rw [← hnone, hu, hword]
    simp only [List.append_assoc, List.singleton_append]
    exact length?_cons_of_take hother (by simp)
  · refine length?_eq_none_of_word (w := "binary'".toList) rfl ?_
    rw [hu]
    rfl

/-! ## Enum literals -/

theorem closed_enumeration : Scan.Closed Scan.enumeration := by
  have hname : Scan.Avoids [quote] Scan.name := Scan.avoids_name.mono (by decide)
  have hdot : Scan.Avoids [quote] (.mark '.') := .one (by decide)
  have hbefore : Scan.Avoids [quote]
      (.inOrder [.name, .mark '.', .name, .star (.inOrder [.mark '.', .name])]) :=
    .cons hname (.cons hdot (.cons hname (.cons (.star (.cons hdot (.cons hname .nil))) .nil)))
  have hmembers : Scan.Avoids [quote] (.inOrder [.many (· != quote)]) :=
    .cons (.many (by decide)) .nil
  exact Scan.closed_inOrder_append (Scan.closed_inOrder_mark hbefore (by simp))
    (Scan.closed_inOrder_mark hmembers (by simp))

/-- An enum literal begins with a name and a dot. -/
theorem eq_append_dot (h : Scan.enumeration (t ++ r) = some t.length) :
    ∃ v u, t = v ++ '.' :: u ∧ quote ∉ v := by
  have hname : Scan.Avoids [quote] (.inOrder [.name]) :=
    .cons (Scan.avoids_name.mono (by decide)) .nil
  obtain ⟨v, rest, k, hsplit, hv, -, hlength⟩ :=
    Scan.inOrder_mark_eq_some (d := '.') [.name] h
  have hquote : quote ∉ (t ++ r).take v.length :=
    Scan.StopsAt.not_mem_take hname.bounded (hname.stopsAt (by simp)) hv
  rw [hsplit, List.take_left] at hquote
  refine ⟨v, t.drop (v.length + 1), ?_, hquote⟩
  have hle : v.length + 1 ≤ t.length := by omega
  have htake : t.take (v.length + 1) = v ++ ['.'] :=
    calc t.take (v.length + 1) = (t ++ r).take (v.length + 1) :=
          (List.take_append_of_le_length hle).symm
      _ = v ++ ['.'] := by
          rw [hsplit, List.take_append, List.take_of_length_le (Nat.le_succ _)]
          simp
  calc t = t.take (v.length + 1) ++ t.drop (v.length + 1) := (List.take_append_drop _ _).symm
    _ = v ++ '.' :: t.drop (v.length + 1) := by rw [htake, List.append_assoc, List.singleton_append]

theorem firstToken?_enumeration (h : firstToken? (t ++ r) = some (.enumeration, t.length))
    (s : List Char) : firstToken? (t ++ s) = some (.enumeration, t.length) := by
  have hscan : Scan.enumeration (t ++ r) = some t.length :=
    scan_of_firstToken? ⟨.enumeration, .enumeration, .anything⟩ (by simp [tokenRules]) h
  obtain ⟨v, u, hu, hquote⟩ := eq_append_dot hscan
  refine firstToken?_of_closed (i := 12) rfl (by decide) (fun other hother hnone => ?_)
    (closed_enumeration.whole hscan s) rfl h
  have hsplit : tokenRules.take 12 = tokenRules.take 10 ++
      [⟨.binary, .binary, .anything⟩, ⟨.duration, .duration, .anything⟩] := rfl
  -- The words before other literals end in a mark; here there is a dot before the first mark.
  have hword {w : List Char} (hw : quote ∈ w) (hdot : '.' ∉ w) :
      w.isPrefixOf (t ++ s) = false := by
    have hnone : Scan.word w (v ++ ('.' :: (u ++ s))) = none :=
      Scan.word_eq_none hw hquote (by simpa using hdot)
    rw [hu, List.append_assoc, List.cons_append]
    unfold Scan.word at hnone
    split at hnone
    · cases hnone
    · rename_i hprefix
      exact Bool.eq_false_iff.2 hprefix
  rw [hsplit, List.mem_append] at hother
  simp only [List.mem_cons, List.not_mem_nil, or_false] at hother
  rcases hother with hother | rfl | rfl
  · rw [← hnone, hu]
    simp only [List.append_assoc, List.cons_append]
    exact length?_cons_of_take hother (by simp)
  · exact length?_eq_none_of_word rfl (hword (by decide) (by decide))
  · exact length?_eq_none_of_word rfl (hword (by decide) (by decide))

/-! ## Texts -/

theorem textBody_cons_of_ne {c : Char} (hc : c ≠ quote) (cs : List Char) :
    Scan.textBody (c :: cs) = (Scan.textBody cs).map (1 + ·) := by
  cases cs <;> simp [Scan.textBody, hc]

theorem textBody_quote {cs : List Char} (hcs : ∀ d ∈ cs.head?, d ≠ quote) :
    Scan.textBody (quote :: cs) = some 1 := by
  cases cs with
  | nil => simp [Scan.textBody]
  | cons d cs => simp [Scan.textBody, hcs d rfl]

theorem textBody_quote_quote (cs : List Char) :
    Scan.textBody (quote :: quote :: cs) = some (((Scan.textBody cs).map (2 + ·)).getD 1) := by
  simp [Scan.textBody]

/-- The body of a text consists of doubled marks and other characters up to a single mark. -/
theorem textBody_induction {P : List Char → Prop} (nil : P [])
    (other : ∀ c cs, c ≠ quote → P cs → P (c :: cs)) (pair : ∀ cs, P cs → P (quote :: quote :: cs))
    (close : ∀ cs : List Char, (∀ d ∈ cs.head?, d ≠ quote) → P (quote :: cs)) (cs : List Char) :
    P cs := by
  induction hm : cs.length using Nat.strongRecOn generalizing cs with
  | ind m ih =>
      subst hm
      cases cs with
      | nil => exact nil
      | cons c cs =>
          by_cases hc : c = quote
          · subst hc
            cases cs with
            | nil => exact close [] (by simp)
            | cons d cs =>
                by_cases hd : d = quote
                · subst hd
                  exact pair cs (ih cs.length (by simp only [List.length_cons]; omega) cs rfl)
                · exact close (d :: cs) (by simpa using hd)
          · exact other c cs hc (ih cs.length (by simp) cs rfl)

theorem textBody_ne_zero (cs : List Char) : Scan.textBody cs ≠ some 0 := by
  intro h
  induction cs using textBody_induction with
  | nil => cases h
  | other c cs hc _ =>
      rw [textBody_cons_of_ne hc] at h
      obtain ⟨n, -, hn⟩ := Option.map_eq_some_iff.1 h
      omega
  | pair cs _ =>
      rw [textBody_quote_quote] at h
      cases hbody : Scan.textBody cs <;> simp [hbody] at h
  | close cs hcs =>
      rw [textBody_quote hcs] at h
      cases h

theorem bounded_textBody : Scan.Bounded Scan.textBody := by
  intro cs n h
  induction cs using textBody_induction generalizing n with
  | nil => cases h
  | other c cs hc ih =>
      rw [textBody_cons_of_ne hc] at h
      obtain ⟨k, hk, rfl⟩ := Option.map_eq_some_iff.1 h
      have hle : k ≤ cs.length := ih hk
      rw [List.length_cons]
      omega
  | pair cs ih =>
      rw [textBody_quote_quote] at h
      obtain rfl := Option.some.inj h
      cases hbody : Scan.textBody cs with
      | none => simp
      | some k =>
          have hle : k ≤ cs.length := ih hbody
          simp only [Option.map_some, Option.getD_some, List.length_cons]
          omega
  | close cs hcs =>
      rw [textBody_quote hcs] at h
      obtain rfl := Option.some.inj h
      simp

/-- No rule takes more than there is. -/
theorem bounded_of_mem_tokenRules {rule : TokenRule} (hrule : rule ∈ tokenRules) :
    Scan.Bounded rule.scan := by
  by_cases hkind : rule.kind ∈ quotedKinds
  · have htext : Scan.Bounded Scan.text := by
      refine Scan.bounded_cons (Scan.bounded_one _) ?_
      rw [Scan.inOrder_single]
      exact bounded_textBody
    have hscans : ∀ rule ∈ tokenRules, rule.kind ∈ quotedKinds → rule.scan = Scan.binary ∨
        rule.scan = Scan.duration ∨ rule.scan = Scan.enumeration ∨ rule.scan = Scan.text := by
      simp [tokenRules, quotedKinds]
    rcases hscans rule hrule hkind with hscan | hscan | hscan | hscan <;> rw [hscan]
    · exact closed_binary.bounded
    · exact closed_duration.bounded
    · exact closed_enumeration.bounded
    · exact htext
  · exact (stopsAt_quote rule hrule hkind).1

/-- The closing mark of a text closes it in front of everything but another mark. -/
theorem textBody_append (hs : ∀ d ∈ s.head?, d ≠ quote)
    {cs : List Char} (h : Scan.textBody (cs ++ r) = some cs.length) :
    Scan.textBody (cs ++ s) = some cs.length := by
  induction cs using textBody_induction with
  | nil => exact absurd h (textBody_ne_zero r)
  | other c cs hc ih =>
      rw [List.cons_append, textBody_cons_of_ne hc] at h ⊢
      obtain ⟨n, hn, hlength⟩ := Option.map_eq_some_iff.1 h
      obtain rfl : n = cs.length := by
        rw [List.length_cons] at hlength
        omega
      rw [ih hn, Option.map_some, List.length_cons, Nat.add_comm]
  | pair cs ih =>
      simp only [List.cons_append, textBody_quote_quote] at h ⊢
      have hbody : Scan.textBody (cs ++ r) = some cs.length := by
        cases hbody : Scan.textBody (cs ++ r) with
        | none => simp [hbody] at h
        | some n =>
            simp only [hbody, Option.map_some, Option.getD_some, Option.some.injEq,
              List.length_cons] at h
            congr 1
            omega
      rw [ih hbody]
      simp only [Option.map_some, Option.getD_some, List.length_cons]
      congr 1
      omega
  | close cs hcs =>
      cases cs with
      | nil => exact textBody_quote hs
      | cons d cs =>
          -- The single mark would have closed the text before its end.
          have hone : Scan.textBody (quote :: d :: cs ++ r) = some 1 :=
            textBody_quote (by simpa using hcs)
          rw [hone] at h
          simp at h

/-- Only a text begins with a quotation mark. -/
theorem length?_quote_of_take (cs : List Char) :
    ∀ rule ∈ tokenRules.take 21, rule.length? (quote :: cs) = none := by
  intro rule hrule
  have hmem : rule ∈ tokenRules := List.mem_of_mem_take hrule
  have hnone : rule.scan (quote :: cs) = none := by
    by_cases hkind : rule.kind ∈ quotedKinds
    · have hscans : ∀ rule ∈ tokenRules.take 21, rule.kind ∈ quotedKinds →
          rule.scan = Scan.binary ∨ rule.scan = Scan.duration ∨ rule.scan = Scan.enumeration := by
        simp [tokenRules, quotedKinds]
      rcases hscans rule hrule hkind with hscan | hscan | hscan <;> rw [hscan] <;> rfl
    · have hempty : ∀ rule ∈ tokenRules, rule.scan [] = none := by decide
      rw [← hempty rule hmem]
      exact (stopsAt_quote rule hmem hkind).2 [] cs
  rw [TokenRule.length?, hnone]
  rfl

theorem firstToken?_string (hs : ∀ d ∈ s.head?, d ≠ quote)
    (h : firstToken? (t ++ r) = some (.string, t.length)) :
    firstToken? (t ++ s) = some (.string, t.length) := by
  have hscan : Scan.text (t ++ r) = some t.length :=
    scan_of_firstToken? ⟨.string, .text, .anything⟩ (by simp [tokenRules]) h
  obtain ⟨v, body, k, hsplit, hv, hbody, hlength⟩ :=
    Scan.inOrder_mark_eq_some (d := quote) [] hscan
  obtain rfl : v = [] := List.length_eq_zero_iff.1 (Option.some.inj hv).symm
  obtain ⟨cs, rfl⟩ : ∃ cs, t = quote :: cs := by
    cases t with
    | nil =>
        simp only [List.length_nil] at hlength
        omega
    | cons c cs =>
        obtain rfl : c = quote := (List.cons.inj hsplit).1
        exact ⟨cs, rfl⟩
  have htext {r : List Char} :
      Scan.text (quote :: cs ++ r) = some (quote :: cs).length ↔
        Scan.textBody (cs ++ r) = some cs.length := by
    cases hcs : Scan.textBody (cs ++ r) <;>
      simp [Scan.text, Scan.inOrder, Scan.mark, Scan.one, hcs]
    omega
  refine firstToken?_of_closed (i := 21) rfl (by decide) (fun other hother _ => ?_)
    (htext.2 (textBody_append hs (htext.1 hscan))) rfl h
  exact length?_quote_of_take _ other hother

/-! ## Operands -/

/-- The next token, if there is one, ends an operand: it closes a group, separates arguments or is
an operator. -/
def Ending (r : List Char) : Prop := ∀ d ∈ r.head?, d ∈ delimiters ∨ Scan.isNameStart d = true

theorem toNat_of_isAlpha {c : Char} (h : c.isAlpha = true) :
    65 ≤ c.val.toNat ∧ c.val.toNat ≤ 122 := by
  rcases Bool.or_eq_true_iff.1 h with hupper | hlower
  · obtain ⟨hlow, hhigh⟩ := of_decide_eq_true hupper
    exact ⟨hlow, Nat.le_trans hhigh (by decide)⟩
  · obtain ⟨hlow, hhigh⟩ := Bool.and_eq_true_iff.1 hlower
    exact ⟨Nat.le_trans (by decide) (of_decide_eq_true hlow), of_decide_eq_true hhigh⟩

theorem alphanumeric_of_isAlpha {c : Char} (h : c.isAlpha = true) :
    Text.isAlphanumeric c = true := by
  have hlt : c.val < 128 :=
    UInt32.lt_iff_toNat_lt.2 (Nat.lt_of_le_of_lt (toNat_of_isAlpha h).2 (by decide))
  rw [Text.isAlphanumeric_of_lt hlt, Char.isAlphanum, h, Bool.true_or]

/-- Unquoted operands are told from what follows them by more than an operator. -/
theorem Ending.delimited (hr : Ending r) (hword : Follow.wordEnd.accepts r = true) :
    Delimited r := by
  intro d hd
  rcases hr d hd with hmem | hstart
  · exact hmem
  · cases r with
    | nil => cases hd
    | cons c r =>
        obtain rfl : c = d := Option.some.inj hd
        simp only [Follow.accepts, Bool.not_eq_true', Bool.or_eq_false_iff] at hword
        rw [Scan.isNameStart, hword.2, Bool.or_false] at hstart
        rw [alphanumeric_of_isAlpha hstart] at hword
        exact absurd hword.1 (by decide)

theorem follow_of_operand : ∀ rule ∈ tokenRules,
    rule.kind.isLiteral = true ∨ rule.kind = .propertyPath → rule.kind ∉ quotedKinds →
      rule.follow = .wordEnd := by
  decide

theorem delimited_of_operand (hkind : kind.isLiteral = true ∨ kind = .propertyPath)
    (hquoted : kind ∉ quotedKinds) (hr : Ending r)
    (h : firstToken? (t ++ r) = some (kind, t.length)) : Delimited r := by
  obtain ⟨rule, hrule, rfl, -, -, haccepts⟩ := exists_rule h
  rw [follow_of_operand rule hrule hkind hquoted, List.drop_left] at haccepts
  exact hr.delimited haccepts

/-- A literal keeps its kind wherever an operand may stand. -/
theorem spelled_of_isLiteral (hliteral : kind.isLiteral = true) (hr : Ending r)
    (h : firstToken? (t ++ r) = some (kind, t.length)) : Spelled kind t := by
  by_cases hquoted : kind ∈ quotedKinds
  · intro s hs
    simp only [quotedKinds, List.mem_cons, List.not_mem_nil, or_false] at hquoted
    rcases hquoted with rfl | rfl | rfl | rfl
    · exact firstToken?_binary h s
    · exact firstToken?_duration h s
    · exact firstToken?_enumeration h s
    · refine firstToken?_string (fun d hd => ?_) h
      -- The closing mark would be doubled by another one, but that is no delimiter.
      have hmem : d ∈ delimiters := hs d hd
      rintro rfl
      revert hmem
      decide
  · exact spelled_literal hliteral hquoted (delimited_of_operand (.inl hliteral) hquoted hr h) h

/-- A path that is no reserved word keeps its kind wherever an operand may stand. -/
theorem spelled_of_path (hword : String.ofList t ∉ reservedWords) (hr : Ending r)
    (h : firstToken? (t ++ r) = some (.propertyPath, t.length)) : Spelled .propertyPath t := by
  have hdelimited : Delimited r := delimited_of_operand (.inr rfl) (by decide) hr h
  exact (plain_of_firstToken? h (by decide) (by decide)).spelled hword hdelimited h

/-! ## Parameters -/

theorem exactly_cons_eq_none {p : Char → Bool} {c : Char} (hp : p c = false) (n : Nat)
    (cs : List Char) : Scan.exactly (n + 1) p (c :: cs) = none := by
  simp [Scan.exactly, hp]

theorem front_of_name {cs : List Char} (h : Scan.inOrder [.name] cs = some n) :
    0 < n ∧ ∃ c rest, cs = c :: rest ∧ Scan.isNameStart c = true := by
  rw [Scan.inOrder, Option.bind_eq_some_iff] at h
  obtain ⟨m, hm, h⟩ := h
  obtain ⟨k, -, rfl⟩ := Option.map_eq_some_iff.1 h
  rw [Scan.name, Scan.inOrder, Option.bind_eq_some_iff] at hm
  obtain ⟨first, hfirst, hm⟩ := hm
  obtain ⟨later, -, rfl⟩ := Option.map_eq_some_iff.1 hm
  cases cs with
  | nil => cases hfirst
  | cons c rest =>
      rw [Scan.one] at hfirst
      split at hfirst
      · rename_i hc
        obtain rfl := Option.some.inj hfirst
        exact ⟨by omega, c, rest, rfl, hc⟩
      · cases hfirst

theorem lt_of_isNameStart {c : Char} (h : Scan.isNameStart c = true) : 64 < c.val.toNat := by
  rw [Scan.isNameStart, Bool.or_eq_true, beq_iff_eq] at h
  rcases h with halpha | rfl
  · exact (toNat_of_isAlpha halpha).1
  · decide

theorem isAsciiBlank_of_isNameStart {c : Char} (h : Scan.isNameStart c = true) :
    Text.isAsciiBlank c = false := by
  have hlt : 64 < c.val.toNat := lt_of_isNameStart h
  rw [Bool.eq_false_iff]
  intro hblank
  simp only [Text.isAsciiBlank, Bool.or_eq_true, Bool.and_eq_true, beq_iff_eq, decide_eq_true_eq,
    UInt32.le_iff_toNat_le] at hblank
  rcases hblank with hval | ⟨-, hval⟩
  · rw [hval] at hlt
    exact absurd hlt (by decide)
  · exact absurd (Nat.lt_of_lt_of_le hlt hval) (by decide)

theorem isDigit_of_isNameStart {c : Char} (h : Scan.isNameStart c = true) :
    c.isDigit = false := by
  have hlt : 64 < c.val.toNat := lt_of_isNameStart h
  rw [Bool.eq_false_iff]
  intro hdigit
  simp only [Char.isDigit, Bool.and_eq_true, decide_eq_true_eq, UInt32.le_iff_toNat_le] at hdigit
  exact absurd (Nat.lt_of_lt_of_le hlt hdigit.2) (by decide)

/-- A parameter is a name in front of a colon. -/
theorem eq_append_colon (h : firstToken? (t ++ r) = some (.lambdaParameter, t.length)) :
    ∃ u, t = u ++ [':'] ∧ Scan.inOrder [.name] (u ++ ':' :: r) = some u.length := by
  have hscan : Scan.parameter (t ++ r) = some t.length :=
    scan_of_firstToken? ⟨.lambdaParameter, .parameter, .anything⟩
      (by simp [tokenRules]) h
  obtain ⟨u, v, k, hsplit, hu, hk, hlength⟩ :=
    Scan.inOrder_mark_eq_some [.name] hscan
  obtain rfl : 0 = k := Option.some.inj hk
  obtain ⟨rfl, rfl⟩ : t = u ++ [':'] ∧ r = v := by
    refine List.append_inj ?_ ?_
    · rw [hsplit, List.append_assoc, List.singleton_append]
    · rw [hlength, List.length_append, List.length_singleton]
  rw [List.append_assoc, List.singleton_append] at hu
  exact ⟨u, rfl, hu⟩

/-- The name of a parameter begins with a letter and has no quotation marks. -/
theorem plain_of_name {u : List Char} (h : Scan.inOrder [.name] (u ++ ':' :: r) = some u.length) :
    Plain u ∧ ∃ c tail, u = c :: tail ∧ c.isDigit = false := by
  have hname : Scan.Avoids strangers (.inOrder [.name]) := .cons Scan.avoids_name .nil
  obtain ⟨hpos, c, rest, hfront, hstart⟩ := front_of_name h
  obtain ⟨tail, rfl⟩ : ∃ tail, u = c :: tail := by
    cases u with
    | nil => cases hpos
    | cons d tail =>
        obtain rfl : d = c := (List.cons.inj hfront).1
        exact ⟨tail, rfl⟩
  have hquote : quote ∉ (c :: tail ++ ':' :: r).take (c :: tail).length :=
    Scan.StopsAt.not_mem_take hname.bounded (hname.stopsAt (by decide)) h
  rw [List.take_left] at hquote
  exact ⟨⟨⟨c, tail, rfl, isAsciiBlank_of_isNameStart hstart⟩, hquote⟩, c, tail, rfl,
    isDigit_of_isNameStart hstart⟩

/-- A parameter and its colon are the same token in front of every text. -/
theorem firstToken?_parameter (h : firstToken? (t ++ r) = some (.lambdaParameter, t.length))
    (s : List Char) : firstToken? (t ++ s) = some (.lambdaParameter, t.length) := by
  have hname : Scan.Avoids strangers (.inOrder [.name]) := .cons Scan.avoids_name .nil
  have hscan : Scan.parameter (t ++ r) = some t.length :=
    scan_of_firstToken? ⟨.lambdaParameter, .parameter, .anything⟩
      (by simp [tokenRules]) h
  have hclosed : Scan.Closed Scan.parameter := Scan.closed_inOrder_mark hname (by decide)
  obtain ⟨u, rfl, hu⟩ := eq_append_colon h
  obtain ⟨hplain, c, tail, rfl, hdigit⟩ := plain_of_name hu
  -- Only three rules take colons, and those of clock times begin with a digit.
  have hrules : ∀ rule ∈ tokenRules, rule.hidden = ':' :: breaks ∨ rule.scan = Scan.dateTime ∨
      rule.scan = Scan.time ∨ rule = ⟨.lambdaParameter, .parameter, .anything⟩ := by
    simp [tokenRules, TokenRule.hidden]
  rw [← h]
  refine firstToken?_congr fun rule hrule => ?_
  rcases hrules rule hrule with hhidden | hclock | hclock | rfl
  · -- What follows the parameter is hidden behind the colon.
    obtain ⟨hbound, hstops⟩ := hplain.confined rule hrule
    rw [hhidden] at hstops
    simp only [List.append_assoc, List.singleton_append]
    apply TokenRule.length?_congr
    · rw [hstops ':' (by simp), hstops ':' (by simp)]
    · rw [hstops ':' (by simp)]
      exact hbound
    · exact fun _ => rule.follow.accepts_congr rfl
  · simp [TokenRule.length?, hclock, Scan.dateTime, Scan.date, Scan.inOrder, Scan.digitCount,
      exactly_cons_eq_none hdigit]
  · simp [TokenRule.length?, hclock, Scan.time, Scan.inOrder, Scan.digitCount,
      exactly_cons_eq_none hdigit]
  · apply TokenRule.length?_congr
    · exact (hclosed.whole hscan s).trans hscan.symm
    · intro n hn
      exact Nat.le_of_eq (Option.some.inj (hn.symm.trans hscan))
    · intro _
      rw [Follow.accepts_anything, Follow.accepts_anything]

/-! ## Fixed texts -/

/-- The kind of token an operator is. -/
def operatorKind : BinaryOperator → TokenKind
  | .and => .and
  | .or => .or
  | _ => .binaryOperator

theorem firstToken?_operator (operator : BinaryOperator) (r : List Char) :
    firstToken? (operator.keyword.toList ++ ' ' :: r)
      = some (operatorKind operator, operator.keyword.toList.length) := by
  have hplain : Plain operator.keyword.toList := by
    cases operator <;> exact ⟨⟨_, _, rfl, by decide⟩, by decide⟩
  have hblank : firstToken? (operator.keyword.toList ++ [' '])
      = some (operatorKind operator, operator.keyword.toList.length) := by
    cases operator <;> decide
  rw [← hblank]
  exact hplain.firstToken?_congr (by simp [breaks, delimiters]) (by simp [breaks, delimiters])
    fun rule _ _ => rule.follow.accepts_congr rfl

theorem firstToken?_not (r : List Char) :
    firstToken? ("not".toList ++ ' ' :: r) = some (.not, 3) := by
  have hplain : Plain "not".toList := ⟨⟨_, _, rfl, by decide⟩, by decide⟩
  have hblank : firstToken? ("not".toList ++ [' ']) = some (.not, 3) := by decide
  rw [← hblank]
  exact hplain.firstToken?_congr (by simp [breaks, delimiters]) (by simp [breaks, delimiters])
    fun rule _ _ => rule.follow.accepts_congr rfl

theorem firstToken?_function (function : Function) (r : List Char) :
    firstToken? (function.name.toList ++ '(' :: r)
      = some (.functionName, function.name.toList.length) := by
  have hplain : Plain function.name.toList := by
    cases function <;> exact ⟨⟨_, _, rfl, by decide⟩, by decide⟩
  have hparen : firstToken? (function.name.toList ++ ['('])
      = some (.functionName, function.name.toList.length) := by
    cases function <;> decide
  exact hplain.firstToken?_paren hparen r

/-- A mark that no rule before its own begins with. -/
theorem firstToken?_mark {i : Nat} {c : Char}
    (hi : tokenRules[i]? = some ⟨kind, .mark c, .anything⟩)
    (hbefore : ∀ rule ∈ tokenRules.take i, ∀ r, rule.length? (c :: r) = none) (r : List Char) :
    firstToken? (c :: r) = some (kind, 1) := by
  refine firstToken?_eq_of_take hi (fun rule hrule => hbefore rule hrule r) ?_
  simp [TokenRule.length?, Scan.mark, Scan.one, Option.filter]

theorem firstToken?_openParen (r : List Char) : firstToken? ('(' :: r) = some (.openParen, 1) :=
  firstToken?_mark (i := 1) rfl
    (by simp [tokenRules, TokenRule.length?, Scan.some1, Text.isAsciiBlank]) r

theorem firstToken?_closeParen (r : List Char) :
    firstToken? (')' :: r) = some (.closeParen, 1) :=
  firstToken?_mark (i := 2) rfl
    (by simp [tokenRules, TokenRule.length?, Scan.some1, Scan.mark, Scan.one, Text.isAsciiBlank]) r

theorem firstToken?_comma (r : List Char) : firstToken? (',' :: r) = some (.comma, 1) :=
  firstToken?_mark (i := 3) rfl
    (by simp [tokenRules, TokenRule.length?, Scan.some1, Scan.mark, Scan.one, Text.isAsciiBlank]) r

theorem firstToken?_blank {c : Char} (hc : Text.isAsciiBlank c = true) (r : List Char) :
    firstToken? (c :: r) = some (.whitespace, (r.takeWhile Text.isAsciiBlank).length + 1) := by
  have hrule : tokenRules[0]? = some ⟨.whitespace, .some1 Text.isAsciiBlank, .anything⟩ := rfl
  refine firstToken?_eq_of_take hrule (by simp) ?_
  simp [TokenRule.length?, Scan.some1, hc, Option.filter]

end EntityQuery.Filter
