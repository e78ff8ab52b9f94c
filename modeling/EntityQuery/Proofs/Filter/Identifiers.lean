import EntityQuery.Proofs.Filter.QuotedLexemes

/-!
# Identifiers as paths

The name of a property is a path of one property wherever an operand may stand, provided that it is
an identifier and no keyword.  The rules before the one for paths either need a character that no
identifier has, or they take a word off it that goes on behind what they took.
-/

namespace EntityQuery.Filter

open Scan (quote isNameStart isNameChar)

variable {t r : List Char} {c d : Char} {n : Nat}

/-- A letter of ASCII or an underscore, with letters, digits and underscores behind it. -/
def isIdentifier : List Char → Bool
  | [] => false
  | c :: rest => isNameStart c && rest.all isNameChar

/-- The words of operators and those that are values. -/
def keywords : List String := "true" :: "false" :: "null" :: reservedWords

/-! ## The characters of an identifier -/

theorem isNameChar_of_isNameStart (h : isNameStart c = true) : isNameChar c = true := by
  rw [isNameStart, Bool.or_eq_true] at h
  rw [isNameChar, Char.isAlphanum]
  rcases h with halpha | hline
  · rw [halpha]
    rfl
  · rw [hline, Bool.or_true]

theorem isNameChar_of_mem (h : isIdentifier t = true) (hc : c ∈ t) : isNameChar c = true := by
  cases t with
  | nil => cases hc
  | cons d rest =>
      obtain ⟨hstart, hrest⟩ := Bool.and_eq_true_iff.1 h
      rcases List.mem_cons.1 hc with rfl | hmem
      · exact isNameChar_of_isNameStart hstart
      · exact List.all_eq_true.1 hrest c hmem

theorem not_mem_of_isIdentifier (h : isIdentifier t = true) (hd : isNameChar d = false) :
    d ∉ t := by
  intro hmem
  rw [isNameChar_of_mem h hmem] at hd
  cases hd

theorem plain_of_isIdentifier (h : isIdentifier t = true) : Plain t := by
  refine ⟨?_, not_mem_of_isIdentifier h (by decide)⟩
  cases t with
  | nil => cases h
  | cons c rest =>
      exact ⟨c, rest, rfl, isAsciiBlank_of_isNameStart (Bool.and_eq_true_iff.1 h).1⟩

/-- A word does not end inside an identifier. -/
theorem Follow.accepts_of_isNameChar {follow : Follow} (hfollow : follow ≠ .anything)
    (hc : isNameChar c = true) (cs : List Char) : follow.accepts (c :: cs) = false := by
  have hascii : ∀ n < 128, isNameChar (Char.ofNat n) = true → Text.isBlank (Char.ofNat n) = false ∧
      (Text.isAlphanumeric (Char.ofNat n) || Char.ofNat n == '_') = true := by decide
  have hlt : c.toNat < 128 := by
    rw [isNameChar, Bool.or_eq_true, beq_iff_eq, Char.isAlphanum, Bool.or_eq_true] at hc
    rcases hc with (halpha | hdigit) | rfl
    · exact Nat.lt_of_le_of_lt (toNat_of_isAlpha halpha).2 (by decide)
    · exact Nat.lt_of_le_of_lt (of_decide_eq_true (Bool.and_eq_true_iff.1 hdigit).2) (by decide)
    · decide
  have hparen : (c == '(') = false := by
    rw [beq_eq_false_iff_ne]
    rintro rfl
    cases hc
  rw [← Char.ofNat_toNat c] at hc
  obtain ⟨hblank, hword⟩ := hascii c.toNat hlt hc
  rw [Char.ofNat_toNat] at hblank hword
  cases follow with
  | anything => exact absurd rfl hfollow
  | blankOrEnd => exact hblank
  | blankOrParen => rw [Follow.accepts, hblank, hparen, Bool.or_false]
  | openParen => exact hparen
  | wordEnd => rw [Follow.accepts, hword, Bool.not_true]

/-! ## Scanners that find nothing -/

theorem exists_cons_of_isIdentifier (h : isIdentifier t = true) :
    ∃ c rest, t = c :: rest ∧ isNameStart c = true := by
  cases t with
  | nil => cases h
  | cons c rest => exact ⟨c, rest, rfl, (Bool.and_eq_true_iff.1 h).1⟩

theorem inOrder_cons_eq_none {a : Scan} {as : List Scan} (h : a t = none) :
    Scan.inOrder (a :: as) t = none := by
  rw [Scan.inOrder, h]
  rfl

theorem some1_blank_eq_none (h : isIdentifier t = true) :
    Scan.some1 Text.isAsciiBlank t = none := by
  obtain ⟨c, rest, rfl, hstart⟩ := exists_cons_of_isIdentifier h
  simp [Scan.some1, isAsciiBlank_of_isNameStart hstart]

theorem mark_eq_none (h : isIdentifier t = true) (hd : isNameStart d = false) :
    Scan.mark d t = none := by
  obtain ⟨c, rest, rfl, hstart⟩ := exists_cons_of_isIdentifier h
  have hne : (c == d) = false := by
    rw [beq_eq_false_iff_ne]
    rintro rfl
    rw [hstart] at hd
    cases hd
  rw [Scan.mark, Scan.one, hne]
  rfl

/-- Dates and times begin with digits. -/
theorem digitCount_eq_none (h : isIdentifier t = true) (n : Nat) :
    Scan.digitCount (n + 1) t = none := by
  obtain ⟨c, rest, rfl, hstart⟩ := exists_cons_of_isIdentifier h
  exact exactly_cons_eq_none (isDigit_of_isNameStart hstart) n rest

/-- Numbers begin with digits, or with a minus before them. -/
theorem signedDigits_eq_none (h : isIdentifier t = true) : Scan.signedDigits t = none := by
  have hminus : Scan.mark '-' t = none := mark_eq_none h (by decide)
  obtain ⟨c, rest, rfl, hstart⟩ := exists_cons_of_isIdentifier h
  simp [Scan.signedDigits, Scan.inOrder, Scan.optional, hminus, Scan.digits, Scan.some1,
    isDigit_of_isNameStart hstart]

/-- Names of enum types, identifiers with hyphens and parameters have marks in them. -/
theorem inOrder_mark_eq_none_of_isIdentifier (h : isIdentifier t = true)
    (as : List Scan) {bs : List Scan} (hd : isNameChar d = false) :
    Scan.inOrder (as ++ Scan.mark d :: bs) t = none := by
  rw [Option.eq_none_iff_forall_ne_some]
  intro n hn
  obtain ⟨u, v, k, hsplit, -⟩ := Scan.inOrder_mark_eq_some as hn
  exact not_mem_of_isIdentifier h hd (hsplit ▸ by simp)

theorem inOrder_word_eq_none {w : List Char} {as : List Scan} (h : isIdentifier t = true)
    (hw : quote ∈ w) : Scan.inOrder (Scan.word w :: as) t = none := by
  have hnone := Scan.word_eq_none (r := []) hw (plain_of_isIdentifier h).quote (by simp)
  rw [List.append_nil] at hnone
  exact inOrder_cons_eq_none hnone

/-! ## The rules before the one for paths -/

/-- A rule that does not take an identifier off a text: what stands behind it is not allowed there,
be it the rest of the identifier or a delimiter, unless the identifier is a keyword. -/
def TokenRule.Spares (rule : TokenRule) (t : List Char) : Prop :=
  ∀ n, rule.scan t = some n → rule.follow ≠ .anything ∧
    (n = t.length → rule.follow = .openParen ∨ String.ofList t ∈ keywords)

namespace TokenRule.Spares

variable {kind : TokenKind} {scan : Scan} {follow : Follow}

theorem of_none (h : scan t = none) : Spares ⟨kind, scan, follow⟩ t := by
  intro n (hn : scan t = some n)
  rw [h] at hn
  cases hn

theorem paren : Spares ⟨kind, scan, .openParen⟩ t :=
  fun _ _ => ⟨by simp, fun _ => .inl rfl⟩

theorem word {w : String} (hfollow : follow ≠ .anything) (hw : w ∈ keywords) :
    Spares ⟨kind, .word w.toList, follow⟩ t := by
  intro n hscan
  refine ⟨hfollow, fun hn => .inr ?_⟩
  subst hn
  rw [← eq_of_scan_word hscan, String.ofList_toList]
  exact hw

theorem words (ws : List String) (hfollow : follow ≠ .anything) (hws : ∀ w ∈ ws, w ∈ keywords) :
    Spares ⟨kind, .firstOf (ws.map fun w => .word w.toList), follow⟩ t := by
  intro n hscan
  obtain ⟨a, ha, hscan⟩ := List.exists_of_findSome?_eq_some hscan
  obtain ⟨w, hw, rfl⟩ := List.mem_map.1 ha
  have hone : Spares ⟨kind, .word w.toList, follow⟩ t := .word hfollow (hws w hw)
  exact hone n hscan

end TokenRule.Spares

open TokenRule in
theorem spares_of_isIdentifier (h : isIdentifier t = true) :
    ∀ rule ∈ tokenRules.take 25, rule.Spares t := by
  have hmark {d : Char} (hd : isNameStart d = false) {kind : TokenKind} :
      Spares ⟨kind, .mark d, .anything⟩ t := .of_none (mark_eq_none h hd)
  have hnumber {as : List Scan} {kind : TokenKind} :
      Spares ⟨kind, .inOrder (Scan.signedDigits :: as), .wordEnd⟩ t :=
    .of_none (inOrder_cons_eq_none (signedDigits_eq_none h))
  have hclock {n : Nat} {as : List Scan} {kind : TokenKind} :
      Spares ⟨kind, .inOrder (Scan.digitCount (n + 1) :: as), .wordEnd⟩ t :=
    .of_none (inOrder_cons_eq_none (digitCount_eq_none h n))
  have hdate : Scan.date t = none := inOrder_cons_eq_none (digitCount_eq_none h 3)
  simp only [tokenRules, List.take_succ_cons, List.take_zero, List.forall_mem_cons]
  exact ⟨.of_none (some1_blank_eq_none h), hmark (by decide), hmark (by decide), hmark (by decide),
    .word (by decide) (by decide), .word (by decide) (by decide), .word (by decide) (by decide),
    .words _ (by decide) (by decide), .words ["true", "false"] (by decide) (by decide),
    .word (by decide) (by decide), .of_none (inOrder_word_eq_none h (by decide)),
    .of_none (inOrder_word_eq_none h (by decide)),
    .of_none (inOrder_mark_eq_none_of_isIdentifier h [.name] (by decide)),
    .of_none (inOrder_cons_eq_none hdate),
    .of_none (inOrder_mark_eq_none_of_isIdentifier h [.exactly 8 Scan.isHexDigit] (by decide)),
    hclock, hclock, hnumber, hnumber, hnumber, hnumber,
    .of_none (inOrder_cons_eq_none (mark_eq_none h (by decide))), .paren,
    .of_none (inOrder_mark_eq_none_of_isIdentifier h [.name] (d := ':') (by decide)), .paren,
    by simp⟩

/-! ## The rule for paths -/

theorem path_of_isIdentifier (h : isIdentifier t = true) : Scan.path t = some t.length := by
  have hname : Scan.name t = some t.length := by
    obtain ⟨c, rest, rfl, hstart⟩ := exists_cons_of_isIdentifier h
    have hrest : rest.takeWhile isNameChar = rest :=
      Scan.takeWhile_eq_self fun d hd => isNameChar_of_mem h (List.mem_cons_of_mem _ hd)
    simp [Scan.name, Scan.inOrder, Scan.one, hstart, Scan.many, hrest, Nat.add_comm]
  simp [Scan.path, Scan.inOrder, hname, Scan.star, Scan.times_zero]

/-- An identifier that is no keyword is a path wherever an operand may stand. -/
theorem spelled_of_isIdentifier (h : isIdentifier t = true) (hword : String.ofList t ∉ keywords) :
    Spelled .propertyPath t := by
  intro r hr
  have hplain : Plain t := plain_of_isIdentifier h
  have hrule : tokenRules[25]? = some ⟨.propertyPath, .path, .wordEnd⟩ := rfl
  -- A delimiter is to a rule what the end of the text is.
  have hparen : Follow.openParen.accepts r = false := by
    have hsame : Follow.openParen.accepts r = Follow.openParen.accepts [] := by
      simpa using Follow.openParen.accepts_of_delimited hr delimited_nil
    rw [hsame]
    rfl
  have hbehind : Follow.wordEnd.accepts r = true := by
    have hsame : Follow.wordEnd.accepts r = Follow.wordEnd.accepts [] := by
      simpa using Follow.wordEnd.accepts_of_delimited hr delimited_nil
    rw [hsame]
    rfl
  refine firstToken?_eq_of_take hrule (fun rule hbefore => ?_) ?_
  · have hmem : rule ∈ tokenRules := List.mem_of_mem_take hbefore
    rw [TokenRule.length?, hplain.scan_append hmem hr.mem_breaks, Option.filter_eq_none_iff]
    intro n hn
    obtain ⟨hfollow, hwhole⟩ := spares_of_isIdentifier h rule hbefore n hn
    have hle : n ≤ t.length := (hplain.confined rule hmem).1 n hn
    rw [List.drop_append_of_le_length hle]
    rcases Nat.lt_or_eq_of_le hle with hlt | heq
    · -- The rule takes a word off the identifier, which goes on behind it.
      have hmore : isNameChar t[n] = true := isNameChar_of_mem h (List.getElem_mem hlt)
      rw [List.drop_eq_getElem_cons hlt, List.cons_append,
        Follow.accepts_of_isNameChar hfollow hmore]
      simp
    · rcases hwhole heq with hfollow | hmem
      · rw [heq, List.drop_length, List.nil_append, hfollow, hparen]
        simp
      · exact absurd hmem hword
  · have hpos : 0 < t.length := by
      obtain ⟨c, rest, rfl, -⟩ := exists_cons_of_isIdentifier h
      exact Nat.succ_pos _
    have hscan : Scan.path (t ++ r) = some t.length := by
      rw [← path_of_isIdentifier h]
      exact hplain.scan_append (List.mem_of_getElem? hrule) hr.mem_breaks
    simp [TokenRule.length?, hscan, Option.filter, hpos, hbehind]

end EntityQuery.Filter
