import EntityQuery.Proofs.Filter.Taking
import EntityQuery.Proofs.Number.PaddedDigits

/-!
# Tokens that begin with a digit or a minus

Numbers, dates, times and identifiers begin alike, and the rules for them are tried one after the
other.  What tells them apart is a character that each of them looks for: the hyphens of a date, the
colons of a time, the `T` between the two, and the letters behind a number.
-/

namespace EntityQuery.Filter

open Number
open Scan (Takes)

variable {rule : TokenRule} {t r cs fraction : List Char} {c d : Char} {width n : Nat}

/-! ## Digits -/

theorem takes_digits (hne : t ≠ []) (ht : ∀ c ∈ t, c.isDigit = true)
    (hr : ∀ d ∈ r.head?, d.isDigit = false) : Takes Scan.digits t r :=
  Scan.takes_some1 hne ht hr

theorem takes_digitCount (hwidth : 0 < width) (h : n < 10 ^ width) :
    Takes (Scan.digitCount width) (paddedDigits width n) r :=
  Scan.takes_exactly (length_paddedDigits h hwidth) fun _ => isDigit_of_mem_paddedDigits

theorem takes_fraction (hne : t ≠ []) (ht : ∀ c ∈ t, c.isDigit = true)
    (hr : ∀ d ∈ r.head?, d.isDigit = false) : Takes Scan.fraction ('.' :: t) r :=
  Takes.mark_cons (Takes.last (takes_digits hne ht hr))

theorem takes_optional_fraction (hfraction : ∀ c ∈ fraction, c.isDigit = true)
    (hr : ∀ d ∈ r.head?, d.isDigit = false ∧ d ≠ '.') :
    Takes (.optional Scan.fraction) (pointed fraction) r := by
  by_cases hempty : fraction = []
  · rw [hempty]
    refine Scan.takes_optional_of_none (inOrder_cons_eq_none (Scan.one_eq_none fun d hd => ?_))
    exact beq_eq_false_iff_ne.2 (hr d hd).2
  · rw [pointed_of_ne_nil hempty]
    exact Takes.optional (takes_fraction hempty hfraction fun d hd => (hr d hd).1)

/-- A text with or without a minus before it. -/
def signed (negative : Bool) (t : List Char) : List Char := if negative then '-' :: t else t

theorem takes_signedDigits (negative : Bool) (hne : t ≠ []) (ht : ∀ c ∈ t, c.isDigit = true)
    (hr : ∀ d ∈ r.head?, d.isDigit = false) : Takes Scan.signedDigits (signed negative t) r := by
  have htail : Takes (.inOrder [Scan.digits]) t r := Takes.last (takes_digits hne ht hr)
  cases negative with
  | true => exact Takes.cons (t := ['-']) (Takes.optional (Scan.takes_mark '-')) htail
  | false =>
      refine Takes.cons (t := []) (Scan.takes_optional_of_none (Scan.one_eq_none ?_)) htail
      obtain ⟨c, rest, rfl⟩ := List.exists_cons_of_ne_nil hne
      intro d hd
      obtain rfl : c = d := Option.some.inj hd
      exact beq_eq_false_iff_ne.2 (ne_of_isDigit (ht c List.mem_cons_self) rfl)

/-! ## Rules that ask for another front -/

/-- A text that begins with a digit or a minus. -/
def NumeralFront (t : List Char) : Prop :=
  ∃ c rest, t = c :: rest ∧ (c.isDigit = true ∨ c = '-')

theorem numeralFront_append (hne : t ≠ []) (ht : ∀ c ∈ t, c.isDigit = true) :
    NumeralFront (t ++ r) := by
  obtain ⟨c, rest, rfl⟩ := List.exists_cons_of_ne_nil hne
  exact ⟨c, rest ++ r, rfl, .inl (ht c List.mem_cons_self)⟩

theorem numeralFront_paddedDigits (width n : Nat) : NumeralFront (paddedDigits width n ++ r) :=
  numeralFront_append (paddedDigits_ne_nil width n) fun _ => isDigit_of_mem_paddedDigits

theorem NumeralFront.ne_nil (h : NumeralFront t) : t ≠ [] := by
  obtain ⟨c, rest, rfl, -⟩ := h
  exact List.cons_ne_nil c rest

theorem NumeralFront.ne_head (h : NumeralFront t) (hd : d.isDigit = false) (hminus : d ≠ '-') :
    ∀ c ∈ t.head?, c ≠ d := by
  obtain ⟨c, rest, rfl, hc⟩ := h
  intro b hb
  obtain rfl : c = b := Option.some.inj hb
  rintro rfl
  rcases hc with hdigit | heq
  · rw [hdigit] at hd
    cases hd
  · exact hminus heq

theorem NumeralFront.word_eq_none {w : List Char} (h : NumeralFront t)
    (hw : (w.head?.any fun d => !d.isDigit && d != '-') = true) : Scan.word w t = none := by
  cases w with
  | nil => cases hw
  | cons d w =>
      obtain ⟨hdigit, hminus⟩ := Bool.and_eq_true_iff.1 hw
      have hne := h.ne_head (by simpa using hdigit) (bne_iff_ne.1 hminus)
      obtain ⟨c, rest, rfl, -⟩ := h
      have hcd : (d == c) = false := beq_eq_false_iff_ne.2 fun heq => hne c rfl heq.symm
      simp [Scan.word, List.isPrefixOf, hcd]

theorem NumeralFront.isNameStart_eq_false (h : NumeralFront t) :
    ∀ c ∈ t.head?, Scan.isNameStart c = false := by
  obtain ⟨c, rest, rfl, hc⟩ := h
  intro b hb
  obtain rfl : c = b := Option.some.inj hb
  rw [Bool.eq_false_iff]
  intro hstart
  have hdigit := isDigit_of_isNameStart hstart
  rcases hc with hc | rfl
  · rw [hc] at hdigit
    cases hdigit
  · cases hstart

theorem NumeralFront.isAsciiBlank_eq_false (h : NumeralFront t) :
    ∀ c ∈ t.head?, Text.isAsciiBlank c = false := by
  obtain ⟨c, rest, rfl, hc⟩ := h
  intro b hb
  obtain rfl : c = b := Option.some.inj hb
  rw [Bool.eq_false_iff]
  intro hblank
  rcases hc with hc | rfl
  · have hnone := isBlank_of_isDigit hc
    rw [Text.isBlank_of_isAsciiBlank hblank] at hnone
    cases hnone
  · cases hblank

/-- No mark, word or quoted literal begins with a digit or a minus. -/
theorem NumeralFront.length?_eq_none (h : NumeralFront t) :
    ∀ rule ∈ tokenRules.take 13, rule.length? t = none := by
  have hmark {d : Char} (hd : d.isDigit = false) (hminus : d ≠ '-') : Scan.mark d t = none :=
    Scan.one_eq_none fun c hc => beq_eq_false_iff_ne.2 (h.ne_head hd hminus c hc)
  have hwords (ws : List String)
      (hws : (ws.all fun w => w.toList.head?.any fun d => !d.isDigit && d != '-') = true) :
      Scan.firstOf (ws.map fun w => .word w.toList) t = none := by
    rw [Scan.firstOf, List.findSome?_eq_none_iff]
    intro a ha
    obtain ⟨w, hw, rfl⟩ := List.mem_map.1 ha
    exact h.word_eq_none (List.all_eq_true.1 hws w hw)
  have hname : Scan.name t = none := inOrder_cons_eq_none (Scan.one_eq_none h.isNameStart_eq_false)
  intro rule hrule
  refine TokenRule.length?_eq_none ?_
  revert rule
  simp only [tokenRules, List.take_succ_cons, List.take_zero, List.forall_mem_cons]
  exact ⟨Scan.some1_eq_none h.isAsciiBlank_eq_false, hmark rfl (by decide), hmark rfl (by decide),
    hmark rfl (by decide), h.word_eq_none rfl, h.word_eq_none rfl, h.word_eq_none rfl, hwords _ rfl,
    hwords ["true", "false"] rfl, h.word_eq_none rfl, inOrder_cons_eq_none (h.word_eq_none rfl),
    inOrder_cons_eq_none (h.word_eq_none rfl), inOrder_cons_eq_none hname, by simp⟩

/-! ## Rules that look for a character -/

theorem dateTime_eq_none (h : 'T' ∉ t) : Scan.dateTime t = none :=
  Scan.inOrder_mark_eq_none_of_not_mem [Scan.date] h

theorem time_eq_none (h : ':' ∉ t) : Scan.time t = none :=
  Scan.inOrder_mark_eq_none_of_not_mem [Scan.digitCount 2] h

theorem decimal_eq_none (h : ∀ c ∈ ['m', 'M'], c ∉ t) : Scan.decimal t = none :=
  Scan.inOrder_markOf_eq_none_of_not_mem [.signedDigits, .optional .fraction] h

theorem single_eq_none (h : ∀ c ∈ ['f', 'F'], c ∉ t) : Scan.single t = none :=
  Scan.inOrder_markOf_eq_none_of_not_mem [.signedDigits, .optional .fraction, .optional .exponent] h

/-- A double has an exponent, a fraction or a letter. -/
theorem double_eq_none (h : ∀ c ∈ ['.', 'e', 'E', 'd', 'D'], c ∉ t) : Scan.double t = none := by
  have hone {p : Char → Bool} (hp : ∀ c, p c = true → c ∈ ['.', 'e', 'E', 'd', 'D']) (n : Nat) :
      Scan.one p (t.drop n) = none := by
    refine Scan.one_eq_none fun c hc => ?_
    rw [Bool.eq_false_iff]
    exact fun htrue => h c (hp c htrue) (List.mem_of_mem_drop (List.mem_of_mem_head? hc))
  have hletter (n : Nat) : Scan.markOf ['d', 'D'] (t.drop n) = none :=
    hone (fun c hc => by simp at hc ⊢; tauto) n
  have hfraction (n : Nat) : Scan.fraction (t.drop n) = none :=
    inOrder_cons_eq_none (hone (fun c hc => by simp at hc ⊢; tauto) n)
  have hexponent (n : Nat) : Scan.exponent (t.drop n) = none :=
    inOrder_cons_eq_none (hone (fun c hc => by simp at hc ⊢; tauto) n)
  refine Scan.inOrder_eq_none [Scan.signedDigits] fun n => ?_
  rw [Scan.firstOf, List.findSome?_eq_none_iff]
  simp only [List.forall_mem_cons]
  refine ⟨Scan.inOrder_eq_none [.optional Scan.fraction] fun m => ?_,
    inOrder_cons_eq_none (hfraction n), hletter n, by simp⟩
  rw [List.drop_drop]
  exact hexponent _

/-- A number that may have a minus before it but has no other. -/
structure Plainly (body : List Char) : Prop where
  front : ∃ c rest, body = c :: rest ∧ c.isDigit = true
  mem : ∀ c ∈ body, c ≠ '-' ∧ c ≠ 'T' ∧ c ≠ ':'

theorem Plainly.numeralFront (h : Plainly t) (negative : Bool) :
    NumeralFront (signed negative t) := by
  obtain ⟨c, rest, rfl, hc⟩ := h.front
  cases negative with
  | true => exact ⟨'-', _, rfl, .inr rfl⟩
  | false => exact ⟨c, rest, rfl, .inl hc⟩

/-- A scanner that begins with digits cannot take a hyphen behind the front. -/
theorem Plainly.exactly_dash_eq_none {p : Char → Bool} (h : Plainly t) (hp : p '-' = false)
    (negative : Bool) (n : Nat) (as : List Scan) :
    Scan.inOrder (.exactly (n + 1) p :: .mark '-' :: as) (signed negative t) = none := by
  cases negative with
  | true => exact inOrder_cons_eq_none (exactly_cons_eq_none hp n t)
  | false =>
      exact Scan.inOrder_mark_eq_none_of_not_mem [.exactly (n + 1) p]
        fun hmem => (h.mem '-' hmem).1 rfl

theorem Plainly.length?_eq_none (h : Plainly t) (negative : Bool) :
    ∀ rule ∈ tokenRules.take 17, rule.length? (signed negative t) = none := by
  have hsigned {c : Char} (hminus : c ≠ '-') (ht : c ∉ t) : c ∉ signed negative t := by
    cases negative with
    | true => exact fun hmem => (List.mem_cons.1 hmem).elim hminus ht
    | false => exact ht
  have hsplit : tokenRules.take 17 = tokenRules.take 13 ++ [⟨.dateTimeOffset, .dateTime, .wordEnd⟩,
      ⟨.guid, .guid, .wordEnd⟩, ⟨.date, .date, .wordEnd⟩, ⟨.timeOfDay, .time, .wordEnd⟩] := rfl
  rw [hsplit, List.forall_mem_append]
  refine ⟨(h.numeralFront negative).length?_eq_none, ?_⟩
  simp only [List.forall_mem_cons]
  exact ⟨TokenRule.length?_eq_none (dateTime_eq_none (hsigned (by decide)
      fun hmem => (h.mem _ hmem).2.1 rfl)),
    TokenRule.length?_eq_none (h.exactly_dash_eq_none rfl negative 7 _),
    TokenRule.length?_eq_none (h.exactly_dash_eq_none rfl negative 3 _),
    TokenRule.length?_eq_none (time_eq_none (hsigned (by decide)
      fun hmem => (h.mem _ hmem).2.2 rfl)), by simp⟩

/-! ## Numbers -/

theorem signed_append (negative : Bool) (t r : List Char) :
    signed negative t ++ r = signed negative (t ++ r) := by
  cases negative <;> rfl

theorem plainly_append (hne : t ≠ []) (ht : ∀ c ∈ t, c.isDigit = true)
    (hr : ∀ c ∈ r, c ≠ '-' ∧ c ≠ 'T' ∧ c ≠ ':') : Plainly (t ++ r) where
  front := by
    obtain ⟨c, rest, rfl⟩ := List.exists_cons_of_ne_nil hne
    exact ⟨c, rest ++ r, rfl, ht c List.mem_cons_self⟩
  mem := by
    intro c hc
    rcases List.mem_append.1 hc with hc | hc
    · exact ⟨ne_of_isDigit (ht c hc) rfl, ne_of_isDigit (ht c hc) rfl, ne_of_isDigit (ht c hc) rfl⟩
    · exact hr c hc

/-- Digits and a fraction, with a minus or none, and the letter of decimals. -/
theorem firstToken?_decimal (negative : Bool) (hne : t ≠ []) (ht : ∀ c ∈ t, c.isDigit = true)
    (hfraction : ∀ c ∈ fraction, c.isDigit = true) :
    firstToken? (signed negative t ++ (pointed fraction ++ ['M'])) =
      some (.decimal, (signed negative t ++ (pointed fraction ++ ['M'])).length) := by
  have hbehind : ∀ c ∈ pointed fraction ++ ['M'], c ≠ '-' ∧ c ≠ 'T' ∧ c ≠ ':' := by
    intro c hc
    rcases List.mem_append.1 hc with hc | hc
    · rcases mem_pointed hc with rfl | hc
      · decide
      · have hdigit := hfraction c hc
        exact ⟨ne_of_isDigit hdigit rfl, ne_of_isDigit hdigit rfl, ne_of_isDigit hdigit rfl⟩
    · obtain rfl := List.mem_singleton.1 hc
      decide
  have hhead : ∀ d ∈ (pointed fraction ++ ['M'] ++ []).head?, d.isDigit = false := by
    unfold pointed
    split <;> simp
  have hrule : tokenRules[17]? = some ⟨.decimal, .decimal, .wordEnd⟩ := rfl
  refine firstToken?_of_takes hrule ?_ (by decide) (by simp) ?_
  · rw [signed_append]
    exact (plainly_append hne ht hbehind).length?_eq_none negative
  · refine Takes.cons (takes_signedDigits negative hne ht hhead) (Takes.cons ?_
      (Takes.last (Scan.takes_one rfl)))
    exact takes_optional_fraction hfraction (by simp)

theorem not_mem_integer {negative long : Bool} (ht : ∀ c ∈ t, c.isDigit = true)
    (hd : d.isDigit = false ∧ d ≠ '-' ∧ d ≠ 'L') :
    d ∉ signed negative t ++ (if long then ['L'] else []) := by
  have hdigits : d ∉ t := by
    intro hmem
    rw [ht d hmem] at hd
    cases hd.1
  cases negative <;> cases long <;> simp [signed, hdigits, hd.2.1, hd.2.2]

/-- Digits with a minus or none, and the letter of long integers or none. -/
theorem firstToken?_integer (negative long : Bool) (hne : t ≠ [])
    (ht : ∀ c ∈ t, c.isDigit = true) :
    firstToken? (signed negative t ++ (if long then ['L'] else [])) =
      some (.integer, (signed negative t ++ (if long then ['L'] else [])).length) := by
  have hletter : ∀ c ∈ (if long then ['L'] else []), c ≠ '-' ∧ c ≠ 'T' ∧ c ≠ ':' := by
    cases long <;> simp
  have hfront : ∀ rule ∈ tokenRules.take 17,
      rule.length? (signed negative t ++ (if long then ['L'] else [])) = none := by
    rw [signed_append]
    exact (plainly_append hne ht hletter).length?_eq_none negative
  have hnot {ds : List Char} (hds : ∀ d ∈ ds, d.isDigit = false ∧ d ≠ '-' ∧ d ≠ 'L') :
      ∀ d ∈ ds, d ∉ signed negative t ++ (if long then ['L'] else []) :=
    fun d hd => not_mem_integer ht (hds d hd)
  have hhead : ∀ d ∈ ((if long then ['L'] else []) ++ []).head?, d.isDigit = false := by
    cases long <;> simp
  have hrule : tokenRules[20]? = some ⟨.integer, .integer, .wordEnd⟩ := rfl
  have hsplit : tokenRules.take 20 = tokenRules.take 17 ++ [⟨.decimal, .decimal, .wordEnd⟩,
      ⟨.single, .single, .wordEnd⟩, ⟨.double, .double, .wordEnd⟩] := rfl
  refine firstToken?_of_takes hrule ?_ (by decide) ?_ ?_
  · rw [hsplit, List.forall_mem_append]
    refine ⟨hfront, ?_⟩
    simp only [List.forall_mem_cons]
    exact ⟨TokenRule.length?_eq_none (decimal_eq_none (hnot (by decide))),
      TokenRule.length?_eq_none (single_eq_none (hnot (by decide))),
      TokenRule.length?_eq_none (double_eq_none (hnot (by decide))), by simp⟩
  · cases negative <;> simp [signed, hne]
  · refine Takes.cons (takes_signedDigits negative hne ht hhead) ?_
    cases long with
    | true => exact Takes.last (Takes.optional (Scan.takes_one rfl))
    | false => exact Takes.last (Scan.takes_optional_of_none rfl)

end EntityQuery.Filter
