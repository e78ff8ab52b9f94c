import EntityQuery.Proofs.Filter.Scanners

/-!
# What the rules of the tokenizer look at

A printed filter puts other characters behind its tokens than the text it was read from.  This file
shows which of them a rule cannot tell from the end of the text: parentheses, commas and blanks for
all rules that do not take quoted text, and the colon behind the parameter of a lambda.
-/

namespace EntityQuery.Filter

/-- The characters that may stand behind an operand. -/
def delimiters : List Char := [' ', '\t', '\n', '\x0b', '\x0c', '\r', ')', ',']

/-- The delimiters, and the parenthesis that opens a call or a lambda. -/
def breaks : List Char := '(' :: delimiters

/-- Characters that no clock time contains. -/
def timeStrangers : List Char := Scan.quote :: breaks

/-- Characters that no name, word or number contains. -/
def strangers : List Char := ':' :: timeStrangers

namespace Scan

/-! ## Scanners of words, numbers and names -/

theorem avoids_name : Avoids strangers name :=
  .cons (.one (by decide)) (.cons (.many (by decide)) .nil)

theorem avoids_path : Avoids strangers path :=
  .cons avoids_name (.cons (.star (.cons (.one (by decide)) (.cons avoids_name .nil))) .nil)

theorem avoids_operator : Avoids strangers operator := by
  refine .firstOf (List.forall_mem_map.2 fun w hw => .word ?_)
  revert w
  decide

theorem avoids_truth : Avoids strangers truth :=
  .choice (.word (by decide)) (.choice (.word (by decide)) .noChoice)

theorem avoids_digits : Avoids strangers digits := .some1 (by decide)

theorem avoids_digitCount (n : Nat) : Avoids strangers (digitCount n) := .exactly (by decide)

theorem avoids_fraction : Avoids strangers fraction :=
  .cons (.one (by decide)) (.cons avoids_digits .nil)

theorem avoids_date : Avoids strangers date :=
  .cons (avoids_digitCount 4) (.cons (.one (by decide)) (.cons (avoids_digitCount 2)
    (.cons (.one (by decide)) (.cons (avoids_digitCount 2) .nil))))

theorem avoids_guid : Avoids strangers guid := by
  have hhex (n : Nat) : Avoids strangers (exactly n isHexDigit) := .exactly (by decide)
  have hdash : Avoids strangers (mark '-') := .one (by decide)
  exact .cons (hhex 8) (.cons hdash (.cons (hhex 4) (.cons hdash (.cons (hhex 4) (.cons hdash
    (.cons (hhex 4) (.cons hdash (.cons (hhex 12) .nil))))))))

theorem avoids_signedDigits : Avoids strangers signedDigits :=
  .cons (.optional (.one (by decide))) (.cons avoids_digits .nil)

theorem avoids_exponent : Avoids strangers exponent :=
  .cons (.one (by decide)) (.cons (.optional (.one (by decide))) (.cons avoids_digits .nil))

theorem avoids_decimal : Avoids strangers decimal :=
  .cons avoids_signedDigits (.cons (.optional avoids_fraction) (.cons (.one (by decide)) .nil))

theorem avoids_single : Avoids strangers single :=
  .cons avoids_signedDigits (.cons (.optional avoids_fraction) (.cons (.optional avoids_exponent)
    (.cons (.one (by decide)) .nil)))

theorem avoids_double : Avoids strangers double := by
  have hletter : Avoids strangers (markOf ['d', 'D']) := .one (by decide)
  refine .cons avoids_signedDigits
    (.cons (.choice ?_ (.choice ?_ (.choice hletter .noChoice))) .nil)
  · exact .cons (.optional avoids_fraction) (.cons avoids_exponent (.cons (.optional hletter) .nil))
  · exact .cons avoids_fraction (.cons (.optional hletter) .nil)

theorem avoids_integer : Avoids strangers integer :=
  .cons avoids_signedDigits (.cons (.optional (.one (by decide))) .nil)

/-! ## Scanners that take colons -/

theorem timeStrangers_subset : ∀ d ∈ timeStrangers, d ∈ strangers :=
  fun _ hd => List.mem_cons_of_mem _ hd

theorem avoids_time : Avoids timeStrangers time := by
  have hcount : Avoids timeStrangers (digitCount 2) :=
    (avoids_digitCount 2).mono timeStrangers_subset
  have hcolon : Avoids timeStrangers (mark ':') := .one (by decide)
  have hfraction := avoids_fraction.mono timeStrangers_subset
  exact .cons hcount (.cons hcolon (.cons hcount (.cons (.optional
    (.cons hcolon (.cons hcount (.cons (.optional hfraction) .nil)))) .nil)))

theorem avoids_dateTime : Avoids timeStrangers dateTime := by
  have hcount : Avoids timeStrangers (digitCount 2) :=
    (avoids_digitCount 2).mono timeStrangers_subset
  have hoffset : Avoids timeStrangers offset :=
    .choice (.one (by decide)) (.choice (.cons (.one (by decide)) (.cons hcount
      (.cons (.one (by decide)) (.cons hcount .nil)))) .noChoice)
  exact .cons (avoids_date.mono timeStrangers_subset) (.cons (.one (by decide))
    (.cons avoids_time (.cons (.optional hoffset) .nil)))

theorem avoids_parameter : Avoids timeStrangers parameter :=
  .cons (avoids_name.mono timeStrangers_subset) (.cons (.one (by decide)) .nil)

/-! ## Scanners of quoted literals -/

variable {t r w ds : List Char} {as bs : List Scan}

theorem word_eq_none (hw : quote ∈ w) (ht : quote ∉ t) (hr : ∀ d ∈ r.head?, d ∉ w) :
    word w (t ++ r) = none := by
  have hfalse : w.isPrefixOf t = false := by
    rw [Bool.eq_false_iff]
    intro hprefix
    exact ht ((List.isPrefixOf_iff_prefix.1 hprefix).subset hw)
  have hmore : w.isPrefixOf (t ++ r) = w.isPrefixOf t := by
    cases r with
    | nil => rw [List.append_nil]
    | cons d r => exact isPrefixOf_append_cons (hr d rfl)
  simp [word, hmore, hfalse]

/-- Without a quotation mark to be found, what precedes one is taken in vain. -/
theorem inOrder_mark_eq_none (has : Avoids ds (inOrder as)) (ht : quote ∉ t)
    (hr : ∀ d ∈ r.head?, d ∈ ds ∧ d ≠ quote) :
    inOrder (as ++ mark quote :: bs) (t ++ r) = none := by
  have hstops : inOrder as (t ++ r) = inOrder as t := by
    cases r with
    | nil => rw [List.append_nil]
    | cons d r => exact has.stopsAt (hr d rfl).1 t r
  rw [inOrder_append, hstops]
  cases htaken : inOrder as t with
  | none => rfl
  | some n =>
      have hle : n ≤ t.length := has.bounded htaken
      -- The scanners before the mark end within the text or at its end; neither place is a mark.
      have hmark : mark quote ((t ++ r).drop n) = none := by
        rw [List.drop_append_of_le_length hle]
        cases htail : t.drop n with
        | cons c tail =>
            have hmem : c ∈ t := List.mem_of_mem_drop (htail ▸ List.mem_cons_self)
            have hc : c ≠ quote := fun heq => ht (heq ▸ hmem)
            simp [mark, one, hc]
        | nil =>
            cases r with
            | nil => rfl
            | cons d r => simp [mark, one, (hr d rfl).2]
      simp [inOrder, hmark]

end Scan

/-! ## What a rule sees behind a text -/

/-- Nothing that begins with one of the given characters behind a text is seen by a scanner. -/
def Confined (ds t : List Char) (a : Scan) : Prop :=
  (∀ n, a t = some n → n ≤ t.length) ∧ ∀ d ∈ ds, ∀ rest, a (t ++ d :: rest) = a t

theorem Scan.Avoids.confined {es ds t : List Char} {a : Scan} (h : Scan.Avoids es a)
    (hsub : ∀ d ∈ ds, d ∈ es) : Confined ds t a :=
  ⟨fun _ hn => h.bounded hn, fun _ hd rest => h.stopsAt (hsub _ hd) t rest⟩

/-- A text that is neither blank at its front nor quoted. -/
structure Plain (t : List Char) : Prop where
  front : ∃ c rest, t = c :: rest ∧ Text.isAsciiBlank c = false
  quote : Scan.quote ∉ t

/-- The characters behind a text that a rule does not see. -/
def TokenRule.hidden (rule : TokenRule) : List Char :=
  match rule.kind with
  | .dateTimeOffset | .timeOfDay | .lambdaParameter => breaks
  | _ => ':' :: breaks

variable {t ds : List Char}

theorem Plain.confined_one (ht : Plain t) (ds : List Char) (p : Char → Bool) :
    Confined ds t (.one p) := by
  obtain ⟨c, rest, rfl, -⟩ := ht.front
  refine ⟨fun n hn => ?_, fun d _ more => rfl⟩
  rw [Scan.one] at hn
  split at hn
  · obtain rfl := Option.some.inj hn
    simp
  · cases hn

theorem confined_of_eq_none {ds : List Char} {a : Scan}
    (h : ∀ r : List Char, (∀ d ∈ r.head?, d ∈ ds) → a (t ++ r) = none) : Confined ds t a := by
  have hnone : a t = none := by simpa using h [] (by simp)
  refine ⟨fun n hn => ?_, fun d hd rest => ?_⟩
  · rw [hnone] at hn
    cases hn
  · rw [hnone]
    exact h (d :: rest) (by simpa using hd)

theorem Plain.confined_blank (ht : Plain t) (ds : List Char) :
    Confined ds t (.some1 Text.isAsciiBlank) := by
  obtain ⟨c, rest, rfl, hc⟩ := ht.front
  refine confined_of_eq_none fun r _ => ?_
  simp [Scan.some1, hc]

theorem Plain.confined_text (ht : Plain t) (ds : List Char) : Confined ds t Scan.text := by
  obtain ⟨c, rest, rfl, -⟩ := ht.front
  have hc : c ≠ Scan.quote := fun heq => ht.quote (by simp [heq])
  refine confined_of_eq_none fun r _ => ?_
  simp [Scan.text, Scan.inOrder, Scan.mark, Scan.one, hc]

theorem Plain.confined_word (ht : Plain t) {w : List Char} {as : List Scan} {ds : List Char}
    (hw : Scan.quote ∈ w) (hds : ∀ d ∈ ds, d ∉ w) : Confined ds t (.inOrder (.word w :: as)) := by
  refine confined_of_eq_none fun r hr => ?_
  rw [Scan.inOrder, Scan.word_eq_none hw ht.quote fun d hd => hds d (hr d hd)]
  rfl

theorem Plain.confined_enumeration (ht : Plain t) : Confined (':' :: breaks) t .enumeration := by
  have hname : Scan.Avoids (':' :: breaks) .name := Scan.avoids_name.mono (by decide)
  have hdot : Scan.Avoids (':' :: breaks) (.mark '.') := .one (by decide)
  have hbefore : Scan.Avoids (':' :: breaks)
      (.inOrder [.name, .mark '.', .name, .star (.inOrder [.mark '.', .name])]) :=
    .cons hname (.cons hdot (.cons hname (.cons (.star (.cons hdot (.cons hname .nil))) .nil)))
  have hne : ∀ d ∈ ':' :: breaks, d ≠ Scan.quote := by decide
  refine confined_of_eq_none fun r hr => ?_
  exact Scan.inOrder_mark_eq_none hbefore ht.quote fun d hd => ⟨hr d hd, hne d (hr d hd)⟩

theorem confined_lambda (hds : ∀ d ∈ ds, d ∈ strangers) : Confined ds t Scan.lambda := by
  have hpath : Confined ds t Scan.path := Scan.avoids_path.confined hds
  refine ⟨fun n hn => ?_, fun d hd rest => ?_⟩
  · exact hpath.1 n (Option.filter_eq_some_iff.1 hn).1
  · rw [Scan.lambda, Scan.lambda, hpath.2 d hd rest]
    cases htaken : Scan.path t with
    | none => rfl
    | some n =>
        have hle : n ≤ t.length := hpath.1 n htaken
        simp only [Option.filter, List.take_append_of_le_length hle]

theorem Plain.confined (ht : Plain t) : ∀ rule ∈ tokenRules, Confined rule.hidden t rule.scan := by
  have hsub : ∀ d ∈ ':' :: breaks, d ∈ strangers := by decide
  have htime : ∀ d ∈ breaks, d ∈ timeStrangers := by decide
  have hword {w : List Char} (hw : ∀ d ∈ ':' :: breaks, d ∉ w) :
      Confined (':' :: breaks) t (.word w) :=
    (Scan.Avoids.word hw).confined fun _ hd => hd
  simp only [tokenRules, List.forall_mem_cons]
  exact ⟨ht.confined_blank _, ht.confined_one _ _, ht.confined_one _ _, ht.confined_one _ _,
    hword (by decide), hword (by decide), hword (by decide), Scan.avoids_operator.confined hsub,
    Scan.avoids_truth.confined hsub, hword (by decide), ht.confined_word (by decide) (by decide),
    ht.confined_word (by decide) (by decide), ht.confined_enumeration,
    Scan.avoids_dateTime.confined htime, Scan.avoids_guid.confined hsub,
    Scan.avoids_date.confined hsub, Scan.avoids_time.confined htime,
    Scan.avoids_decimal.confined hsub, Scan.avoids_single.confined hsub,
    Scan.avoids_double.confined hsub, Scan.avoids_integer.confined hsub, ht.confined_text _,
    confined_lambda hsub, Scan.avoids_parameter.confined htime, Scan.avoids_name.confined hsub,
    Scan.avoids_path.confined hsub, by simp⟩

end EntityQuery.Filter
