import EntityQuery.Expression.Literal
import EntityQuery.Proofs.Filter.Numerals
import EntityQuery.Proofs.Text.Base64
import EntityQuery.Proofs.Time.DurationText

/-!
# Literals between quotation marks behind a word

The text of a duration is put between quotation marks behind its word to make a literal of it.  The
scanner of durations knows the order of the components, but not which of them are there; where one
is missing it looks at the number of the next one and goes back.
-/

namespace EntityQuery

open EntityQuery.Filter Number
open EntityQuery.Filter.Scan (quote Takes)

variable {t r rest number : List Char} {c d unit : Char} {n : Nat}

/-! ## Words before quotation marks -/

/-- A word and a text between quotation marks. -/
def quotedLiteral (word text : String) : String := word ++ "'" ++ text ++ "'"

theorem toList_quotedLiteral (word text : String) :
    (quotedLiteral word text).toList = word.toList ++ quote :: (text.toList ++ [quote]) := by
  simp [quotedLiteral, String.toList_append, quote]

/-- The marks and words before the quoted literals are told from their words. -/
theorem length?_word_quote {word : List Char}
    (hword : ∀ rule ∈ tokenRules.take 10, rule.length? (word ++ [quote]) = none) :
    ∀ rule ∈ tokenRules.take 10, rule.length? (word ++ quote :: rest) = none :=
  fun rule hrule => (length?_cons_of_take hrule (by simp)).trans (hword rule hrule)

theorem quotedBody?_quotedLiteral (word text : String) :
    Literal.quotedBody? word (quotedLiteral word text).toList = some text.toList := by
  have hprefix : word.toList.isPrefixOf (quotedLiteral word text).toList = true := by
    rw [toList_quotedLiteral]
    exact List.isPrefixOf_iff_prefix.2 (List.prefix_append _ _)
  rw [Literal.quotedBody?, if_pos hprefix, toList_quotedLiteral, ← String.length_toList,
    List.drop_left]
  simp [quote, Literal.quote]

/-! ## Bytes -/

theorem isBase64Char_base64Char (h : n < 64) : Scan.isBase64Char (Text.base64Char n) = true := by
  have hall : ∀ m < 64, Scan.isBase64Char (Text.base64Char m) = true := by decide
  exact hall n h

theorem takes_padding {padding : List Char} (h : padding ∈ [[], ['='], ['=', '=']]) :
    Takes (.inOrder [.optional (.mark '='), .optional (.mark '='), .mark quote])
      (padding ++ [quote]) r := by
  have hnone (r : List Char) : Takes (.optional (.mark '=')) [] (quote :: r) :=
    Scan.takes_optional_of_none (Scan.one_eq_none (by simp [quote]))
  have hsign {as : List Scan} {t : List Char} (h : Takes (.inOrder as) t r) :
      Takes (.inOrder (.optional (.mark '=') :: as)) ('=' :: t) r :=
    Takes.cons (t := ['=']) (Takes.optional (Scan.takes_mark '=')) h
  have hlast : Takes (.inOrder [.mark quote]) [quote] r := Takes.last (Scan.takes_mark quote)
  have hone : Takes (.inOrder [.optional (.mark '='), .mark quote]) [quote] r :=
    Takes.cons (hnone r) hlast
  simp only [List.mem_cons, List.not_mem_nil, or_false] at h
  rcases h with rfl | rfl | rfl
  · exact Takes.cons (hnone r) hone
  · exact hsign hone
  · exact hsign (hsign hlast)

theorem takes_binary (bytes : List UInt8) :
    Takes Scan.binary
      (quotedLiteral "binary" (String.ofList (Text.base64Encode bytes))).toList r := by
  obtain ⟨body, padding, hencode, hbody, hpadding⟩ := Text.exists_base64Encode bytes
  have hword : (quotedLiteral "binary" (String.ofList (Text.base64Encode bytes))).toList =
      "binary'".toList ++ (body ++ (padding ++ [quote])) := by
    have htext : (String.ofList (body ++ padding)).toList = body ++ padding := String.toList_ofList
    rw [toList_quotedLiteral, hencode, htext, List.append_assoc]
    rfl
  have hchars : ∀ c ∈ body, Scan.isBase64Char c = true := by
    intro c hc
    obtain ⟨n, hn, rfl⟩ := hbody c hc
    exact isBase64Char_base64Char hn
  have hbehind : ∀ d ∈ (padding ++ [quote] ++ r).head?, Scan.isBase64Char d = false := by
    simp only [List.mem_cons, List.not_mem_nil, or_false] at hpadding
    rcases hpadding with rfl | rfl | rfl <;> simp [quote, Scan.isBase64Char, Char.isAlphanum]
  rw [hword]
  exact Takes.cons (Scan.takes_word _) (Takes.cons (Scan.takes_many hchars hbehind)
    (takes_padding hpadding))

theorem firstToken?_binary_quotedLiteral (bytes : List UInt8) :
    firstToken? (quotedLiteral "binary" (String.ofList (Text.base64Encode bytes))).toList =
      some (.binary,
        (quotedLiteral "binary" (String.ofList (Text.base64Encode bytes))).toList.length) := by
  have hrule : tokenRules[10]? = some ⟨.binary, .binary, .anything⟩ := rfl
  have hword : ∀ rule ∈ tokenRules.take 10, rule.length? ("binary".toList ++ [quote]) = none := by
    decide
  refine firstToken?_of_takes hrule ?_ (by decide) ?_ (takes_binary bytes)
  · rw [toList_quotedLiteral]
    exact length?_word_quote hword
  · rw [toList_quotedLiteral]
    simp

/-! ## Scanning durations -/

namespace Duration

/-- In front of a text, the component of a unit is missing: there is the number of another one, or
none at all. -/
def Missing (unit : Char) (r : List Char) : Prop :=
  ∃ number d rest, r = number ++ d :: rest ∧ (∀ c ∈ number, c.isDigit = true) ∧
    d.isDigit = false ∧ d ≠ unit

theorem missing_cons (hd : d.isDigit = false) (hunit : d ≠ unit) : Missing unit (d :: rest) :=
  ⟨[], d, rest, rfl, by simp, hd, hunit⟩

theorem missing_digits (n : Nat) (hd : d.isDigit = false) (hunit : d ≠ unit) :
    Missing unit (digits n ++ d :: rest) :=
  ⟨digits n, d, rest, rfl, fun _ => isDigit_of_mem_digits, hd, hunit⟩

theorem Missing.component (h : Missing unit r) (hc : c.isDigit = false) (hunit : c ≠ unit) :
    Missing unit ((component n (String.singleton c)).toList ++ r) := by
  rw [Duration.component]
  split
  · rw [String.toList_append, String.toList_singleton, ← digits_eq_toString, List.append_assoc]
    exact missing_digits n hc hunit
  · exact h

theorem takes_component (hunit : unit.isDigit = false) (hr : Missing unit r) :
    Takes (Scan.component unit) (component n (String.singleton unit)).toList r := by
  rw [component]
  split
  · rw [String.toList_append, String.toList_singleton, ← digits_eq_toString]
    refine Takes.optional (Takes.cons ?_ (Takes.last (Scan.takes_mark unit)))
    exact takes_digits (digits_ne_nil n) (fun _ => isDigit_of_mem_digits) (by simpa using hunit)
  · obtain ⟨number, d, rest, rfl, hnumber, hd, hne⟩ := hr
    refine Scan.takes_optional_of_none ?_
    have hmark : Scan.mark unit (d :: rest) = none := Scan.one_eq_none (by simpa using hne)
    by_cases hempty : number = []
    · rw [hempty]
      exact inOrder_cons_eq_none (Scan.some1_eq_none (by simpa using hd))
    · have hdigits : Takes Scan.digits number (d :: rest) :=
        takes_digits hempty hnumber (by simpa using hd)
      rw [Scan.inOrder, hdigits, Option.bind_some, List.drop_left, Scan.inOrder, hmark]
      rfl

/-- The scanner of the seconds, with or without a fraction. -/
def seconds : Scan := .optional (.inOrder [Scan.digits, .optional Scan.fraction, .mark 'S'])

theorem takes_seconds {hours minutes seconds nanos : Nat} (hnanos : nanos < 10 ^ (9 : Nat)) :
    Takes Duration.seconds (secondsText hours minutes seconds nanos).toList (quote :: r) := by
  have hmark (r : List Char) : Takes (.inOrder [.mark 'S']) ['S'] r :=
    Takes.last (Scan.takes_mark 'S')
  obtain ⟨hpos, htext⟩ | ⟨-, htext⟩ | ⟨-, -, -, htext⟩ :=
    secondsText_cases hours minutes seconds nanos
  · have hfraction : fractionDigits nanos ≠ [] := fractionDigits_ne_nil hpos hnanos
    rw [htext, List.append_assoc]
    refine Takes.optional (Takes.cons ?_ (Takes.cons (Takes.optional ?_) (hmark _)))
    · exact takes_digits (digits_ne_nil _) (fun _ => isDigit_of_mem_digits) (by simp)
    · exact takes_fraction hfraction (fun _ => isDigit_of_mem_fractionDigits) (by simp)
  · rw [htext]
    refine Takes.optional (Takes.cons ?_ (Takes.cons (t := []) ?_ (hmark _)))
    · exact takes_digits (digits_ne_nil _) (fun _ => isDigit_of_mem_digits) (by simp)
    · exact Scan.takes_optional_of_none (inOrder_cons_eq_none (Scan.one_eq_none (by simp)))
  · rw [htext]
    exact Scan.takes_optional_of_none (inOrder_cons_eq_none (Scan.some1_eq_none (by simp [quote])))

theorem missing_seconds {hours minutes seconds nanos : Nat}
    (hunit : '.' ≠ unit ∧ 'S' ≠ unit ∧ quote ≠ unit) :
    Missing unit ((secondsText hours minutes seconds nanos).toList ++ quote :: r) := by
  obtain ⟨hpoint, hS, hquote⟩ := hunit
  obtain ⟨-, htext⟩ | ⟨-, htext⟩ | ⟨-, -, -, htext⟩ :=
    secondsText_cases hours minutes seconds nanos
  · rw [htext, List.append_assoc, List.append_assoc]
    exact missing_digits seconds rfl hpoint
  · rw [htext, List.append_assoc]
    exact missing_digits seconds rfl hS
  · rw [htext]
    exact missing_cons rfl hquote

/-- The scanner of a time below a day. -/
def time : Scan :=
  .inOrder [.mark 'T', Scan.component 'H', Scan.component 'M', seconds]

theorem takes_timeText {hours minutes seconds nanos : Nat} (hnanos : nanos < 10 ^ (9 : Nat)) :
    Takes time ('T' :: (timeText hours minutes seconds nanos).toList) (quote :: r) := by
  have hH : "H" = String.singleton 'H' := rfl
  have hM : "M" = String.singleton 'M' := rfl
  rw [timeText_eq, String.toList_append, String.toList_append, List.append_assoc, hH, hM]
  refine Takes.mark_cons (Takes.cons ?_ (Takes.cons ?_ (Takes.last (takes_seconds hnanos))))
  · refine takes_component rfl ?_
    rw [List.append_assoc]
    exact (missing_seconds (by decide)).component rfl (by decide)
  · exact takes_component rfl (missing_seconds (by decide))

theorem takes_magnitudeText (n : Nat) :
    Takes (.inOrder [.mark 'P', Scan.component 'D', .optional time, .mark quote])
      ((magnitudeText n).toList ++ [quote]) r := by
  have hD : "D" = String.singleton 'D' := rfl
  have hmark : Takes (.inOrder [.mark quote]) [quote] r :=
    Takes.last (Scan.takes_mark quote)
  have hrest : n % 1000000000 < 10 ^ (9 : Nat) := Nat.mod_lt _ (by decide)
  unfold magnitudeText
  dsimp only
  rw [String.toList_append, String.toList_append, show "P".toList = ['P'] from rfl, hD,
    List.append_assoc, List.append_assoc]
  split
  · rw [String.toList_append]
    refine Takes.cons (Scan.takes_mark 'P') (Takes.cons ?_ (Takes.cons ?_ hmark))
    · exact takes_component rfl (missing_cons rfl (by decide))
    · exact Takes.optional (takes_timeText hrest)
  · refine Takes.cons (Scan.takes_mark 'P') (Takes.cons ?_ (Takes.cons (t := []) ?_ hmark))
    · exact takes_component rfl (missing_cons rfl (by decide))
    · exact Scan.takes_optional_of_none (inOrder_cons_eq_none (Scan.one_eq_none (by simp [quote])))

theorem takes_quotedLiteral (d : Duration) :
    Takes Scan.duration (quotedLiteral "duration" d.text).toList [] := by
  have hword : (quotedLiteral "duration" d.text).toList =
      "duration'".toList ++ (d.text.toList ++ [quote]) := by
    rw [toList_quotedLiteral]
    rfl
  rw [hword]
  refine Takes.cons (Scan.takes_word _) ?_
  unfold text
  split
  · rw [String.toList_append, List.append_assoc]
    exact Takes.cons (Takes.optional (Scan.takes_mark '-')) (takes_magnitudeText _)
  · obtain ⟨rest, hP⟩ := exists_magnitudeText d.nanos.natAbs
    rw [String.empty_append]
    refine Takes.cons (t := []) (Scan.takes_optional_of_none ?_) (takes_magnitudeText _)
    rw [hP]
    exact Scan.one_eq_none (by simp)

theorem firstToken?_quotedLiteral (d : Duration) :
    firstToken? (quotedLiteral "duration" d.text).toList =
      some (.duration, (quotedLiteral "duration" d.text).toList.length) := by
  have hrule : tokenRules[11]? = some ⟨.duration, .duration, .anything⟩ := rfl
  have hsplit : tokenRules.take 11 = tokenRules.take 10 ++ [⟨.binary, .binary, .anything⟩] := rfl
  have hword : ∀ rule ∈ tokenRules.take 10, rule.length? ("duration".toList ++ [quote]) = none := by
    decide
  refine firstToken?_of_takes hrule ?_ (by decide) ?_ (takes_quotedLiteral d)
  · rw [toList_quotedLiteral, hsplit]
    intro other hother
    rcases List.mem_append.1 hother with hother | hother
    · exact length?_word_quote hword other hother
    · obtain rfl := List.mem_singleton.1 hother
      exact length?_eq_none_of_word (w := "binary'".toList) rfl rfl
  · rw [toList_quotedLiteral]
    simp

/-- A duration is read back from the literal that is made of its text: the literal is one token, and
it denotes the duration to the nanosecond. -/
theorem quoted_text_reads_back (model : Model) (d : Duration) :
    tokenize (quotedLiteral "duration" d.text) =
        .ok [⟨.duration, quotedLiteral "duration" d.text, 0⟩] ∧
      Literal.ofToken model .duration (quotedLiteral "duration" d.text) =
        .ok (.ofKind .duration (quotedLiteral "duration" d.text) (.duration d)) := by
  constructor
  · exact tokenize_of_firstToken? rfl (firstToken?_quotedLiteral d)
  · have hread : (Literal.quotedBody? "duration" (quotedLiteral "duration" d.text).toList).bind
        ofChars? = some d := by
      rw [quotedBody?_quotedLiteral, Option.bind_some, ofChars?_text]
    simp only [Literal.ofToken, hread, Option.map_some, Literal.ofRead]

end Duration

end EntityQuery
