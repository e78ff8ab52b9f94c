import EntityQuery.Proofs.Filter.Numerals
import EntityQuery.Proofs.Guid
import EntityQuery.Proofs.Time.Layouts

/-!
# Dates, times and identifiers as tokens

A date is a prefix of the text of an instant, and an identifier may begin like a date, a number or a
word.  Their texts are tokens of their own kinds all the same: the rule for instants, which comes
first, misses the `T` in the others, and where a group of eight digits could begin an identifier,
the first hyphen of a date comes too early.
-/

namespace EntityQuery.Filter

open Number
open Scan (Takes mark markOf digitCount)

variable {t r : List Char}

/-! ## Scanning -/

theorem takes_date (d : Date) (hyear : 0 ≤ d.year ∧ d.year ≤ 9999) :
    Takes Scan.date d.text.toList r := by
  have hmonth := d.month_mem
  have hday := d.day_mem
  have hlength := daysInMonth_le d.year d.month
  rw [d.toList_text hyear]
  exact Takes.cons (takes_digitCount (by decide) (by omega)) (Takes.mark_cons
    (Takes.cons (takes_digitCount (by decide) (by omega)) (Takes.mark_cons
      (Takes.last (takes_digitCount (by decide) (by omega))))))

theorem takes_time (t : TimeOfDay) (hr : ∀ d ∈ r.head?, d.isDigit = false ∧ d ≠ '.') :
    Takes Scan.time t.text.toList r := by
  obtain ⟨fraction, htext, hfraction, -, -⟩ := t.exists_text
  have hseconds := t.seconds_lt
  have hnanos := t.nanos_lt
  have hsecond : t.seconds % 60 + t.nanos / nanosPerSecond < 10 ^ (2 : Nat) := by
    show t.seconds % 60 + t.nanos / 1000000000 < 100
    omega
  have hlast : Takes (.inOrder [.mark ':', Scan.digitCount 2, .optional Scan.fraction])
      (':' :: (paddedDigits 2 (t.seconds % 60 + t.nanos / nanosPerSecond) ++ pointed fraction)) r :=
    Takes.mark_cons (Takes.cons (takes_digitCount (by decide) hsecond)
      (Takes.last (takes_optional_fraction hfraction hr)))
  rw [htext]
  exact Takes.cons (takes_digitCount (by decide) (by omega)) (Takes.mark_cons
    (Takes.cons (takes_digitCount (by decide) (by omega)) (Takes.last (Takes.optional hlast))))

theorem takes_offset {offset : Int} (h : offset % 60 = 0)
    (hlt : -86400 < offset ∧ offset < 86400) :
    Takes Scan.offset (Instant.minuteOffsetText offset).toList r := by
  have hhours : offset.natAbs / 3600 < 10 ^ (2 : Nat) := by omega
  have hminutes : offset.natAbs / 60 % 60 < 10 ^ (2 : Nat) := by omega
  have hclock {sign : Char} (hsign : ['+', '-'].contains sign = true) (hZ : sign ≠ 'Z') :
      Takes Scan.offset (sign :: (paddedDigits 2 (offset.natAbs / 3600) ++
        ':' :: paddedDigits 2 (offset.natAbs / 60 % 60))) r := by
    have hnone : Scan.mark 'Z' (sign :: (paddedDigits 2 (offset.natAbs / 3600) ++
        ':' :: paddedDigits 2 (offset.natAbs / 60 % 60)) ++ r) = none :=
      Scan.one_eq_none (by simpa using hZ)
    have hdigits : Takes (.inOrder [markOf ['+', '-'], digitCount 2, mark ':', digitCount 2])
        ([sign] ++ (paddedDigits 2 (offset.natAbs / 3600) ++
          ':' :: paddedDigits 2 (offset.natAbs / 60 % 60))) r :=
      Takes.cons (Scan.takes_one hsign) (Takes.cons (takes_digitCount (by decide) hhours)
        (Takes.mark_cons (Takes.last (takes_digitCount (by decide) hminutes))))
    exact Takes.firstOf_of_none hnone hdigits.firstOf
  rw [Instant.toList_minuteOffsetText h]
  split
  · exact hclock (by decide) (by decide)
  · exact hclock (by decide) (by decide)

theorem takes_dateTime (i : Instant) (h : i.offset % 60 = 0)
    (hyear : 0 ≤ i.date.year ∧ i.date.year ≤ 9999) : Takes Scan.dateTime i.text.toList r := by
  rw [i.toList_text]
  refine Takes.cons (takes_date i.date hyear) (Takes.mark_cons
    (Takes.cons (takes_time _ ?_) (Takes.last (Takes.optional (takes_offset h i.offset_lt)))))
  rw [Instant.toList_minuteOffsetText h]
  split <;> simp

theorem isHexDigit_of_mem {width n : Nat} {c : Char} (h : c ∈ Text.hexDigits width n) :
    Scan.isHexDigit c = true := by
  have hall : ∀ m < 16, Scan.isHexDigit (Text.hexDigit m) = true := by decide
  obtain ⟨d, hd, rfl⟩ := Text.mem_hexDigits h
  exact hall d hd

theorem takes_guid (g : Guid) : Takes Scan.guid g.text.toList r := by
  obtain ⟨a, b, c, d, e, htext, ha, hb, hc, hd, he, hdigits⟩ := g.toList_text
  have hhex : ∀ x ∈ a ++ b ++ c ++ d ++ e, Scan.isHexDigit x = true := by
    rw [hdigits]
    exact fun _ => isHexDigit_of_mem
  simp only [List.forall_mem_append] at hhex
  obtain ⟨⟨⟨⟨hhexa, hhexb⟩, hhexc⟩, hhexd⟩, hhexe⟩ := hhex
  rw [htext, Guid.hyphenated]
  simp only [List.append_assoc, List.cons_append]
  exact Takes.cons (Scan.takes_exactly ha hhexa) (Takes.mark_cons
    (Takes.cons (Scan.takes_exactly hb hhexb) (Takes.mark_cons
      (Takes.cons (Scan.takes_exactly hc hhexc) (Takes.mark_cons
        (Takes.cons (Scan.takes_exactly hd hhexd) (Takes.mark_cons
          (Takes.last (Scan.takes_exactly he hhexe)))))))))

/-! ## Dates and times as tokens -/

theorem firstToken?_date (d : Date) (hyear : 0 ≤ d.year ∧ d.year ≤ 9999) :
    firstToken? d.text.toList = some (.date, d.text.toList.length) := by
  have hrule : tokenRules[15]? = some ⟨.date, .date, .wordEnd⟩ := rfl
  have hsplit : tokenRules.take 15 = tokenRules.take 13 ++
      [⟨.dateTimeOffset, .dateTime, .wordEnd⟩, ⟨.guid, .guid, .wordEnd⟩] := rfl
  have hlength : (paddedDigits 4 d.year.toNat).length = 4 :=
    length_paddedDigits (by omega) (by decide)
  have hfront : NumeralFront d.text.toList := by
    rw [d.toList_text hyear]
    exact numeralFront_paddedDigits 4 d.year.toNat
  have hT : 'T' ∉ d.text.toList := by
    rw [d.toList_text hyear]
    simp [not_mem_paddedDigits]
  -- The first hyphen is the fifth character, where an identifier still has a digit.
  have hguid : Scan.guid d.text.toList = none := by
    refine inOrder_cons_eq_none (Scan.exactly_eq_none (c := '-') ?_ rfl)
    rw [d.toList_text hyear]
    simp [List.take_append, hlength]
  refine firstToken?_of_takes hrule ?_ (by decide) hfront.ne_nil (takes_date d hyear)
  rw [hsplit, List.forall_mem_append]
  refine ⟨hfront.length?_eq_none, ?_⟩
  simp only [List.forall_mem_cons]
  exact ⟨TokenRule.length?_eq_none (dateTime_eq_none hT), TokenRule.length?_eq_none hguid, by simp⟩

/-- Neither instants, identifiers nor dates do without a hyphen. -/
theorem length?_eq_none_of_clock (hfront : NumeralFront t) (hT : 'T' ∉ t) (hdash : '-' ∉ t) :
    ∀ rule ∈ tokenRules.take 16, rule.length? t = none := by
  have hsplit : tokenRules.take 16 = tokenRules.take 13 ++
      [⟨.dateTimeOffset, .dateTime, .wordEnd⟩, ⟨.guid, .guid, .wordEnd⟩,
        ⟨.date, .date, .wordEnd⟩] := rfl
  rw [hsplit, List.forall_mem_append]
  refine ⟨hfront.length?_eq_none, ?_⟩
  simp only [List.forall_mem_cons]
  exact ⟨TokenRule.length?_eq_none (dateTime_eq_none hT),
    TokenRule.length?_eq_none
      (Scan.inOrder_mark_eq_none_of_not_mem [.exactly 8 Scan.isHexDigit] hdash),
    TokenRule.length?_eq_none (Scan.inOrder_mark_eq_none_of_not_mem [digitCount 4] hdash), by simp⟩

theorem firstToken?_time (t : TimeOfDay) :
    firstToken? t.text.toList = some (.timeOfDay, t.text.toList.length) := by
  obtain ⟨fraction, htext, hfraction, -, -⟩ := t.exists_text
  have hrule : tokenRules[16]? = some ⟨.timeOfDay, .time, .wordEnd⟩ := rfl
  have hfront : NumeralFront t.text.toList := by
    rw [htext]
    exact numeralFront_paddedDigits 2 (t.seconds / 3600)
  have hnot {d : Char} (hd : d.isDigit = false) (hmark : d ≠ ':' ∧ d ≠ '.') :
      d ∉ t.text.toList := by
    have hpointed : d ∉ pointed fraction := by
      intro hmem
      rcases mem_pointed hmem with heq | hmem
      · exact hmark.2 heq
      · rw [hfraction d hmem] at hd
        cases hd
    rw [htext]
    simp [not_mem_paddedDigits hd, hmark.1, hpointed]
  have hbefore := length?_eq_none_of_clock hfront (hnot rfl (by decide)) (hnot rfl (by decide))
  exact firstToken?_of_takes hrule hbefore (by decide) hfront.ne_nil (takes_time t (by simp))

theorem firstToken?_dateTime (i : Instant) (h : i.offset % 60 = 0)
    (hyear : 0 ≤ i.date.year ∧ i.date.year ≤ 9999) :
    firstToken? i.text.toList = some (.dateTimeOffset, i.text.toList.length) := by
  have hrule : tokenRules[13]? = some ⟨.dateTimeOffset, .dateTime, .wordEnd⟩ := rfl
  have hfront : NumeralFront i.text.toList := by
    rw [i.toList_text, i.date.toList_text hyear, List.append_assoc]
    exact numeralFront_paddedDigits 4 i.date.year.toNat
  exact firstToken?_of_takes hrule hfront.length?_eq_none (by decide) hfront.ne_nil
    (takes_dateTime i h hyear)

/-! ## Identifiers as tokens -/

variable {kind : TokenKind} {follow : Follow}

/-- Words that are shorter than a text have something behind them there. -/
theorem length?_words_eq_none (ws : List String) (hws : ∀ w ∈ ws, w.toList.length < t.length)
    (hfollow : ∀ c ∈ t, ∀ cs, follow.accepts (c :: cs) = false) :
    TokenRule.length? ⟨kind, .firstOf (ws.map fun w => .word w.toList), follow⟩ t = none := by
  rw [TokenRule.length?, Option.filter_eq_none_iff]
  intro n hscan
  obtain ⟨a, ha, hscan⟩ := List.exists_of_findSome?_eq_some hscan
  obtain ⟨w, hw, rfl⟩ := List.mem_map.1 ha
  have hlt : n < t.length := by
    unfold Scan.word at hscan
    split at hscan
    · rw [← Option.some.inj hscan]
      exact hws w hw
    · cases hscan
  rw [List.drop_eq_getElem_cons hlt, hfollow _ (List.getElem_mem hlt)]
  simp

/-- The only word whose letters are hexadecimal digits is shorter than an identifier. -/
theorem length?_eq_none_of_alphabet (hlength : 3 < t.length) (ht : ∀ c ∈ t, c ∈ Guid.alphabet) :
    ∀ rule ∈ tokenRules.take 14, rule.length? t = none := by
  have hnot {d : Char} (hd : d ∉ Guid.alphabet) : d ∉ t := fun hmem => hd (ht d hmem)
  have hword {w : List Char} (hw : (w.any fun d => !Guid.alphabet.contains d) = true) :
      Scan.word w t = none := by
    obtain ⟨d, hmem, hd⟩ := List.any_eq_true.1 hw
    exact Scan.word_eq_none_of_not_mem hmem (hnot (by simpa using hd))
  have hhead {p : Char → Bool} (hp : ∀ c ∈ Guid.alphabet, p c = false) :
      ∀ c ∈ t.head?, p c = false :=
    fun c hc => hp c (ht c (List.mem_of_mem_head? hc))
  have hmark {d : Char} (hd : d ∉ Guid.alphabet) : Scan.mark d t = none := by
    refine Scan.one_eq_none (hhead fun c hc => beq_eq_false_iff_ne.2 ?_)
    rintro rfl
    exact hd hc
  have hfollow : ∀ c ∈ t, ∀ cs, Follow.blankOrEnd.accepts (c :: cs) = false := by
    have hall : ∀ c ∈ Guid.alphabet, Text.isBlank c = false := by decide
    exact fun c hc _ => hall c (ht c hc)
  have hshort : ∀ n ≤ 3, n < t.length := fun n hn => Nat.lt_of_le_of_lt hn hlength
  have htruth : Scan.truth t = none := by
    rw [Scan.truth, Scan.firstOf, List.findSome?_cons, hword rfl, List.findSome?_cons, hword rfl,
      List.findSome?_nil]
  simp only [tokenRules, List.take_succ_cons, List.take_zero, List.forall_mem_cons]
  exact ⟨TokenRule.length?_eq_none (Scan.some1_eq_none (hhead (by decide))),
    TokenRule.length?_eq_none (hmark (by decide)), TokenRule.length?_eq_none (hmark (by decide)),
    TokenRule.length?_eq_none (hmark (by decide)), TokenRule.length?_eq_none (hword rfl),
    TokenRule.length?_eq_none (hword rfl), TokenRule.length?_eq_none (hword rfl),
    length?_words_eq_none _ (fun w hw => hshort _ (by revert w; decide)) hfollow,
    TokenRule.length?_eq_none htruth, TokenRule.length?_eq_none (hword rfl),
    TokenRule.length?_eq_none (inOrder_cons_eq_none (hword rfl)),
    TokenRule.length?_eq_none (inOrder_cons_eq_none (hword rfl)),
    TokenRule.length?_eq_none (Scan.inOrder_mark_eq_none_of_not_mem [.name] (hnot (by decide))),
    TokenRule.length?_eq_none (dateTime_eq_none (hnot (by decide))), by simp⟩

theorem firstToken?_guid (g : Guid) :
    firstToken? g.text.toList = some (.guid, g.text.toList.length) := by
  have hrule : tokenRules[14]? = some ⟨.guid, .guid, .wordEnd⟩ := rfl
  have hlength : 3 < g.text.toList.length := by
    rw [g.length_text]
    decide
  have hbefore := length?_eq_none_of_alphabet hlength fun c => g.mem_alphabet
  exact firstToken?_of_takes hrule hbefore (by decide) (List.ne_nil_of_length_pos (by omega))
    (takes_guid g)

end EntityQuery.Filter
