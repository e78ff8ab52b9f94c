import EntityQuery.Options.Raw
import EntityQuery.Proofs.Schema.PathResolution
import EntityQuery.Proofs.Text.Percent

/-!
# Parts that belong to the application

A query string may hold parts that are none of the system options.  Wherever they stand, they are
skipped and the system options around them are read as if they were not there.  To tell that a part
is one of them it is decoded first, however, so a part whose percent sequences are no text has the
whole query string refused.
-/

namespace EntityQuery.RawOptions

open Text

variable {extra pieces all : List (List Char)} {part cs : List Char} {raw : RawOptions}
  {query padded : String} {marked : Bool} {problem : Utf8Problem}

/-! ## Query strings with further parts -/

/-- A part that begins as no system option begins. -/
structure IsCustom (part : List Char) : Prop where
  whole : '&' ∉ part
  front : ∃ c rest, part = c :: rest ∧ c ≠ '$' ∧ c ≠ '%' ∧ c ≠ '?'

/-- A list with further elements at any places. -/
inductive Inserted {α : Type} : List α → List α → List α → Prop
  | nil : Inserted [] [] []
  | keep {extra as all : List α} (a : α) (h : Inserted extra as all) :
      Inserted extra (a :: as) (a :: all)
  | add {extra as all : List α} (a : α) (h : Inserted extra as all) :
      Inserted (a :: extra) as (a :: all)

/-- The query string of some pieces, which may be empty, behind a question mark or without one. -/
def written (marked : Bool) (pieces : List (List Char)) : String :=
  String.ofList ((if marked then ['?'] else []) ++ ['&'].intercalate pieces)

/-- Pieces of a query string, the first of which is not taken for the question mark before them. -/
structure Cut (marked : Bool) (pieces : List (List Char)) : Prop where
  whole : ∀ piece ∈ pieces, '&' ∉ piece
  front : marked = false → ∀ piece ∈ pieces.head?, piece.head? ≠ some '?'

/-- A query string with further parts between its own, and behind its question mark. -/
def Padded (extra : List (List Char)) (query padded : String) : Prop :=
  ∃ marked pieces all, Cut marked pieces ∧ Inserted extra pieces all ∧
    query = written marked pieces ∧ padded = written marked all

theorem Inserted.refl {α : Type} (as : List α) : Inserted [] as as := by
  induction as with
  | nil => exact .nil
  | cons a as ih => exact .keep a ih

theorem Inserted.mem {α : Type} {extra as all : List α} {a : α} (h : Inserted extra as all)
    (hmem : a ∈ all) : a ∈ extra ∨ a ∈ as := by
  induction h with
  | nil => cases hmem
  | keep b _ ih =>
      rcases List.mem_cons.1 hmem with rfl | hmem
      · exact .inr List.mem_cons_self
      · exact (ih hmem).imp_right (List.mem_cons_of_mem _)
  | add b _ ih =>
      rcases List.mem_cons.1 hmem with rfl | hmem
      · exact .inl List.mem_cons_self
      · exact (ih hmem).imp_left (List.mem_cons_of_mem _)

/-- Elements that pass a test can also be inserted into what passes it. -/
theorem Inserted.filter {α : Type} {extra as all : List α} (h : Inserted extra as all)
    {p : α → Bool} (hextra : ∀ a ∈ extra, p a = true) :
    Inserted extra (as.filter p) (all.filter p) := by
  induction h with
  | nil => exact .nil
  | keep a _ ih =>
      rw [List.filter_cons, List.filter_cons]
      split
      · exact .keep a (ih hextra)
      · exact ih hextra
  | add a _ ih =>
      rw [List.filter_cons, if_pos (hextra a List.mem_cons_self)]
      exact .add a (ih fun b hb => hextra b (List.mem_cons_of_mem _ hb))

/-- Every query string can be cut into pieces. -/
theorem exists_cut (query : String) : ∃ marked pieces, Cut marked pieces ∧
    query = written marked pieces := by
  have hcut (cs : List Char) : ∀ piece ∈ cs.splitOn '&', '&' ∉ piece := fun piece hpiece =>
    not_mem_of_mem_splitOn hpiece
  by_cases hmark : query.toList.head? = some '?'
  · obtain ⟨rest, hrest⟩ : ∃ rest, query.toList = '?' :: rest := List.head?_eq_some_iff.1 hmark
    refine ⟨true, rest.splitOn '&', ⟨hcut rest, nofun⟩, ?_⟩
    rw [written, List.intercalate_splitOn]
    apply String.toList_injective
    simp [hrest]
  · refine ⟨false, query.toList.splitOn '&', ⟨hcut _, fun _ piece hpiece hhead => hmark ?_⟩, ?_⟩
    · obtain ⟨cs, hcs⟩ := List.head?_eq_some_iff.1 hhead
      obtain ⟨others, hothers⟩ := List.head?_eq_some_iff.1 (Option.mem_def.1 hpiece)
      rw [← (List.intercalate_splitOn '&' : _ = query.toList), hothers, hcs]
      cases others <;> rfl
    · rw [written, List.intercalate_splitOn]
      simp

theorem Padded.refl (query : String) : Padded [] query query := by
  obtain ⟨marked, pieces, hcut, hquery⟩ := exists_cut query
  exact ⟨marked, pieces, pieces, hcut, .refl pieces, hquery, hquery⟩

/-! ## Parts of a query string -/

theorem dropMark_of_head? (h : cs.head? ≠ some '?') : dropMark cs = cs := by
  unfold dropMark
  split
  · exact absurd rfl h
  · rfl

/-- The parts of a query string are the pieces that are not empty. -/
theorem Cut.parts_eq (h : Cut marked pieces) :
    parts (written marked pieces).toList = pieces.filter fun piece => !piece.isEmpty := by
  have hbody : dropMark (written marked pieces).toList = ['&'].intercalate pieces := by
    rw [written, String.toList_ofList]
    cases marked with
    | true => rfl
    | false =>
        refine dropMark_of_head? fun hhead => ?_
        match pieces, h.front rfl, hhead with
        | [] :: [], _, hhead => cases hhead
        | [] :: _ :: _, _, hhead => cases hhead
        | (c :: rest) :: [], hfront, hhead => exact hfront _ rfl hhead
        | (c :: rest) :: _ :: _, hfront, hhead => exact hfront _ rfl hhead
  rw [parts, hbody]
  by_cases hne : pieces = []
  · subst hne
    rfl
  · rw [List.splitOn_intercalate _ h.whole hne]

theorem Cut.inserted (h : Cut marked pieces) (hinserted : Inserted extra pieces all)
    (hextra : ∀ part ∈ extra, IsCustom part) : Cut marked all := by
  refine ⟨fun piece hpiece => ?_, fun hmarked piece hpiece => ?_⟩
  · rcases hinserted.mem hpiece with hmem | hmem
    · exact (hextra piece hmem).whole
    · exact h.whole piece hmem
  · cases hinserted with
    | nil => cases hpiece
    | keep a _ => exact h.front hmarked piece hpiece
    | add a _ =>
        obtain rfl := Option.some.inj hpiece
        obtain ⟨c, rest, rfl, -, -, hc⟩ := (hextra a List.mem_cons_self).front
        simpa using hc

theorem IsCustom.not_isEmpty (h : IsCustom part) : (!part.isEmpty) = true := by
  obtain ⟨c, rest, rfl, -⟩ := h.front
  rfl

/-- Reading a padded query string goes through the parts with the further ones between them. -/
theorem Padded.exists_parts (h : Padded extra query padded)
    (hextra : ∀ part ∈ extra, IsCustom part) : ∃ own every, Inserted extra own every ∧
      parse query = own.foldlM addPart empty ∧ parse padded = every.foldlM addPart empty := by
  obtain ⟨marked, pieces, all, hcut, hinserted, rfl, rfl⟩ := h
  refine ⟨_, _, hinserted.filter fun part hpart => (hextra part hpart).not_isEmpty, ?_, ?_⟩
  · rw [parse, hcut.parts_eq]
  · rw [parse, (hcut.inserted hinserted hextra).parts_eq]

/-! ## Reading further parts -/

/-- The percent sequences of a part are a text. -/
def Decodes (part : List Char) : Prop := ∃ cs, percentDecode (spaced part) = .ok cs

/-- A first character that is no percent sign stays the first one. -/
theorem head?_of_percentDecode {c : Char} {rest : List Char} (hc : c ≠ '%')
    (h : percentDecode (c :: rest) = .ok cs) : cs.head? = some c := by
  rw [percentDecode, percentBytes_cons hc, utf8Decode, decodeFrom_encodeChar] at h
  obtain ⟨later, -, rfl⟩ := map_eq_ok.1 h
  rfl

theorem IsCustom.head?_decoded (h : IsCustom part)
    (hdecode : percentDecode (spaced part) = .ok cs) : cs.head? ≠ some '$' := by
  obtain ⟨c, rest, rfl, hdollar, hpercent, -⟩ := h.front
  have hspaced : spaced (c :: rest) = (if c == '+' then ' ' else c) :: spaced rest := rfl
  rw [hspaced] at hdecode
  by_cases hplus : c = '+'
  · subst hplus
    rw [head?_of_percentDecode (by decide) hdecode]
    decide
  · simp only [beq_iff_eq, hplus, if_false] at hdecode
    rw [head?_of_percentDecode hpercent hdecode]
    simpa using hdollar

/-- A custom part that can be decoded is skipped. -/
theorem IsCustom.addPart_eq_ok (h : IsCustom part) (hdecodes : Decodes part) :
    raw.addPart part = .ok raw := by
  obtain ⟨cs, hcs⟩ := hdecodes
  rw [addPart, decodePart, hcs, ok_bind, if_neg]
  · rfl
  · simpa using h.head?_decoded hcs

theorem addPart_eq_error (h : percentDecode (spaced part) = .error problem) :
    raw.addPart part = .error (.usage (.notUtf8 (String.ofList part) problem)) := by
  rw [addPart, decodePart, h]
  rfl

/-- Custom parts that can be decoded leave everything as it is. -/
theorem foldlM_inserted (h : Inserted extra pieces all) (hextra : ∀ part ∈ extra, IsCustom part)
    (hdecodes : ∀ part ∈ extra, Decodes part) (raw : RawOptions) :
    all.foldlM addPart raw = pieces.foldlM addPart raw := by
  induction h generalizing raw with
  | nil => rfl
  | keep piece _ ih =>
      rw [List.foldlM_cons, List.foldlM_cons]
      cases raw.addPart piece with
      | error e => rfl
      | ok next => exact ih hextra hdecodes next
  | add part _ ih =>
      obtain ⟨hpart, hextra⟩ := List.forall_mem_cons.1 hextra
      obtain ⟨hdecodes, hothers⟩ := List.forall_mem_cons.1 hdecodes
      rw [List.foldlM_cons, hpart.addPart_eq_ok hdecodes]
      exact ih hextra hothers raw

/-- The first custom part that cannot be decoded is where reading ends, unless something before it
is wrong. -/
theorem foldlM_inserted_error {before after : List (List Char)}
    (h : Inserted (before ++ part :: after) pieces all) (hbefore : ∀ p ∈ before, IsCustom p)
    (hdecodes : ∀ p ∈ before, Decodes p) (hpart : percentDecode (spaced part) = .error problem)
    (raw : RawOptions) :
    ∃ e, all.foldlM addPart raw = .error e ∧
      (pieces.foldlM addPart raw = .error e ∨
        e = .usage (.notUtf8 (String.ofList part) problem)) := by
  generalize hall : before ++ part :: after = extra at h
  induction h generalizing raw before with
  | nil => simp at hall
  | keep piece _ ih =>
      rw [List.foldlM_cons, List.foldlM_cons]
      cases raw.addPart piece with
      | error e => exact ⟨e, rfl, .inl rfl⟩
      | ok next => exact ih hbefore hdecodes next hall
  | add first _ ih =>
      cases before with
      | nil =>
          obtain ⟨rfl, -⟩ := List.cons.inj hall
          rw [List.foldlM_cons, addPart_eq_error hpart]
          exact ⟨_, rfl, .inr rfl⟩
      | cons p before =>
          obtain ⟨rfl, hrest⟩ := List.cons.inj hall
          obtain ⟨hp, hbefore⟩ := List.forall_mem_cons.1 hbefore
          obtain ⟨hpdecodes, hdecodes⟩ := List.forall_mem_cons.1 hdecodes
          rw [List.foldlM_cons, hp.addPart_eq_ok hpdecodes]
          exact ih hbefore hdecodes raw hrest

/-- Custom parts do not influence what a query string is read as, if they can all be decoded.  If
not, the first one that cannot be decoded is reported, or what was wrong before. -/
theorem parse_padded (h : Padded extra query padded) (hextra : ∀ part ∈ extra, IsCustom part) :
    ((∀ part ∈ extra, Decodes part) → parse padded = parse query) ∧
      ∀ before part after problem, extra = before ++ part :: after → (∀ p ∈ before, Decodes p) →
        percentDecode (spaced part) = .error problem →
          ∃ e, parse padded = .error e ∧
            (parse query = .error e ∨ e = .usage (.notUtf8 (String.ofList part) problem)) := by
  obtain ⟨own, every, hinserted, hquery, hpadded⟩ := h.exists_parts hextra
  rw [hquery, hpadded]
  refine ⟨fun hdecodes => foldlM_inserted hinserted hextra hdecodes empty, ?_⟩
  rintro before part after problem rfl hdecodes hpart
  exact foldlM_inserted_error hinserted
    (fun p hp => hextra p (List.mem_append_left _ hp)) hdecodes hpart empty

/-- A part before the options and one behind them are skipped.  If the second one ends in a byte
that only begins a character, it is what is wrong. -/
theorem parse_padded_page :
    IsCustom "p=+1".toList ∧ IsCustom "q=%C3%A9".toList ∧ IsCustom "q=%E9".toList ∧
      Padded ["p=+1".toList, "q=%C3%A9".toList] "?$top=1" "?p=+1&$top=1&q=%C3%A9" ∧
      parse "?p=+1&$top=1&q=%C3%A9" = parse "?$top=1" ∧
      Padded ["p=+1".toList, "q=%E9".toList] "?$top=1" "?p=+1&$top=1&q=%E9" ∧
      ∃ e, parse "?p=+1&$top=1&q=%E9" = .error e ∧ (parse "?$top=1" = .error e ∨
        e = .usage (.notUtf8 "q=%E9" (.incomplete 2))) := by
  have hpage : IsCustom "p=+1".toList := ⟨by decide, 'p', _, rfl, by decide⟩
  have hsort : IsCustom "q=%C3%A9".toList := ⟨by decide, 'q', _, rfl, by decide⟩
  have hbroken : IsCustom "q=%E9".toList := ⟨by decide, 'q', _, rfl, by decide⟩
  have hcut : Cut true ["$top=1".toList] := ⟨by decide, nofun⟩
  have hinserted (part : List Char) : Inserted ["p=+1".toList, part] ["$top=1".toList]
      ["p=+1".toList, "$top=1".toList, part] := .add _ (.keep _ (.add _ .nil))
  have hgood : Padded ["p=+1".toList, "q=%C3%A9".toList] "?$top=1"
      "?p=+1&$top=1&q=%C3%A9" := ⟨true, _, _, hcut, hinserted _, rfl, rfl⟩
  have hbad : Padded ["p=+1".toList, "q=%E9".toList] "?$top=1"
      "?p=+1&$top=1&q=%E9" := ⟨true, _, _, hcut, hinserted _, rfl, rfl⟩
  have hplain (name : List Char) (hname : '%' ∉ name) (value : List Char) :
      percentDecode (name ++ percentEncode value) = .ok (name ++ value) :=
    percentDecode_append hname value
  have hdecodes : Decodes "p=+1".toList := ⟨_, hplain "p= 1".toList (by decide) []⟩
  have hdecodes' : Decodes "q=%C3%A9".toList := ⟨_, hplain "q=".toList (by decide) ['é']⟩
  have hproblem : percentDecode (spaced "q=%E9".toList) = .error (.incomplete 2) := rfl
  refine ⟨hpage, hsort, hbroken, hgood,
    (parse_padded hgood (by simpa using ⟨hpage, hsort⟩)).1
      (by simpa using ⟨hdecodes, hdecodes'⟩), hbad, ?_⟩
  have herror := (parse_padded hbad (by simpa using ⟨hpage, hbroken⟩)).2
    ["p=+1".toList] "q=%E9".toList [] (.incomplete 2) rfl (by simpa using hdecodes) hproblem
  rwa [String.ofList_toList] at herror

/-- A part of the application whose percent sequence is no text has all options refused. -/
theorem parse_padded_refused :
    Padded ["x=%FF".toList] "$top=1" "$top=1&x=%FF" ∧ IsCustom "x=%FF".toList ∧
      parse "$top=1" = .ok ⟨[(.top, "$top=1")]⟩ ∧
      parse "$top=1&x=%FF" = .error (.usage (.notUtf8 "x=%FF" (.invalid 1 2))) := by
  refine ⟨⟨false, ["$top=1".toList], _, ⟨by decide, fun _ => by decide⟩, .keep _ (.add _ .nil), rfl,
    rfl⟩, ⟨by decide, 'x', _, rfl, by decide⟩, rfl, rfl⟩

end EntityQuery.RawOptions
