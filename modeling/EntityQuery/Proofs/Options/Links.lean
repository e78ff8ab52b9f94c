import EntityQuery.Proofs.Number.Digits
import EntityQuery.Proofs.Options.Clauses
import EntityQuery.Proofs.Text.Percent

/-!
# Links read back

The query string of a link to another page is read as the options it was written from.  Only the
value of `$skip` is another one, and it is added at the end if it was missing.
-/

namespace EntityQuery.RawOptions

open Number Text

variable {option : SystemOption} {value : List Char} {entries : List (SystemOption × List Char)}
  {skip : Nat} {raw : RawOptions} {query : String}

/-- The query string that gives options their values. -/
def queryText (entries : List (SystemOption × List Char)) : String :=
  String.intercalate "&" (entries.map fun entry => String.ofList (linkPart entry.1 entry.2))

/-- The values that a link gives to options. -/
def linkEntries (skip : Nat) (entries : List (SystemOption × List Char)) :
    List (SystemOption × List Char) :=
  entries.map (fun entry =>
      (entry.1, if entry.1 = .skip then (toString skip).toList else entry.2)) ++
    if (entries.lookup .skip).isSome then [] else [(.skip, (toString skip).toList)]

theorem nextLink_ofEntries (entries : List (SystemOption × List Char)) (path : String)
    (skip : Nat) :
    (ofEntries entries).nextLink path skip =
      path ++ "?" ++ queryText (linkEntries skip entries) := by
  have hskipped : (ofEntries entries).skippedTo skip = entries.map fun entry =>
      (entry.1, if entry.1 = .skip then (toString skip).toList else entry.2) := by
    simp only [skippedTo, ofEntries, List.map_map]
    apply List.map_congr_left
    intro entry _
    simp [String.toList_ofList, splitClause_clauseText]
  unfold nextLink queryText linkEntries
  simp only [hskipped, lookup_ofEntries, Option.isSome_map, List.map_map]
  rfl

/-! ## Reading parts -/

theorem head?_name (option : SystemOption) : option.name.toList.head? = some '$' := by
  cases option <;> decide

theorem head?_linkPart (option : SystemOption) (value : List Char) :
    (linkPart option value).head? = some '$' := by
  rw [linkPart, List.head?_append, head?_name]
  rfl

/-- No part of a link has a character in it that separates parts or stands for a blank. -/
theorem linkPart_plain : ∀ c ∈ linkPart option value, c ≠ '&' ∧ c ≠ '+' := by
  intro c hc
  rcases List.mem_append.1 hc with hname | hrest
  · obtain ⟨-, hamp, hplus, -⟩ := name_plain c hname
    exact ⟨hamp, hplus⟩
  · rcases List.mem_cons.1 hrest with rfl | hvalue
    · decide
    · have hlink := isLinkChar_percentEncode hvalue
      constructor
      · rintro rfl
        exact absurd hlink (by decide)
      · rintro rfl
        exact absurd hlink (by decide)

theorem spaced_eq_self {cs : List Char} (h : ∀ c ∈ cs, c ≠ '+') : spaced cs = cs := by
  unfold spaced
  conv => rhs; rw [← List.map_id cs]
  apply List.map_congr_left
  intro c hc
  simp [h c hc]

theorem decodePart_linkPart (option : SystemOption) (value : List Char) :
    decodePart (linkPart option value) = .ok (clauseText option value) := by
  have hsplit : linkPart option value = (option.name.toList ++ ['=']) ++ percentEncode value := by
    simp [linkPart]
  have hname : '%' ∉ option.name.toList ++ ['='] := by
    intro hmem
    rcases List.mem_append.1 hmem with hname | heq
    · exact (name_plain '%' hname).2.2.2 rfl
    · simp at heq
  rw [decodePart, spaced_eq_self fun c hc => (linkPart_plain c hc).2, hsplit,
    percentDecode_append hname]
  simp [clauseText]

theorem foldlM_linkPart (done rest : List (SystemOption × List Char))
    (h : Settled (done ++ rest)) :
    (rest.map fun entry => linkPart entry.1 entry.2).foldlM addPart (ofEntries done) =
      .ok (ofEntries (done ++ rest)) := by
  induction rest generalizing done with
  | nil => rw [List.append_nil]; rfl
  | cons entry rest ih =>
      have hassoc : done ++ entry :: rest = (done ++ [entry]) ++ rest := by simp
      have hhead : (clauseText entry.1 entry.2).head? = some '$' := by
        rw [clauseText, List.head?_append, head?_name]
        rfl
      -- No option was read before.
      have hnew : entry.1 ∉ done.map Prod.fst := by
        have hnodup := h.nodup
        rw [List.map_append, List.nodup_append] at hnodup
        intro hmem
        exact hnodup.2.2 entry.1 hmem entry.1 (by simp) rfl
      have hadd := addClause_clauseText (h.filled entry (by simp)) hnew
      rw [hassoc] at h ⊢
      rw [List.map_cons, List.foldlM_cons, addPart, decodePart_linkPart, ok_bind, hhead]
      simp only [beq_self_eq_true, if_true, hadd, ok_bind]
      exact ih _ h

/-! ## Reading links -/

theorem toList_queryText (entries : List (SystemOption × List Char)) :
    (queryText entries).toList =
      ['&'].intercalate (entries.map fun entry => linkPart entry.1 entry.2) := by
  rw [queryText, String.toList_intercalate, List.map_map]
  simp [Function.comp_def]

theorem head?_queryText (hne : entries ≠ []) : (queryText entries).toList.head? = some '$' := by
  rw [toList_queryText]
  cases entries with
  | nil => exact absurd rfl hne
  | cons entry entries =>
      cases entries with
      | nil =>
          rw [List.map_singleton, List.intercalate_singleton]
          exact head?_linkPart entry.1 entry.2
      | cons next entries =>
          rw [List.map_cons, List.map_cons, List.intercalate_cons_cons, List.append_assoc,
            List.head?_append, head?_linkPart]
          rfl

theorem parts_queryText (hne : entries ≠ []) :
    parts (queryText entries).toList = entries.map fun entry => linkPart entry.1 entry.2 := by
  have hmark : dropMark (queryText entries).toList = (queryText entries).toList := by
    have hhead := head?_queryText hne
    unfold dropMark
    split
    · rename_i heq
      rw [heq] at hhead
      simp at hhead
    · rfl
  have hsplit : (queryText entries).toList.splitOn '&' =
      entries.map fun entry => linkPart entry.1 entry.2 := by
    rw [toList_queryText]
    apply List.splitOn_intercalate
    · intro part hpart hmem
      obtain ⟨entry, -, rfl⟩ := List.mem_map.1 hpart
      exact (linkPart_plain '&' hmem).1 rfl
    · simpa using hne
  rw [parts, hmark, hsplit, List.filter_eq_self]
  intro part hpart
  obtain ⟨entry, -, rfl⟩ := List.mem_map.1 hpart
  simp [linkPart]

/-- The query string of settled options is read as these options. -/
theorem parse_queryText (hsettled : Settled entries) (hne : entries ≠ []) :
    parse (queryText entries) = .ok (ofEntries entries) := by
  rw [parse, parts_queryText hne]
  exact foldlM_linkPart [] entries hsettled

/-! ## Another place -/

theorem lookup_replaced (option : SystemOption) (value : List Char)
    (entries : List (SystemOption × List Char)) :
    (entries.map fun entry => (entry.1, if entry.1 = .skip then value else entry.2)).lookup option =
      (entries.lookup option).map fun old => if option = .skip then value else old := by
  induction entries with
  | nil => rfl
  | cons entry entries ih =>
      rw [List.map_cons, List.lookup_cons, List.lookup_cons]
      cases heq : option == entry.1 with
      | false => exact ih
      | true =>
          rw [beq_iff_eq.1 heq]
          rfl

theorem lookup_linkEntries_skip (skip : Nat) (entries : List (SystemOption × List Char)) :
    (linkEntries skip entries).lookup .skip = some (toString skip).toList := by
  rw [linkEntries, List.lookup_append, lookup_replaced]
  cases entries.lookup .skip <;> rfl

theorem lookup_linkEntries (h : option ≠ .skip) (skip : Nat)
    (entries : List (SystemOption × List Char)) :
    (linkEntries skip entries).lookup option = entries.lookup option := by
  have hadded : (if (entries.lookup .skip).isSome then []
      else [(SystemOption.skip, (toString skip).toList)]).lookup option = none := by
    split
    · rfl
    · rw [List.lookup_cons, beq_eq_false_iff_ne.2 h]
      rfl
  rw [linkEntries, List.lookup_append, lookup_replaced, hadded, Option.or_none]
  cases entries.lookup option <;> simp [h]

theorem linkEntries_ne_nil (skip : Nat) (entries : List (SystemOption × List Char)) :
    linkEntries skip entries ≠ [] := by
  intro hnil
  have hskip := lookup_linkEntries_skip skip entries
  rw [hnil] at hskip
  cases hskip

theorem Settled.linkEntries (h : Settled entries) (skip : Nat) :
    Settled (linkEntries skip entries) := by
  have hkeys : (entries.map fun entry =>
      (entry.1, if entry.1 = .skip then (toString skip).toList else entry.2)).map Prod.fst =
      entries.map Prod.fst := by
    rw [List.map_map]
    rfl
  have hreplaced : Settled (entries.map fun entry =>
      (entry.1, if entry.1 = .skip then (toString skip).toList else entry.2)) := by
    constructor
    · rw [hkeys]
      exact h.nodup
    · intro entry hentry
      obtain ⟨old, hmem, rfl⟩ := List.mem_map.1 hentry
      dsimp only
      split
      · exact all_isBlank_toString skip
      · exact h.filled old hmem
  unfold RawOptions.linkEntries
  split
  · rw [List.append_nil]
    exact hreplaced
  · rename_i hmissing
    apply hreplaced.concat
    · rw [hkeys, ← lookup_eq_none]
      exact Option.not_isSome_iff_eq_none.1 hmissing
    · exact all_isBlank_toString skip

/-! ## The options of a link -/

/-- The clause that asks for a place to begin at. -/
def skipClause (skip : Nat) : SystemOption × String := (.skip, "$skip=" ++ toString skip)

/-- The options with another value of `$skip`: in its old place, or last if there was none. -/
def withSkip (skip : Nat) (raw : RawOptions) : RawOptions :=
  ⟨if (raw.clause? .skip).isSome then
      raw.clauses.map fun clause => if clause.1 = .skip then skipClause skip else clause
    else raw.clauses ++ [skipClause skip]⟩

theorem skipClause_eq (skip : Nat) :
    skipClause skip = (.skip, String.ofList (clauseText .skip (toString skip).toList)) := by
  have htext : clauseText .skip (toString skip).toList = ("$skip=" ++ toString skip).toList := by
    rw [String.toList_append]
    rfl
  rw [htext, String.ofList_toList, skipClause]

theorem withSkip_ofEntries (skip : Nat) (entries : List (SystemOption × List Char)) :
    (ofEntries entries).withSkip skip = ofEntries (linkEntries skip entries) := by
  unfold withSkip linkEntries
  rw [lookup_ofEntries, Option.isSome_map]
  unfold ofEntries
  split
  · simp only [List.map_map, List.append_nil, RawOptions.mk.injEq]
    apply List.map_congr_left
    intro entry _
    dsimp only [Function.comp_apply]
    split
    · rename_i hskip
      rw [skipClause_eq, hskip]
    · rfl
  · rename_i hmissing
    have hnew : .skip ∉ entries.map Prod.fst :=
      lookup_eq_none.1 (Option.not_isSome_iff_eq_none.1 hmissing)
    have hsame : entries.map (fun entry =>
        (entry.1, if entry.1 = .skip then (toString skip).toList else entry.2)) = entries := by
      conv => rhs; rw [← List.map_id entries]
      apply List.map_congr_left
      intro entry hentry
      have hother : entry.1 ≠ .skip := fun hskip => hnew (hskip ▸ List.mem_map_of_mem hentry)
      rw [if_neg hother]
      rfl
    rw [hsame, List.map_append, skipClause_eq]
    rfl

/-- The link to another page is its path and a query string that is read as the same options in the
same order, each with its old clause but `$skip`, which asks for that page. -/
theorem parse_nextLink_eq_withSkip (h : parse query = .ok raw) (path : String) (skip : Nat) :
    ∃ text, raw.nextLink path skip = path ++ "?" ++ text ∧
      parse text = .ok (raw.withSkip skip) := by
  obtain ⟨entries, hsettled, rfl⟩ := parse_settled h
  refine ⟨queryText (linkEntries skip entries), nextLink_ofEntries entries path skip, ?_⟩
  rw [withSkip_ofEntries]
  exact parse_queryText (hsettled.linkEntries skip) (linkEntries_ne_nil skip entries)

/-- A value with every character that has a meaning in a query string. -/
theorem parse_nextLink_eq_withSkip_reserved :
    parse "?$filter=Name+eq+%27a%26b%3Dc%2B100%25+%C3%A9%27&page=7&%24skip=2&$top=2" = .ok ⟨[
        (.filter, "$filter=Name eq 'a&b=c+100% é'"), (.skip, "$skip=2"), (.top, "$top=2")]⟩ ∧
      ∃ text, nextLink ⟨[(.filter, "$filter=Name eq 'a&b=c+100% é'"), (.skip, "$skip=2"),
          (.top, "$top=2")]⟩ "/Items" 4 = "/Items" ++ "?" ++ text ∧
        parse text = .ok ⟨[(.filter, "$filter=Name eq 'a&b=c+100% é'"), (.skip, "$skip=4"),
          (.top, "$top=2")]⟩ := by
  have hread : parse "?$filter=Name+eq+%27a%26b%3Dc%2B100%25+%C3%A9%27&page=7&%24skip=2&$top=2" =
      .ok ⟨[(.filter, "$filter=Name eq 'a&b=c+100% é'"), (.skip, "$skip=2"),
        (.top, "$top=2")]⟩ := rfl
  exact ⟨hread, parse_nextLink_eq_withSkip hread "/Items" 4⟩

end EntityQuery.RawOptions
