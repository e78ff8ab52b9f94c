import EntityQuery.Options.Raw
import EntityQuery.Proofs.Result

/-!
# Clauses of a query string

Reading a query string leaves one clause for each option: its name, an equality sign and a value
that is not blank.  So the raw options are determined by the options and their values.
-/

namespace EntityQuery.RawOptions

open Text

variable {option : SystemOption} {value cs : List Char} {raw raw' : RawOptions}
  {entries : List (SystemOption × List Char)}

/-- The clause that gives an option a value. -/
def clauseText (option : SystemOption) (value : List Char) : List Char :=
  option.name.toList ++ '=' :: value

/-- The raw options with these values. -/
def ofEntries (entries : List (SystemOption × List Char)) : RawOptions :=
  ⟨entries.map fun entry => (entry.1, String.ofList (clauseText entry.1 entry.2))⟩

/-- No option has two values, and none of the values is blank. -/
structure Settled (entries : List (SystemOption × List Char)) : Prop where
  nodup : (entries.map Prod.fst).Nodup
  filled : ∀ entry ∈ entries, entry.2.all isBlank = false

theorem lookup_eq_none : entries.lookup option = none ↔ option ∉ entries.map Prod.fst := by
  rw [List.lookup_eq_none_iff]
  constructor
  · intro hnone hmem
    obtain ⟨entry, hentry, rfl⟩ := List.mem_map.1 hmem
    exact bne_iff_ne.1 (hnone entry hentry) rfl
  · intro hnew entry hentry
    rw [bne_iff_ne]
    rintro rfl
    exact hnew (List.mem_map_of_mem hentry)

theorem Settled.concat (h : Settled entries) (hnew : option ∉ entries.map Prod.fst)
    (hfilled : value.all isBlank = false) : Settled (entries ++ [(option, value)]) := by
  constructor
  · rw [List.map_append, List.nodup_append]
    refine ⟨h.nodup, by simp, ?_⟩
    rintro a ha b hb rfl
    rw [List.map_singleton, List.mem_singleton] at hb
    rw [hb] at ha
    exact hnew ha
  · intro entry hentry
    rcases List.mem_append.1 hentry with hold | hlast
    · exact h.filled entry hold
    · rw [List.mem_singleton.1 hlast]
      exact hfilled

theorem name_plain : ∀ c ∈ option.name.toList, c ≠ '=' ∧ c ≠ '&' ∧ c ≠ '+' ∧ c ≠ '%' := by
  cases option <;> decide

theorem splitClause_clauseText (option : SystemOption) (value : List Char) :
    splitClause (clauseText option value) = (option.name.toList, value) := by
  have hname : ∀ c ∈ option.name.toList, (c != '=') = true := by
    intro c hc
    exact bne_iff_ne.2 (name_plain c hc).1
  rw [splitClause, clauseText, List.takeWhile_append_of_pos hname,
    List.dropWhile_append_of_pos hname]
  simp

theorem lookup_ofEntries (option : SystemOption) (entries : List (SystemOption × List Char)) :
    (ofEntries entries).clause? option =
      (entries.lookup option).map fun value => String.ofList (clauseText option value) := by
  unfold clause? ofEntries
  induction entries with
  | nil => rfl
  | cons entry entries ih =>
      rw [List.map_cons, List.lookup_cons, List.lookup_cons]
      cases heq : option == entry.1 with
      | false => exact ih
      | true =>
          rw [beq_iff_eq.1 heq]
          rfl

/-- The values that raw options were given. -/
theorem value?_ofEntries (option : SystemOption) (entries : List (SystemOption × List Char)) :
    (ofEntries entries).value? option = (entries.lookup option).map String.ofList := by
  have hvalue (value : List Char) :
      clauseValue (String.ofList (clauseText option value)) = String.ofList value := by
    rw [clauseValue, String.toList_ofList, splitClause_clauseText]
  rw [value?, lookup_ofEntries]
  cases entries.lookup option with
  | none => rfl
  | some value => exact congrArg some (hvalue value)

/-! ## Adding a clause -/

theorem addClause_clauseText (hfilled : value.all isBlank = false)
    (hnew : option ∉ entries.map Prod.fst) :
    (ofEntries entries).addClause (clauseText option value) =
      .ok (ofEntries (entries ++ [(option, value)])) := by
  unfold addClause
  simp only [splitClause_clauseText, String.ofList_toList, SystemOption.ofName?_name, hfilled,
    lookup_ofEntries, lookup_eq_none.2 hnew, Option.map_none, Option.isSome_none]
  simp [ofEntries]

theorem addClause_eq_ok (h : raw.addClause cs = .ok raw') :
    ∃ option value, cs = clauseText option value ∧ value.all isBlank = false ∧
      raw.clause? option = none ∧ raw' = ⟨raw.clauses ++ [(option, String.ofList cs)]⟩ := by
  unfold addClause at h
  generalize hsplit : splitClause cs = split at h
  obtain ⟨name, value⟩ := split
  simp only at h
  split at h
  · cases h
  · rename_i option hoption
    split at h
    · cases h
    · rename_i hfilled
      split at h
      · cases h
      · rename_i hnew
        have hname : option.name = String.ofList name := by
          simpa using List.find?_some hoption
        -- A value that is not blank has an equality sign before it.
        have hcs : cs = name ++ '=' :: value := by
          unfold splitClause at hsplit
          obtain ⟨rfl, hvalue⟩ := Prod.mk.inj hsplit
          cases hdrop : cs.dropWhile (· != '=') with
          | nil =>
              rw [hdrop] at hvalue
              subst hvalue
              simp at hfilled
          | cons c rest =>
              have hc := List.head?_dropWhile_not (· != '=') cs
              rw [hdrop] at hc hvalue
              simp only [List.head?_cons, List.drop_succ_cons, List.drop_zero] at hc hvalue
              have heq : c = '=' := by simpa using hc
              rw [← heq, ← hvalue, ← hdrop, heq, List.takeWhile_append_dropWhile]
        refine ⟨option, value, ?_, by simpa using hfilled, by simpa using hnew, ?_⟩
        · rw [clauseText, hname, String.toList_ofList, hcs]
        · exact (Except.ok.inj h).symm

/-! ## Reading a query string -/

theorem addPart_settled {part : List Char} (hsettled : Settled entries)
    (h : (ofEntries entries).addPart part = .ok raw) :
    ∃ entries', Settled entries' ∧ raw = ofEntries entries' := by
  obtain ⟨cs, -, h⟩ := bind_eq_ok.1 h
  split at h
  · obtain ⟨option, value, rfl, hfilled, hnew, rfl⟩ := addClause_eq_ok h
    rw [lookup_ofEntries, Option.map_eq_none_iff, lookup_eq_none] at hnew
    exact ⟨entries ++ [(option, value)], hsettled.concat hnew hfilled, by simp [ofEntries]⟩
  · exact ⟨entries, hsettled, (pure_eq_ok.1 h).symm⟩

/-- What reading a query string gives is settled. -/
theorem parse_settled {query : String} (h : parse query = .ok raw) :
    ∃ entries, Settled entries ∧ raw = ofEntries entries := by
  have hfold (parts : List (List Char)) : ∀ {entries}, Settled entries →
      parts.foldlM addPart (ofEntries entries) = .ok raw →
      ∃ entries', Settled entries' ∧ raw = ofEntries entries' := by
    induction parts with
    | nil =>
        intro entries hsettled hparts
        exact ⟨entries, hsettled, (pure_eq_ok.1 hparts).symm⟩
    | cons part parts ih =>
        intro entries hsettled hparts
        rw [List.foldlM_cons] at hparts
        obtain ⟨next, hnext, hparts⟩ := bind_eq_ok.1 hparts
        obtain ⟨entries', hsettled', rfl⟩ := addPart_settled hsettled hnext
        exact ih hsettled' hparts
  have hempty : Settled [] := ⟨List.nodup_nil, by simp⟩
  exact hfold _ hempty h

end EntityQuery.RawOptions
