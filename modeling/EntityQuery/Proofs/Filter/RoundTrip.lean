import EntityQuery.Proofs.Filter.Calls
import EntityQuery.Proofs.Sample

/-!
# Printing and reading a filter

Reading a filter and printing the tree loses white space and superfluous parentheses, and adds the
parentheses that show how the filter was grouped.  Nothing else is lost: the printed text is read as
the same tree again.

A property named like an operator would spoil this.  `(and)` names a property, but behind an opening
parenthesis it is printed in front of a blank, where it is the operator.
-/

namespace EntityQuery.Filter

variable {model : Model} {scope : Scope} {e : Expression}

/-- Words are printed for every argument of a list. -/
theorem exists_parts {arguments : List Expression}
    (h : ∀ e ∈ arguments, ∃ words, Prints model scope e words) :
    ∃ parts : List (Expression × List (TokenKind × String)),
      parts.map Prod.fst = arguments ∧ ∀ part ∈ parts, Prints model scope part.1 part.2 := by
  induction arguments with
  | nil => exact ⟨[], rfl, by simp⟩
  | cons e arguments ih =>
      obtain ⟨⟨words, hwords⟩, hrest⟩ := List.forall_mem_cons.1 h
      obtain ⟨parts, rfl, hparts⟩ := ih hrest
      exact ⟨(e, words) :: parts, rfl, List.forall_mem_cons.2 ⟨hwords, hparts⟩⟩

/-- What can be read is printed as words that are read as the same expression. -/
theorem Readable.prints
    (hnames : ∀ type ∈ model.complexTypes, ∀ p ∈ type.properties, p.name ∉ reservedWords)
    (h : Readable model scope e) : ∃ words, Prints model scope e words := by
  induction h with
  | literal hkind hread htext hspelled => exact ⟨_, prints_literal hkind hread htext hspelled⟩
  | path hresolve hspelled =>
      have hword := not_reserved_of_resolvePath hnames hresolve
      exact ⟨_, prints_path hresolve (hspelled hword)⟩
  | @binary _ operator _ _ _ _ ihleft ihright =>
      obtain ⟨leftWords, hleft⟩ := ihleft
      obtain ⟨rightWords, hright⟩ := ihright
      exact ⟨_, hleft.binary hright operator⟩
  | @unary _ operator _ _ ih =>
      obtain ⟨words, hwords⟩ := ih
      cases operator
      exact ⟨_, hwords.not⟩
  | @call _ function _ harity _ ih =>
      obtain ⟨parts, rfl, hparts⟩ := exists_parts ih
      cases parts with
      | nil =>
          have hnone : function.accepts 0 = false := by cases function <;> decide
          rw [List.map_nil, List.length_nil, hnone] at harity
          cases harity
      | cons part parts =>
          obtain ⟨hpart, hparts⟩ := List.forall_mem_cons.1 hparts
          exact ⟨_, prints_call function hpart hparts harity⟩
  | @lambda _ quantifier _ _ _ _ parameter body hresolve helement hspelled hempty hfresh _ ih =>
      cases body with
      | none =>
          obtain ⟨rfl, rfl⟩ := hempty rfl
          exact ⟨_, prints_exists hresolve helement hspelled⟩
      | some body =>
          obtain ⟨hname, hparameter⟩ := hfresh (by simp)
          obtain ⟨words, hwords⟩ := ih body rfl
          exact ⟨_, prints_lambda hresolve helement hspelled hname hparameter hwords⟩

/-- An expression that is printed as words is read from its text. -/
theorem parse_of_prints {type : TypeKey} {words : List (TokenKind × String)}
    (h : Prints model ⟨type, []⟩ e words) : parse model type e.text = .ok e := by
  have hreads : Reads e.text.toList words := by
    have hwhole := h.reads delimited_nil reads_nil
    rwa [List.append_nil, List.append_nil] at hwhole
  have hne : words ≠ [] := by
    obtain ⟨word, others, rfl, -⟩ := h.front
    exact List.cons_ne_nil _ _
  exact parse_of_reads hne hreads (fun hwords => (h.enclosed hwords).deepen)
    fun hwords => h.nested hwords (Nat.le_refl _)

/-- The text of a filter that was read is read as the same filter. -/
theorem parse_text {type : TypeKey} {input : String}
    (hnames : ∀ type ∈ model.complexTypes, ∀ p ∈ type.properties, p.name ∉ reservedWords)
    (h : parse model type input = .ok e) : parse model type e.text = .ok e := by
  obtain ⟨words, hwords⟩ := (readable_of_parse h).prints hnames
  exact parse_of_prints hwords

/-- A filter is printed with all its parentheses, and read again. -/
theorem parse_text_sample :
    (∀ type ∈ Sample.model.complexTypes, ∀ p ∈ type.properties, p.name ∉ reservedWords) ∧
      parse Sample.model Sample.itemKey "Price add 1 gt 10 and not Parts/any(p:p/Count eq null)"
        = .ok Sample.filter ∧
      Sample.filter.text
        = "(((Price add 1) gt 10) and (not Parts/any(p: (p/Count eq null))))" ∧
      parse Sample.model Sample.itemKey Sample.filter.text = .ok Sample.filter := by
  have hparse : parse Sample.model Sample.itemKey
      "Price add 1 gt 10 and not Parts/any(p:p/Count eq null)" = .ok Sample.filter := rfl
  exact ⟨by decide, hparse, by decide, parse_text (by decide) hparse⟩

end EntityQuery.Filter
