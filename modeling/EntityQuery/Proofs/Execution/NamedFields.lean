import EntityQuery.Proofs.Execution.FilterFusion
import EntityQuery.Proofs.Expression.Positions
import Mathlib.Data.List.FinRange

/-!
# What an expression reads of a record

An expression names a field of the record it is evaluated on by a path that begins at the record.
Paths that begin at the parameter of a lambda read the elements of a collection instead, however
deep they stand.  Two records that have the same values in the named fields cannot be told apart by
the expression, wherever else they differ: it gives the same value on both, or fails in the same way
(`evaluate_congr`).  A filter therefore keeps the same places of two lists of such records.
-/

namespace EntityQuery

namespace Expression

/-- The field of the record itself that an expression begins at. -/
def outerField? : Expression → Option String
  | path steps none => some steps.first.name
  | _ => none

/-- The fields of the record that an expression names, anywhere inside it. -/
def namedFields (e : Expression) : List String := e.nodes.filterMap outerField?

/-- Two records have the same values in the fields that an expression names. -/
def Agree (e : Expression) (r s : Record) : Prop :=
  ∀ name ∈ e.namedFields, r.field name = s.field name

variable {e n : Expression} {r s : Record}

theorem Agree.inner (h : Agree e r s) (hn : n ∈ e.inner) : Agree n r s := by
  intro name hname
  obtain ⟨m, hm, hfield⟩ := List.mem_filterMap.1 hname
  refine h name (List.mem_filterMap.2 ⟨m, ?_, hfield⟩)
  rw [nodes_eq]
  exact List.mem_cons_of_mem _ (List.mem_flatMap.2 ⟨n, hn, hm⟩)

theorem evaluateAll_congr {bindings : Bindings} {arguments : List Expression}
    (h : ∀ a ∈ arguments, evaluate r bindings a = evaluate s bindings a) :
    evaluateAll r bindings arguments = evaluateAll s bindings arguments := by
  induction arguments with
  | nil => rfl
  | cons a arguments ih =>
      obtain ⟨hfirst, hothers⟩ := List.forall_mem_cons.1 h
      rw [evaluateAll, evaluateAll, hfirst, ih hothers]

/-- Records that agree on the named fields are the same to an expression, inside any lambdas. -/
theorem evaluate_congr (h : Agree e r s) (bindings : Bindings) :
    evaluate r bindings e = evaluate s bindings e := by
  induction e using inner_induction generalizing bindings with
  | h e ih =>
      have hinner (n : Expression) (hn : n ∈ e.inner) (bindings : Bindings) :
          evaluate r bindings n = evaluate s bindings n := ih n hn (h.inner hn) bindings
      cases e with
      | literal constant => rw [evaluate, evaluate]
      | path steps root =>
          cases root with
          | none =>
              have hself : path steps none ∈ (path steps none).nodes := by simp [nodes]
              have hfield : r.field steps.first.name = s.field steps.first.name :=
                h _ (List.mem_filterMap.2 ⟨_, hself, rfl⟩)
              rw [evaluate, evaluate, rootOf, rootOf, ok_bind, ok_bind, readPath, readPath, hfield]
          | some parameter =>
              -- The path begins at an element, and both records see the same elements.
              rw [evaluate, evaluate]
              rfl
      | binary operator left right =>
          rw [evaluate, evaluate, hinner left (by simp [inner]), hinner right (by simp [inner])]
      | unary operator operand =>
          rw [evaluate, evaluate, hinner operand (by simp [inner])]
      | call function arguments =>
          have hall : evaluateAll r bindings arguments = evaluateAll s bindings arguments :=
            evaluateAll_congr fun a ha => hinner a ha bindings
          rw [evaluate, evaluate, hall]
      | lambda quantifier source parameter body =>
          have hsource := hinner source (by simp [inner]) bindings
          cases body with
          | none => rw [evaluate, evaluate, hsource]
          | some body =>
              have hbody (element : Record) :=
                hinner body (by simp [inner]) ((parameter, element) :: bindings)
              simp only [evaluate, hsource, hbody]

end Expression

namespace Pipeline

open ListProgram Expression

variable {e : Expression} {r s : Record}

theorem passes_congr (h : Agree e r s) : passes e r = passes e s := by
  rw [passes, passes, test, test, evaluateOn, evaluateOn, evaluate_congr h]

/-- The places of one list lead through another one of the same length. -/
theorem map_get_cast {rs ss : List Record} (h : rs.length = ss.length) :
    (List.finRange rs.length).map (fun place => ss.get (place.cast h)) = ss := by
  apply List.ext_getElem
  · simp [h]
  · intro place _ _
    simp

/-- An expression reads nothing of a record but the fields it names.  On records that agree on these
it evaluates alike, and a filter keeps the same places of lists of such records, or fails alike. -/
theorem filter_reads_named_fields (e : Expression) :
    (∀ (r s : Record) (bindings : Bindings),
        (∀ name ∈ e.namedFields, r.field name = s.field name) →
        evaluate r bindings e = evaluate s bindings e) ∧
      ∀ (rs ss : List Record) (h : List.Forall₂ (Agree e) rs ss),
        ∃ places : Except QueryError (List (Fin rs.length)),
          (∀ kept, places = .ok kept →
            kept = (List.finRange rs.length).filter fun place => e.isTrueOn (rs.get place)) ∧
          (build rs [.filter e]).collect = places.map (List.map rs.get) ∧
          (build ss [.filter e]).collect =
            places.map (List.map fun place => ss.get (place.cast h.length_eq)) := by
  refine ⟨fun r s bindings h => evaluate_congr h bindings, fun rs ss h => ?_⟩
  have hagree (place : Fin rs.length) :
      passes e (ss.get (place.cast h.length_eq)) = passes e (rs.get place) :=
    (passes_congr (h.get place.isLt (place.cast h.length_eq).isLt)).symm
  refine ⟨keep (fun place => passes e (rs.get place)) (List.finRange rs.length), ?_, ?_, ?_⟩
  · intro kept hkept
    exact keep_eq_filter (fun place b hb => isTrueOn_of_test (passes_eq_ok.1 hb)) hkept
  · rw [collect_filter, ← keep_map, List.map_get_finRange]
  · simp only [← hagree]
    rw [collect_filter, ← keep_map, map_get_cast]

open Sample

/-- A screw is not a bolt, but it has the same price and parts, and so it is with pins and nuts. -/
def screw : Record := item 5 "Screw" 12 [part 2 4]

def pin : Record := item 6 "Pin" 3 []

/-- The filter of the sample asks for prices and parts only. -/
theorem filter_reads_named_fields_items :
    List.Forall₂ (Agree Sample.filter) [bolt, nut] [screw, pin] ∧
      (build [bolt, nut] [.filter Sample.filter]).collect = .ok [bolt] ∧
      (build [screw, pin] [.filter Sample.filter]).collect = .ok [screw] := by
  have hnames : Sample.filter.namedFields = ["Price", "Parts"] := rfl
  have hagree {r s : Record} (hprice : r.field "Price" = s.field "Price")
      (hparts : r.field "Parts" = s.field "Parts") : Agree Sample.filter r s := by
    intro field hfield
    rw [hnames] at hfield
    simp only [List.mem_cons, List.not_mem_nil, or_false] at hfield
    rcases hfield with rfl | rfl
    · exact hprice
    · exact hparts
  have hlists : List.Forall₂ (Agree Sample.filter) [bolt, nut] [screw, pin] :=
    .cons (hagree rfl rfl) (.cons (hagree rfl rfl) .nil)
  obtain ⟨places, hplaces, hfirst, hsecond⟩ :=
    (filter_reads_named_fields Sample.filter).2 _ _ hlists
  have hkept : (build [bolt, nut] [.filter Sample.filter]).collect = .ok [bolt] := by
    rw [collect_filter]
    rfl
  rw [hkept] at hfirst
  obtain ⟨kept, rfl, -⟩ := map_eq_ok.1 hfirst.symm
  obtain rfl := hplaces kept rfl
  exact ⟨hlists, hkept, hsecond⟩

end Pipeline

end EntityQuery
