import EntityQuery.Expression.Tree
import Mathlib.Data.List.Basic
import Mathlib.Order.Basic

/-!
# Positions in an expression

A position is the way from the whole expression to one inside it: at each step the place of the
next expression among those right inside the present one.  Positions are ordered as lists, so that
an expression comes before those inside it, and what is inside its left part before what is inside
its right part.

The nodes of an expression stand in the order of their positions.  What is found first among them is
therefore at the first position where there is anything to find
(`exists_first_of_findSome?_nodes`).
-/

namespace EntityQuery.Expression

variable {e n : Expression} {es : List Expression} {β : Type} {f : Expression → Option β} {b : β}

/-- The expressions right inside an expression, from left to right. -/
def inner : Expression → List Expression
  | binary _ left right => [left, right]
  | unary _ operand => [operand]
  | call _ arguments => arguments
  | lambda _ source _ body => source :: body.toList
  | literal _ | path _ _ => []

/-- The expression at a position. -/
def at? (e : Expression) : List Nat → Option Expression
  | [] => some e
  | place :: rest => e.inner[place]?.bind fun part => part.at? rest

theorem nodesOfAll_eq_flatMap (es : List Expression) : nodesOfAll es = es.flatMap nodes := by
  induction es with
  | nil => rfl
  | cons e es ih => rw [nodesOfAll, ih, List.flatMap_cons]

theorem nodes_eq (e : Expression) : e.nodes = e :: e.inner.flatMap nodes := by
  cases e with
  | binary | unary | literal | path => simp [nodes, inner]
  | call => rw [nodes, nodesOfAll_eq_flatMap, inner]
  | lambda _ _ _ body => cases body <;> simp [nodes, inner]

theorem sizeOf_lt_of_mem_inner (h : n ∈ e.inner) : sizeOf n < sizeOf e := by
  cases e with
  | binary operator left right =>
      rcases List.mem_pair.1 h with rfl | rfl
      · simp only [binary.sizeOf_spec]
        omega
      · simp only [binary.sizeOf_spec]
        omega
  | unary operator operand =>
      obtain rfl := List.mem_singleton.1 h
      simp only [unary.sizeOf_spec]
      omega
  | call function arguments =>
      have hsize : sizeOf n < sizeOf arguments := List.sizeOf_lt_of_mem h
      simp only [call.sizeOf_spec]
      omega
  | lambda quantifier source parameter body =>
      rcases List.mem_cons.1 h with rfl | h
      · simp only [lambda.sizeOf_spec]
        omega
      · obtain rfl := Option.mem_toList.1 h
        simp only [lambda.sizeOf_spec, Option.some.sizeOf_spec]
        omega
  | literal | path => cases h

/-- What holds of an expression if it holds of those right inside it holds of all. -/
theorem inner_induction {P : Expression → Prop} (h : ∀ e, (∀ n ∈ e.inner, P n) → P e)
    (e : Expression) : P e :=
  h e fun n _ => inner_induction h n
termination_by sizeOf e
decreasing_by exact sizeOf_lt_of_mem_inner ‹_›

/-! ## What is found among the nodes -/

/-- If nothing is found among the nodes, there is nothing at any position. -/
theorem findSome?_nodes_eq_none_iff : e.nodes.findSome? f = none ↔
    ∀ position n, e.at? position = some n → f n = none := by
  rw [List.findSome?_eq_none_iff]
  induction e using inner_induction with
  | h e ih =>
      rw [nodes_eq, List.forall_mem_cons]
      constructor
      · rintro ⟨hroot, hinner⟩ position n hn
        cases position with
        | nil => rwa [← Option.some.inj hn]
        | cons place rest =>
            obtain ⟨part, hpart, hn⟩ := Option.bind_eq_some_iff.1 hn
            have hmem := List.mem_of_getElem? hpart
            refine (ih part hmem).1 (fun m hm => ?_) rest n hn
            exact hinner m (List.mem_flatMap.2 ⟨part, hmem, hm⟩)
      · intro hnone
        refine ⟨hnone [] e rfl, fun m hm => ?_⟩
        obtain ⟨part, hpart, hm⟩ := List.mem_flatMap.1 hm
        obtain ⟨place, hplace⟩ := List.mem_iff_getElem?.1 hpart
        refine (ih part hpart).2 (fun rest n hn => hnone (place :: rest) n ?_) m hm
        rw [at?, hplace]
        exact hn

/-- What is found among the nodes of several expressions is found in one of them, and nothing in
those before it. -/
theorem findSome?_flatMap_nodes (h : (es.flatMap nodes).findSome? f = some b) :
    ∃ (place : Nat) (part : Expression), es[place]? = some part ∧ part.nodes.findSome? f = some b ∧
      ∀ earlier < place, ∀ other : Expression, es[earlier]? = some other →
        other.nodes.findSome? f = none := by
  induction es with
  | nil => cases h
  | cons e es ih =>
      rw [List.flatMap_cons, List.findSome?_append] at h
      cases hfirst : e.nodes.findSome? f with
      | some found =>
          rw [hfirst] at h
          exact ⟨0, e, rfl, hfirst.trans h, fun earlier hearlier => absurd hearlier (by simp)⟩
      | none =>
          rw [hfirst] at h
          obtain ⟨place, part, hpart, hfound, hnone⟩ := ih h
          refine ⟨place + 1, part, hpart, hfound, fun earlier hearlier other hother => ?_⟩
          cases earlier with
          | zero => rwa [← Option.some.inj hother]
          | succ earlier => exact hnone earlier (Nat.lt_of_succ_lt_succ hearlier) other hother

/-- What is found first among the nodes is at the first position where there is anything. -/
theorem exists_first_of_findSome?_nodes (h : e.nodes.findSome? f = some b) :
    ∃ position n, e.at? position = some n ∧ f n = some b ∧
      ∀ earlier < position, ∀ m, e.at? earlier = some m → f m = none := by
  induction e using inner_induction with
  | h e ih =>
      rw [nodes_eq, List.findSome?_cons] at h
      cases hroot : f e with
      | some found =>
          rw [hroot] at h
          exact ⟨[], e, rfl, hroot.trans h, fun earlier hearlier => absurd hearlier (by simp)⟩
      | none =>
          rw [hroot] at h
          obtain ⟨place, part, hpart, hfound, hnone⟩ := findSome?_flatMap_nodes h
          obtain ⟨rest, n, hn, hb, hfirst⟩ := ih part (List.mem_of_getElem? hpart) hfound
          refine ⟨place :: rest, n, by rw [at?, hpart]; exact hn, hb,
            fun earlier hearlier m hm => ?_⟩
          cases earlier with
          | nil => rwa [← Option.some.inj hm]
          | cons other others =>
              obtain ⟨found, hother, hm⟩ := Option.bind_eq_some_iff.1 hm
              rcases List.cons_lt_cons_iff.1 hearlier with hless | ⟨rfl, hless⟩
              · exact findSome?_nodes_eq_none_iff.1 (hnone other hless found hother) others m hm
              · obtain rfl := Option.some.inj (hpart.symm.trans hother)
                exact hfirst others hless m hm

end EntityQuery.Expression
