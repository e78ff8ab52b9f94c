import EntityQuery.Text.Search
import Mathlib.Data.List.Infix

/-!
# Occurrences of a text in another

A text occurs in another behind some characters, and other characters may follow.  The empty text
occurs at every place, the end included.  Searching from the left finds the first place, and finds
none only if there is none.
-/

namespace EntityQuery.Text

variable {part whole : List Char} {c : Char} {place : Nat}

/-- A text stands in another behind so many characters. -/
def OccursAt (part whole : List Char) (place : Nat) : Prop :=
  ∃ before after, whole = before ++ part ++ after ∧ before.length = place

/-- A text stands in another at a place and nowhere further to the left. -/
structure FirstAt (part whole : List Char) (place : Nat) : Prop where
  occurs : OccursAt part whole place
  first : ∀ earlier < place, ¬OccursAt part whole earlier

theorem occursAt_zero_iff : OccursAt part whole 0 ↔ part <+: whole := by
  constructor
  · rintro ⟨before, after, rfl, hbefore⟩
    obtain rfl := List.eq_nil_of_length_eq_zero hbefore
    exact ⟨after, rfl⟩
  · rintro ⟨after, rfl⟩
    exact ⟨[], after, rfl, rfl⟩

theorem occursAt_cons_succ_iff : OccursAt part (c :: whole) (place + 1) ↔
    OccursAt part whole place := by
  constructor
  · rintro ⟨before, after, heq, hbefore⟩
    cases before with
    | nil => cases hbefore
    | cons first before =>
        obtain ⟨rfl, rfl⟩ := List.cons.inj heq
        exact ⟨before, after, rfl, Nat.succ.inj hbefore⟩
  · rintro ⟨before, after, rfl, rfl⟩
    exact ⟨c :: before, after, rfl, rfl⟩

theorem OccursAt.le_length (h : OccursAt part whole place) :
    place + part.length ≤ whole.length := by
  obtain ⟨before, after, rfl, rfl⟩ := h
  simp only [List.length_append]
  omega

/-- What stands at the place of an occurrence is the text. -/
theorem OccursAt.take_drop (h : OccursAt part whole place) :
    (whole.drop place).take part.length = part := by
  obtain ⟨before, after, rfl, rfl⟩ := h
  rw [List.append_assoc, List.drop_left, List.take_left]

/-! ## Searching from the left -/

theorem firstAt_of_indexOf? (h : indexOf? part whole = some place) : FirstAt part whole place := by
  induction whole generalizing place with
  | nil =>
      unfold indexOf? at h
      split at h
      · rename_i hempty
        obtain rfl := Option.some.inj h
        obtain rfl := List.isEmpty_iff.1 hempty
        exact ⟨occursAt_zero_iff.2 (List.prefix_refl _),
          fun _ hlt => absurd hlt (Nat.not_lt_zero _)⟩
      · cases h
  | cons c rest ih =>
      unfold indexOf? at h
      split at h
      · rename_i hhere
        obtain rfl := Option.some.inj h
        exact ⟨occursAt_zero_iff.2 (List.isPrefixOf_iff_prefix.1 hhere),
          fun _ hlt => absurd hlt (Nat.not_lt_zero _)⟩
      · rename_i hhere
        obtain ⟨before, hbefore, rfl⟩ := Option.map_eq_some_iff.1 h
        obtain ⟨hoccurs, hfirst⟩ := ih hbefore
        refine ⟨occursAt_cons_succ_iff.2 hoccurs, fun earlier hlt hearlier => ?_⟩
        cases earlier with
        | zero => exact hhere (List.isPrefixOf_iff_prefix.2 (occursAt_zero_iff.1 hearlier))
        | succ earlier =>
            exact hfirst earlier (Nat.lt_of_succ_lt_succ hlt) (occursAt_cons_succ_iff.1 hearlier)

theorem indexOf?_ne_none (h : OccursAt part whole place) : indexOf? part whole ≠ none := by
  induction whole generalizing place with
  | nil =>
      have hlength : place + part.length ≤ 0 := h.le_length
      obtain rfl : part = [] := List.eq_nil_of_length_eq_zero (by omega)
      exact Option.some_ne_none 0
  | cons c rest ih =>
      unfold indexOf?
      split
      · exact Option.some_ne_none 0
      · rename_i hhere
        cases place with
        | zero => exact absurd (List.isPrefixOf_iff_prefix.2 (occursAt_zero_iff.1 h)) hhere
        | succ place =>
            rw [ne_eq, Option.map_eq_none_iff]
            exact ih (occursAt_cons_succ_iff.1 h)

/-- The search finds the first place. -/
theorem indexOf?_eq_some_iff : indexOf? part whole = some place ↔ FirstAt part whole place := by
  refine ⟨firstAt_of_indexOf?, fun h => ?_⟩
  obtain ⟨found, hfound⟩ := Option.ne_none_iff_exists'.1 (indexOf?_ne_none h.occurs)
  have hfirst := firstAt_of_indexOf? hfound
  rcases Nat.lt_trichotomy found place with hlt | rfl | hlt
  · exact absurd hfirst.occurs (h.first found hlt)
  · exact hfound
  · exact absurd h.occurs (hfirst.first place hlt)

/-- The search finds nothing only where there is nothing. -/
theorem indexOf?_eq_none_iff :
    indexOf? part whole = none ↔ ∀ place, ¬OccursAt part whole place := by
  constructor
  · intro hnone place h
    exact indexOf?_ne_none h hnone
  · intro h
    refine Option.eq_none_iff_forall_ne_some.2 fun place hplace => ?_
    exact h place (firstAt_of_indexOf? hplace).occurs

/-- A text occurs first at the front exactly if it begins the other. -/
theorem firstAt_zero_iff : FirstAt part whole 0 ↔ part <+: whole :=
  ⟨fun h => occursAt_zero_iff.1 h.occurs,
    fun h => ⟨occursAt_zero_iff.2 h, fun _ hlt => absurd hlt (Nat.not_lt_zero _)⟩⟩

end EntityQuery.Text
