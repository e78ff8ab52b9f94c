import EntityQuery.Proofs.Execution.ListProgram
import EntityQuery.Proofs.Value.Ranking
import EntityQuery.Proofs.Sample

/-!
# The order of the values of a key

The values of a key are null or scalars of one type.  Null has its place before or after all others,
and the scalars stand as their ranks do, seen in the direction of the key.  Reading the order from
the other side reverses it.  It is transitive as long as the value in the middle has a rank: a
floating point number that is none ties with every scalar, and so ties numbers that differ.

Where all values have a rank, records are ordered by all keys together.
-/

namespace EntityQuery

open ListProgram

/-- Null, or a scalar of a type. -/
def Value.IsOf (type : EdmType) (v : Value) : Prop := v = .null ∨ v.scalarType? = some type

/-! ## Orders that are put together -/

namespace Sorting.Orders

variable {α β : Type} {first second : α → α → Ordering} {items : List α}

/-- An item is ordered by what is read off it. -/
theorem of_map {cmp : β → β → Ordering} (f : α → β)
    (h : Orders (fun a b => cmp (f a) (f b)) items) : Orders cmp (items.map f) where
  swap := by
    intro a ha b hb
    obtain ⟨x, hx, rfl⟩ := List.mem_map.1 ha
    obtain ⟨y, hy, rfl⟩ := List.mem_map.1 hb
    exact h.swap x hx y hy
  trans := by
    intro a ha b hb c hc
    obtain ⟨x, hx, rfl⟩ := List.mem_map.1 ha
    obtain ⟨y, hy, rfl⟩ := List.mem_map.1 hb
    obtain ⟨z, hz, rfl⟩ := List.mem_map.1 hc
    exact h.trans x hx y hy z hz

theorem congr (h : Orders first items)
    (heq : ∀ a ∈ items, ∀ b ∈ items, second a b = first a b) : Orders second items where
  swap a ha b hb := by rw [heq a ha b hb, heq b hb a ha, h.swap a ha b hb]
  trans a ha b hb c hc := by
    rw [heq a ha b hb, heq b hb c hc, heq a ha c hc]
    exact h.trans a ha b hb c hc

/-- One strict step makes the way from one item to another strict. -/
theorem lt_of_le (h : Orders first items) {a b c : α} (ha : a ∈ items) (hb : b ∈ items)
    (hc : c ∈ items) (hab : first a b ≠ .gt) (hbc : first b c ≠ .gt)
    (hstrict : first a b = .lt ∨ first b c = .lt) : first a c = .lt := by
  have hac := h.trans a ha b hb c hc hab hbc
  cases hcmp : first a c with
  | lt => rfl
  | gt => exact absurd hcmp hac
  | eq =>
      -- Otherwise there is a way back, past the strict step.
      have hca : first c a ≠ .gt := by
        rw [h.swap a ha c hc, hcmp]
        decide
      rcases hstrict with hlt | hlt
      · have hba := h.trans b hb c hc a ha hbc hca
        rw [h.swap a ha b hb, hlt] at hba
        exact absurd rfl hba
      · have hcb := h.trans c hc a ha b hb hca hab
        rw [h.swap b hb c hc, hlt] at hcb
        exact absurd rfl hcb

/-- Where one order ties, a second one decides. -/
theorem lex (h : Orders first items) (h' : Orders second items) :
    Orders (fun a b => (first a b).then (second a b)) items where
  swap a ha b hb := by rw [h.swap a ha b hb, h'.swap a ha b hb, Ordering.swap_then]
  trans a ha b hb c hc := by
    simp only [ne_eq, ← Ordering.isLE_iff_ne_gt, Ordering.isLE_then_iff_and]
    rintro ⟨hab, hab'⟩ ⟨hbc, hbc'⟩
    rw [Ordering.isLE_iff_ne_gt] at hab hbc
    refine ⟨Ordering.isLE_iff_ne_gt.2 (h.trans a ha b hb c hc hab hbc), ?_⟩
    rcases hab' with hlt | hab'
    · exact .inl (h.lt_of_le ha hb hc hab hbc (.inl hlt))
    · rcases hbc' with hlt | hbc'
      · exact .inl (h.lt_of_le ha hb hc hab hbc (.inr hlt))
      · rw [Ordering.isLE_iff_ne_gt] at hab' hbc' ⊢
        exact .inr (h'.trans a ha b hb c hc hab' hbc')

end Sorting.Orders

/-! ## Values of one key -/

namespace Value

variable {s t u : Option (List Int)}

theorem compareRanks?_swap (s t : Option (List Int)) :
    (compareRanks? t s).getD .eq = ((compareRanks? s t).getD .eq).swap := by
  cases s with
  | none => cases t <;> rfl
  | some s =>
      cases t with
      | none => rfl
      | some t => exact Std.OrientedOrd.eq_swap

theorem compareRanks?_trans (ht : t.isSome = true) (hst : (compareRanks? s t).getD .eq ≠ .gt)
    (htu : (compareRanks? t u).getD .eq ≠ .gt) : (compareRanks? s u).getD .eq ≠ .gt := by
  obtain ⟨t, rfl⟩ := Option.isSome_iff_exists.1 ht
  cases s with
  | none => simp [compareRanks?]
  | some s =>
      cases u with
      | none => simp [compareRanks?]
      | some u =>
          exact Ordering.isLE_iff_ne_gt.1 (Std.TransOrd.isLE_trans
            (Ordering.isLE_iff_ne_gt.2 hst) (Ordering.isLE_iff_ne_gt.2 htu))

end Value

namespace SortKey

variable {key : SortKey} {keys : List SortKey} {type : EdmType} {a b c : Value}

theorem directed_swap (direction : Direction) (ordering : Ordering) :
    directed direction ordering.swap = (directed direction ordering).swap := by
  cases direction <;> rfl

theorem isNull_eq_false (h : a.scalarType? = some type) : a.isNull = false := by
  cases a <;> first | rfl | cases h

theorem compare_null_left (hb : b.scalarType? = some type) :
    key.compare .null b = beforePresent key.nulls := by
  rw [compare, isNull_eq_false hb]
  rfl

theorem compare_null_right (ha : a.scalarType? = some type) :
    key.compare a .null = (beforePresent key.nulls).swap := by
  rw [compare, isNull_eq_false ha]
  rfl

theorem compare_scalars (ha : a.scalarType? = some type) (hb : b.scalarType? = some type) :
    key.compare a b =
      directed key.direction ((Value.compareRanks? a.rank? b.rank?).getD .eq) := by
  rw [compare, isNull_eq_false ha, isNull_eq_false hb]
  dsimp only
  rw [Value.compare?_eq_compareRanks? ha hb]

theorem compare_swap (ha : a.IsOf type) (hb : b.IsOf type) :
    key.compare b a = (key.compare a b).swap := by
  rcases ha with rfl | ha
  · rcases hb with rfl | hb
    · rfl
    · rw [compare_null_left hb, compare_null_right hb]
  · rcases hb with rfl | hb
    · rw [compare_null_left ha, compare_null_right ha, Ordering.swap_swap]
    · rw [compare_scalars hb ha, compare_scalars ha hb, Value.compareRanks?_swap, directed_swap]

/-- The order of a key is transitive past null and past what has a rank. -/
theorem compare_trans (ha : a.IsOf type) (hb : b.IsOf type) (hc : c.IsOf type)
    (hrank : b = .null ∨ b.rank?.isSome = true) (hab : key.compare a b ≠ .gt)
    (hbc : key.compare b c ≠ .gt) : key.compare a c ≠ .gt := by
  rcases ha with rfl | ha
  · rcases hc with rfl | hc
    · exact Ordering.noConfusion
    · rcases hb with rfl | hb
      · exact hbc
      · rw [compare_null_left hb] at hab
        rwa [compare_null_left hc]
  · rcases hc with rfl | hc
    · rcases hb with rfl | hb
      · exact hab
      · rw [compare_null_right hb] at hbc
        rwa [compare_null_right ha]
    · rcases hb with rfl | hb
      · -- Null cannot stand between two scalars.
        rw [compare_null_right ha] at hab
        rw [compare_null_left hc] at hbc
        exfalso
        revert hab hbc
        cases key.nulls <;> decide
      · have hrank : b.rank?.isSome = true := hrank.resolve_left (by rintro rfl; cases hb)
        rw [compare_scalars ha hb] at hab
        rw [compare_scalars hb hc] at hbc
        rw [compare_scalars ha hc]
        cases hdirection : key.direction with
        | ascending =>
            rw [hdirection] at hab hbc
            exact Value.compareRanks?_trans hrank hab hbc
        | descending =>
            rw [hdirection, directed, ← Value.compareRanks?_swap] at hab hbc
            rw [directed, ← Value.compareRanks?_swap]
            exact Value.compareRanks?_trans hrank hbc hab

theorem compare_eq_trans (ha : a.IsOf type) (hb : b.IsOf type) (hc : c.IsOf type)
    (hrank : b = .null ∨ b.rank?.isSome = true) (hab : key.compare a b = .eq)
    (hbc : key.compare b c = .eq) : key.compare a c = .eq := by
  have hba : key.compare b a = .eq := by rw [compare_swap ha hb, hab]; rfl
  have hcb : key.compare c b = .eq := by rw [compare_swap hb hc, hbc]; rfl
  have hac : key.compare a c ≠ .gt :=
    compare_trans ha hb hc hrank (by simp [hab]) (by simp [hbc])
  have hca : key.compare c a ≠ .gt :=
    compare_trans hc hb ha hrank (by simp [hcb]) (by simp [hba])
  rw [compare_swap ha hc] at hca
  cases hcmp : key.compare a c with
  | eq => rfl
  | gt => exact absurd hcmp hac
  | lt =>
      rw [hcmp] at hca
      exact absurd rfl hca

theorem rank?_of_isNaN (hb : b.IsOf type) (hnumber : b.isNaN = false) :
    b = .null ∨ b.rank?.isSome = true := by
  rcases hb with rfl | hb
  · exact .inl rfl
  · right
    rw [Option.isSome_iff_ne_none]
    intro hrank
    rw [Value.isNaN_of_rank? hb hrank] at hnumber
    cases hnumber

/-- The values of a key are null or scalars of one type.  Their order is the same from both sides,
and it is transitive, and so are its ties, as long as the value in the middle is not a floating
point number that is none. -/
theorem compare_preorder (key : SortKey) (ha : a.IsOf type) (hb : b.IsOf type) (hc : c.IsOf type) :
    key.compare b a = (key.compare a b).swap ∧
      (b.isNaN = false →
        (key.compare a b ≠ .gt → key.compare b c ≠ .gt → key.compare a c ≠ .gt) ∧
        (key.compare a b = .eq → key.compare b c = .eq → key.compare a c = .eq)) := by
  refine ⟨compare_swap ha hb, fun hnumber => ?_⟩
  have hrank := rank?_of_isNaN hb hnumber
  exact ⟨compare_trans ha hb hc hrank, compare_eq_trans ha hb hc hrank⟩

/-- By price, the items without one first. -/
def samplePrice : SortKey :=
  ⟨Sample.step Sample.itemKey "Price" (.primitive .double), .ascending, .first⟩

theorem compare_preorder_sample :
    Value.IsOf (.primitive .double) .null ∧ Value.IsOf (.primitive .double) (.double 1) ∧
      Value.IsOf (.primitive .double) (.double 2) ∧ (Value.double 1).isNaN = false ∧
      samplePrice.compare .null (.double 1) ≠ .gt ∧
      samplePrice.compare (.double 1) (.double 2) ≠ .gt ∧
      samplePrice.compare .null (.double 2) ≠ .gt := by
  have hnull : Value.IsOf (.primitive .double) .null := .inl rfl
  have hone : Value.IsOf (.primitive .double) (.double 1) := .inr rfl
  have htwo : Value.IsOf (.primitive .double) (.double 2) := .inr rfl
  have hnumber : (Value.double 1).isNaN = false := by decide +kernel
  have hfirst : samplePrice.compare .null (.double 1) ≠ .gt := by decide
  have hsecond : samplePrice.compare (.double 1) (.double 2) ≠ .gt := by decide +kernel
  exact ⟨hnull, hone, htwo, hnumber, hfirst, hsecond,
    ((compare_preorder samplePrice hnull hone htwo).2 hnumber).1 hfirst hsecond⟩

/-- Two prices that differ both tie with one that is no number. -/
theorem compare_notANumber :
    Value.IsOf (.primitive .double) (.double 2) ∧
      Value.IsOf (.primitive .double) (.double (0 / 0)) ∧
      Value.IsOf (.primitive .double) (.double 1) ∧
      samplePrice.compare (.double 2) (.double (0 / 0)) = .eq ∧
      samplePrice.compare (.double (0 / 0)) (.double 1) = .eq ∧
      samplePrice.compare (.double 2) (.double 1) = .gt := by
  refine ⟨.inr rfl, .inr rfl, .inr rfl, ?_⟩
  decide +kernel

/-! ## Several keys -/

variable {α : Type} {items : List α}

theorem orders_compare (value : α → Value) (hvalue : ∀ a ∈ items, (value a).IsOf type)
    (hrank : ∀ a ∈ items, value a = .null ∨ (value a).rank?.isSome = true) :
    Sorting.Orders (fun a b => key.compare (value a) (value b)) items where
  swap a ha b hb := compare_swap (hvalue a ha) (hvalue b hb)
  trans a ha b hb c hc := compare_trans (hvalue a ha) (hvalue b hb) (hvalue c hc) (hrank b hb)

/-- Keys that each order the items order them together. -/
theorem orders_compareAll (value : SortKey → α → Value)
    (h : ∀ key ∈ keys, Sorting.Orders (fun a b => key.compare (value key a) (value key b)) items) :
    Sorting.Orders (fun a b => compareAll keys (keys.map fun key => value key a)
      (keys.map fun key => value key b)) items := by
  induction keys with
  | nil => exact ⟨fun _ _ _ _ => rfl, fun _ _ _ _ _ _ _ _ => Ordering.noConfusion⟩
  | cons key keys ih =>
      obtain ⟨hkey, hkeys⟩ := List.forall_mem_cons.1 h
      exact hkey.lex (ih hkeys)

end SortKey

end EntityQuery
