import EntityQuery.Execution.Sorting

/-!
# Stable sorts

A list is stably sorted by a comparison if it has the same items, none of them behind a larger one,
and ties as they were before.  This determines the result.  A comparison that is no order of the
items promises nothing but the same items.

The insertion sort that records are sorted with is stable.
-/

namespace EntityQuery.Sorting

variable {α : Type} {cmp : α → α → Ordering} {items sorted other : List α} {a b item : α}

/-- A comparison orders items: it is the same from both sides, and transitive. -/
structure Orders (cmp : α → α → Ordering) (items : List α) : Prop where
  swap : ∀ a ∈ items, ∀ b ∈ items, cmp b a = (cmp a b).swap
  trans : ∀ a ∈ items, ∀ b ∈ items, ∀ c ∈ items, cmp a b ≠ .gt → cmp b c ≠ .gt → cmp a c ≠ .gt

/-- The items that tie with one. -/
def ties (cmp : α → α → Ordering) (a : α) (items : List α) : List α :=
  items.filter fun b => cmp a b == .eq

/-- A list is a stably sorted form of another. -/
structure StablySorted (cmp : α → α → Ordering) (items sorted : List α) : Prop where
  perm : sorted.Perm items
  ordered : Orders cmp items → sorted.Pairwise fun a b => cmp a b ≠ .gt
  stable : Orders cmp items → ∀ a ∈ items, ties cmp a sorted = ties cmp a items

namespace Orders

theorem mono (h : Orders cmp items) (hsub : ∀ a ∈ other, a ∈ items) : Orders cmp other where
  swap a ha b hb := h.swap a (hsub a ha) b (hsub b hb)
  trans a ha b hb c hc := h.trans a (hsub a ha) b (hsub b hb) c (hsub c hc)

theorem refl (h : Orders cmp items) (ha : a ∈ items) : cmp a a = .eq := by
  have hswap := h.swap a ha a ha
  cases hcmp : cmp a a with
  | eq => rfl
  | lt =>
      rw [hcmp] at hswap
      cases hswap
  | gt =>
      rw [hcmp] at hswap
      cases hswap

theorem eq_of_le (h : Orders cmp items) (ha : a ∈ items) (hb : b ∈ items) (hab : cmp a b ≠ .gt)
    (hba : cmp b a ≠ .gt) : cmp a b = .eq := by
  rw [h.swap a ha b hb] at hba
  cases hcmp : cmp a b with
  | eq => rfl
  | lt =>
      rw [hcmp] at hba
      exact absurd rfl hba
  | gt => exact absurd hcmp hab

/-- Items that tie with the same one tie with each other. -/
theorem eq_of_eq (h : Orders cmp items) (hitem : item ∈ items) (ha : a ∈ items) (hb : b ∈ items)
    (hia : cmp item a = .eq) (hib : cmp item b = .eq) : cmp a b = .eq := by
  have hai : cmp a item = .eq := by rw [h.swap item hitem a ha, hia]; rfl
  have hbi : cmp b item = .eq := by rw [h.swap item hitem b hb, hib]; rfl
  apply h.eq_of_le ha hb
  · exact h.trans a ha item hitem b hb (by simp [hai]) (by simp [hib])
  · exact h.trans b hb item hitem a ha (by simp [hbi]) (by simp [hia])

end Orders

/-! ## Uniqueness -/

/-- Two sorted lists with the same ties are the same. -/
theorem eq_of_ties (h : Orders cmp items) (hsorted : ∀ a ∈ sorted, a ∈ items)
    (hother : ∀ a ∈ other, a ∈ items) (hperm : sorted.Perm other)
    (hordered : sorted.Pairwise fun a b => cmp a b ≠ .gt)
    (hordered' : other.Pairwise fun a b => cmp a b ≠ .gt)
    (hties : ∀ a ∈ items, ties cmp a sorted = ties cmp a other) : sorted = other := by
  induction sorted generalizing other with
  | nil => exact hperm.nil_eq
  | cons a sorted ih =>
      cases other with
      | nil => exact absurd hperm.symm (List.not_perm_nil_cons a sorted)
      | cons b other =>
          obtain ⟨ha, hrest⟩ := List.forall_mem_cons.1 hsorted
          obtain ⟨hb, hrest'⟩ := List.forall_mem_cons.1 hother
          obtain ⟨hfirst, htail⟩ := List.pairwise_cons.1 hordered
          obtain ⟨hfirst', htail'⟩ := List.pairwise_cons.1 hordered'
          -- Both heads are least, so they tie, and are the first of their ties.
          have hab : cmp a b ≠ .gt := by
            rcases List.mem_cons.1 (hperm.mem_iff.2 (List.mem_cons_self)) with rfl | hmem
            · simp [h.refl hb]
            · exact hfirst b hmem
          have hba : cmp b a ≠ .gt := by
            rcases List.mem_cons.1 (hperm.mem_iff.1 (List.mem_cons_self)) with rfl | hmem
            · simp [h.refl ha]
            · exact hfirst' a hmem
          have htie : cmp a b = .eq := h.eq_of_le ha hb hab hba
          have hheads := hties a ha
          simp only [ties, List.filter_cons, h.refl ha, htie, beq_self_eq_true, if_true] at hheads
          obtain ⟨rfl, -⟩ := List.cons.inj hheads
          have hinner : ∀ c ∈ items, ties cmp c sorted = ties cmp c other := by
            intro c hc
            have hclass := hties c hc
            simp only [ties, List.filter_cons] at hclass ⊢
            split at hclass
            · exact (List.cons.inj hclass).2
            · exact hclass
          have heq : sorted = other := ih hrest hrest' hperm.cons_inv htail htail' hinner
          rw [heq]

/-- Where a comparison orders the items, there is only one way to sort them stably. -/
theorem StablySorted.unique (h : StablySorted cmp items sorted) (h' : StablySorted cmp items other)
    (horders : Orders cmp items) : sorted = other :=
  eq_of_ties horders (fun _ ha => h.perm.mem_iff.1 ha) (fun _ ha => h'.perm.mem_iff.1 ha)
    (h.perm.trans h'.perm.symm) (h.ordered horders) (h'.ordered horders)
    fun a ha => (h.stable horders a ha).trans (h'.stable horders a ha).symm

/-! ## Insertion -/

/-- The test by which an item moves forward. -/
def comesBefore (cmp : α → α → Ordering) (a b : α) : Bool := cmp a b == .lt

theorem insertLast_perm (before : α → α → Bool) (item : α) (sorted : List α) :
    (insertLast before item sorted).Perm (item :: sorted) := by
  induction sorted with
  | nil => exact .refl _
  | cons last rest ih =>
      rw [insertLast]
      split
      · exact (ih.cons last).trans (.swap item last rest)
      · exact .refl _

/-- The items that are already sorted are given in reverse, so the largest one comes first. -/
theorem insertLast_ordered (h : Orders cmp (item :: sorted))
    (hsorted : sorted.Pairwise fun a b => cmp b a ≠ .gt) :
    (insertLast (comesBefore cmp) item sorted).Pairwise fun a b => cmp b a ≠ .gt := by
  induction sorted with
  | nil => exact List.pairwise_singleton _ _
  | cons last rest ih =>
      obtain ⟨hlast, hrest⟩ := List.pairwise_cons.1 hsorted
      have hitem : item ∈ item :: last :: rest := by simp
      have hmem : last ∈ item :: last :: rest := by simp
      rw [insertLast]
      split
      · rename_i hbefore
        have hlt : cmp item last = .lt := by simpa [comesBefore] using hbefore
        -- The largest item stays where it is.
        refine List.pairwise_cons.2 ⟨fun b hb => ?_, ih (h.mono (by simp_all)) hrest⟩
        rcases List.mem_cons.1 ((insertLast_perm _ item rest).mem_iff.1 hb) with rfl | hb
        · simp [hlt]
        · exact hlast b hb
      · rename_i hbefore
        have hle : cmp last item ≠ .gt := by
          rw [h.swap item hitem last hmem]
          intro hgt
          apply hbefore
          rw [comesBefore, beq_iff_eq]
          exact Ordering.swap_eq_gt.1 hgt
        refine List.pairwise_cons.2 ⟨fun b hb => ?_, hsorted⟩
        rcases List.mem_cons.1 hb with rfl | hrestmem
        · exact hle
        · exact h.trans b (by simp [hrestmem]) last hmem item hitem (hlast b hrestmem) hle

/-- An item stays behind the ones it ties with. -/
theorem ties_insertLast (h : Orders cmp items) (ha : a ∈ items) (hitem : item ∈ items)
    (hsorted : ∀ b ∈ sorted, b ∈ items) :
    ties cmp a (insertLast (comesBefore cmp) item sorted) = ties cmp a (item :: sorted) := by
  induction sorted with
  | nil => rfl
  | cons last rest ih =>
      obtain ⟨hlast, hrest⟩ := List.forall_mem_cons.1 hsorted
      rw [insertLast]
      split
      · rename_i hbefore
        have hlt : cmp item last = .lt := by simpa [comesBefore] using hbefore
        -- Items of one tie are not passed, so the item keeps its place among its own.
        have hnot : ¬((cmp a item == .eq) = true ∧ (cmp a last == .eq) = true) := by
          rintro ⟨hai, hal⟩
          have htie := h.eq_of_eq ha hitem hlast (beq_iff_eq.1 hai) (beq_iff_eq.1 hal)
          rw [hlt] at htie
          cases htie
        have hinner := ih hrest
        simp only [ties, List.filter_cons] at hinner ⊢
        rw [hinner]
        split <;> split <;> simp_all
      · rfl

theorem foldl_insertLast_perm (before : α → α → Bool) (items sorted : List α) :
    (items.foldl (fun sorted item => insertLast before item sorted) sorted).Perm
      (items ++ sorted) := by
  induction items generalizing sorted with
  | nil => exact .refl _
  | cons item items ih =>
      exact (ih _).trans
        (((insertLast_perm before item sorted).append_left items).trans List.perm_middle)

/-- What holds while items are inserted: they are sorted, and ties stand in the order in which they
were inserted. -/
theorem foldl_insertLast_ordered (h : Orders cmp items) {rest : List α}
    (hrest : ∀ a ∈ rest, a ∈ items) (hsorted : ∀ a ∈ sorted, a ∈ items)
    (hordered : sorted.Pairwise fun a b => cmp b a ≠ .gt) :
    ((rest.foldl (fun sorted item => insertLast (comesBefore cmp) item sorted) sorted).Pairwise
        fun a b => cmp b a ≠ .gt) ∧
      ∀ a ∈ items,
        ties cmp a (rest.foldl (fun sorted item => insertLast (comesBefore cmp) item sorted) sorted)
          = (ties cmp a rest).reverse ++ ties cmp a sorted := by
  induction rest generalizing sorted with
  | nil => exact ⟨hordered, fun a ha => rfl⟩
  | cons item rest ih =>
      obtain ⟨hitem, hrest⟩ := List.forall_mem_cons.1 hrest
      have hinserted : ∀ a ∈ insertLast (comesBefore cmp) item sorted, a ∈ items := by
        intro a ha
        rcases List.mem_cons.1 ((insertLast_perm _ item sorted).mem_iff.1 ha) with rfl | ha
        · exact hitem
        · exact hsorted a ha
      have hcons : ∀ a ∈ item :: sorted, a ∈ items := List.forall_mem_cons.2 ⟨hitem, hsorted⟩
      obtain ⟨hpairwise, hties⟩ := ih hrest hinserted (insertLast_ordered (h.mono hcons) hordered)
      refine ⟨hpairwise, fun a ha => ?_⟩
      rw [List.foldl_cons, hties a ha, ties_insertLast h ha hitem hsorted]
      simp only [ties, List.filter_cons]
      split <;> simp

/-- Sorting by insertion is stable. -/
theorem stablySorted_sortedBy (cmp : α → α → Ordering) (items : List α) :
    StablySorted cmp items (sortedBy (comesBefore cmp) items) where
  perm := by
    have hperm := foldl_insertLast_perm (comesBefore cmp) items []
    rw [List.append_nil] at hperm
    exact (List.reverse_perm _).trans hperm
  ordered h := by
    have hordered := (foldl_insertLast_ordered h (fun a ha => ha) (by simp) .nil).1
    exact List.pairwise_reverse.2 hordered
  stable h a ha := by
    have hties := (foldl_insertLast_ordered h (fun a ha => ha) (by simp) .nil).2 a ha
    unfold ties at hties ⊢
    rw [sortedBy, List.filter_reverse, hties]
    simp

end EntityQuery.Sorting
