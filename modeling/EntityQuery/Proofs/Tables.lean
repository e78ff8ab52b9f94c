import Mathlib.Data.List.Basic

/-!
# Tables

What is found in a list by a key.  If no two entries have one key, then an entry is found exactly if
it is there, and the order of the list does not matter.  If they have, it is the first of them that
is found; a list that is sorted by its keys keeps it in front of the others.
-/

namespace EntityQuery

variable {α κ ν : Type}

section Distinct

variable [DecidableEq κ]

theorem find?_eq_some_iff_mem {f : α → κ} {as : List α} (h : (as.map f).Nodup) {key : κ} {a : α} :
    as.find? (fun a => f a == key) = some a ↔ a ∈ as ∧ f a = key := by
  induction as with
  | nil => simp
  | cons first as ih =>
      obtain ⟨hfirst, has⟩ := List.nodup_cons.1 h
      rw [List.find?_cons]
      by_cases hkey : f first = key
      · rw [beq_iff_eq.2 hkey]
        constructor
        · intro heq
          obtain rfl := Option.some.inj heq
          exact ⟨List.mem_cons_self, hkey⟩
        · rintro ⟨hmem, ha⟩
          rcases List.mem_cons.1 hmem with rfl | hmem
          · rfl
          · rw [hkey, ← ha] at hfirst
            exact absurd (List.mem_map_of_mem hmem) hfirst
      · rw [beq_false_of_ne hkey, ih has]
        refine and_congr_left fun ha => ⟨List.mem_cons_of_mem _, fun hmem => ?_⟩
        refine (List.mem_cons.1 hmem).resolve_left ?_
        rintro rfl
        exact hkey ha

theorem lookup_eq_find? (entries : List (κ × ν)) (key : κ) :
    entries.lookup key = (entries.find? fun entry => entry.1 == key).map Prod.snd := by
  induction entries with
  | nil => rfl
  | cons entry entries ih =>
      rw [List.lookup_cons, List.find?_cons, BEq.comm, ih]
      cases entry.1 == key <;> rfl

theorem lookup_eq_some_iff_mem {entries : List (κ × ν)} (h : (entries.map Prod.fst).Nodup)
    {key : κ} {value : ν} : entries.lookup key = some value ↔ (key, value) ∈ entries := by
  rw [lookup_eq_find?, Option.map_eq_some_iff]
  constructor
  · rintro ⟨entry, hentry, rfl⟩
    obtain ⟨hmem, rfl⟩ := (find?_eq_some_iff_mem h).1 hentry
    exact hmem
  · exact fun hmem => ⟨_, (find?_eq_some_iff_mem h).2 ⟨hmem, rfl⟩, rfl⟩

theorem find?_perm {f : α → κ} {as others : List α} (hperm : as.Perm others)
    (h : (as.map f).Nodup) (key : κ) :
    as.find? (fun a => f a == key) = others.find? fun a => f a == key := by
  have hothers : (others.map f).Nodup := (hperm.map f).nodup_iff.1 h
  refine Option.ext fun a => ?_
  rw [find?_eq_some_iff_mem h, find?_eq_some_iff_mem hothers, hperm.mem_iff]

theorem lookup_perm {entries others : List (κ × ν)} (hperm : entries.Perm others)
    (h : (entries.map Prod.fst).Nodup) (key : κ) : entries.lookup key = others.lookup key := by
  rw [lookup_eq_find?, lookup_eq_find?, find?_perm hperm h]

end Distinct

/-! ## Lists sorted by name -/

theorem le_name_trans (nameOf : α → String) (a b c : α)
    (hab : decide (nameOf a ≤ nameOf b) = true) (hbc : decide (nameOf b ≤ nameOf c) = true) :
    decide (nameOf a ≤ nameOf c) = true :=
  decide_eq_true (String.le_trans (of_decide_eq_true hab) (of_decide_eq_true hbc))

theorem le_name_total (nameOf : α → String) (a b : α) :
    (decide (nameOf a ≤ nameOf b) || decide (nameOf b ≤ nameOf a)) = true := by
  simpa using String.le_total (nameOf a) (nameOf b)

theorem pairwise_mergeSort_name (nameOf : α → String) (as : List α) :
    (as.mergeSort fun a b => decide (nameOf a ≤ nameOf b)).Pairwise
      fun a b => nameOf a ≤ nameOf b :=
  (List.pairwise_mergeSort (le_name_trans nameOf) (le_name_total nameOf) as).imp
    fun hle => of_decide_eq_true hle

/-- The first element of a name stays the first when a list is sorted by name. -/
theorem find?_mergeSort_name (nameOf : α → String) (as : List α) (name : String) :
    (as.mergeSort fun a b => decide (nameOf a ≤ nameOf b)).find? (fun a => nameOf a == name)
      = as.find? fun a => nameOf a == name := by
  have hties : (as.filter fun a => nameOf a == name).Pairwise
      fun a b => decide (nameOf a ≤ nameOf b) = true := by
    refine List.pairwise_of_forall_mem_list fun a ha b hb => ?_
    rw [beq_iff_eq.1 (List.mem_filter.1 ha).2, beq_iff_eq.1 (List.mem_filter.1 hb).2]
    exact decide_eq_true (String.le_refl name)
  -- The sort keeps the elements of the name in their order, and no other one comes among them.
  have hsub := (List.sublist_mergeSort (le_name_trans nameOf) (le_name_total nameOf) hties
    List.filter_sublist).filter fun a => nameOf a == name
  rw [List.filter_filter] at hsub
  simp only [Bool.and_self] at hsub
  rw [← List.head?_filter, ← List.head?_filter]
  exact congrArg List.head?
    (hsub.eq_of_length ((List.mergeSort_perm as _).filter _).length_eq.symm).symm

end EntityQuery
