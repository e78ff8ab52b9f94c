import EntityQuery.Proofs.Execution.Dialogue

/-!
# Sorted records

Records are sorted by several keys.  What comes first is settled by the first key on which two
records do not tie: a record without it has its place before or after all others, whatever the
direction, and the direction only turns the order of the values that are there.  Records that tie on
all keys stay in the order in which they came.

The places of the records are sorted instead of the records, which need not differ from each other.
Values are compared as far as they can be: nothing is asked of them but that those of two records
have an order, and that this order is transitive.
-/

namespace EntityQuery

open Stage (valueOn)

namespace Value

/-- A value comes before another one or ties with it. -/
def AtMost (a b : Value) : Prop := ∃ ordering, a.compare? b = some ordering ∧ ordering ≠ .gt

variable {a b : Value} {type : EdmType} {s t : List Int}

theorem compare?_null (b : Value) : Value.null.compare? b = none := by
  cases b <;> rfl

theorem AtMost.ne_null (h : a.AtMost b) : a ≠ .null ∧ b ≠ .null := by
  obtain ⟨ordering, hordering, -⟩ := h
  constructor
  · rintro rfl
    rw [compare?_null] at hordering
    cases hordering
  · rintro rfl
    rw [compare?_flip, compare?_null] at hordering
    cases hordering

theorem atMost_iff (ha : a.scalarType? = some type) (hb : b.scalarType? = some type)
    (hs : a.rank? = some s) (ht : b.rank? = some t) : a.AtMost b ↔ (compare s t).isLE = true := by
  rw [AtMost, compare?_eq_compareRanks? ha hb, hs, ht, Ordering.isLE_iff_ne_gt]
  simp [compareRanks?]

end Value

namespace SortKey

variable {key : SortKey} {keys : List SortKey} {records : List Record} {r s : Record}
  {a b c : Value}

/-! ## The order of records -/

/-- A value of a key belongs before another one. -/
inductive Before (key : SortKey) : Value → Value → Prop
  | nullFirst {b : Value} (hnulls : key.nulls = .first) (hb : b ≠ .null) : Before key .null b
  | nullLast {a : Value} (hnulls : key.nulls = .last) (ha : a ≠ .null) : Before key a .null
  | ascending {a b : Value} (hdirection : key.direction = .ascending)
      (h : a.compare? b = some .lt) : Before key a b
  | descending {a b : Value} (hdirection : key.direction = .descending)
      (h : a.compare? b = some .gt) : Before key a b

/-- Two values of a key tie. -/
inductive Ties : Value → Value → Prop
  | missing : Ties .null .null
  | present {a b : Value} (h : a.compare? b = some .eq) : Ties a b

/-- A record belongs before another one: they tie on the keys in front of one that tells them
apart. -/
inductive Precedes (r s : Record) : List SortKey → Prop
  | here {key : SortKey} {keys : List SortKey}
      (h : key.Before (valueOn r key) (valueOn s key)) : Precedes r s (key :: keys)
  | later {key : SortKey} {keys : List SortKey} (htie : Ties (valueOn r key) (valueOn s key))
      (h : Precedes r s keys) : Precedes r s (key :: keys)

/-- Two records tie on all keys. -/
def TiesOnAll (keys : List SortKey) (r s : Record) : Prop :=
  ∀ key ∈ keys, Ties (valueOn r key) (valueOn s key)

/-- The values of a key on two records can be compared, if they are there. -/
def ComparableOn (key : SortKey) (r s : Record) : Prop :=
  valueOn r key ≠ .null → valueOn s key ≠ .null →
    ((valueOn r key).compare? (valueOn s key)).isSome = true

/-- A key ranks records: any two of them can be compared, and what is at most another is at most
what is above that. -/
structure Ranks (key : SortKey) (records : List Record) : Prop where
  comparable : records.Pairwise key.ComparableOn
  trans : ∀ r ∈ records, ∀ s ∈ records, ∀ t ∈ records, (valueOn r key).AtMost (valueOn s key) →
    (valueOn s key).AtMost (valueOn t key) → (valueOn r key).AtMost (valueOn t key)

theorem ComparableOn.symm (h : key.ComparableOn r s) : key.ComparableOn s r := by
  intro hs hr
  rw [Value.compare?_flip, Option.isSome_map]
  exact h hr hs

/-! ## Comparing by one key -/

theorem isNull_eq_false_iff : a.isNull = false ↔ a ≠ .null := by
  cases a <;> simp [Value.isNull]

theorem compare_missing_left (hb : b ≠ .null) :
    key.compare .null b = beforePresent key.nulls := by
  rw [compare, isNull_eq_false_iff.2 hb]
  rfl

theorem compare_missing_right (ha : a ≠ .null) :
    key.compare a .null = (beforePresent key.nulls).swap := by
  rw [compare, isNull_eq_false_iff.2 ha]
  rfl

theorem compare_present (ha : a ≠ .null) (hb : b ≠ .null) :
    key.compare a b = directed key.direction ((a.compare? b).getD .eq) := by
  rw [compare, isNull_eq_false_iff.2 ha, isNull_eq_false_iff.2 hb]

theorem compare_flip (key : SortKey) (a b : Value) :
    key.compare b a = (key.compare a b).swap := by
  have hpresent : directed key.direction ((b.compare? a).getD .eq) =
      (directed key.direction ((a.compare? b).getD .eq)).swap := by
    rw [Value.compare?_flip, ← directed_swap]
    cases a.compare? b <;> rfl
  unfold compare
  cases a.isNull with
  | true =>
      cases b.isNull with
      | true => rfl
      | false => rfl
  | false =>
      cases b.isNull with
      | true => exact Ordering.swap_swap.symm
      | false => exact hpresent

theorem compare_self (key : SortKey) (a : Value) : key.compare a a = .eq := by
  have hswap := key.compare_flip a a
  revert hswap
  cases key.compare a a <;> decide

/-- Among values that can be compared, not to stand behind another one is to be at most it, seen in
the direction of the key. -/
theorem compare_ne_gt_iff (ha : a ≠ .null) (hb : b ≠ .null) (hsome : (a.compare? b).isSome = true) :
    key.compare a b ≠ .gt ↔
      match key.direction with
      | .ascending => a.AtMost b
      | .descending => b.AtMost a := by
  obtain ⟨ordering, hordering⟩ := Option.isSome_iff_exists.1 hsome
  have hback : b.compare? a = some ordering.swap := by rw [Value.compare?_flip, hordering]; rfl
  rw [compare_present ha hb, hordering]
  cases key.direction with
  | ascending => simp [directed, Value.AtMost, hordering]
  | descending => simp [directed, Value.AtMost, hback]

/-- Null can only stand on the outside. -/
theorem compare_trans_of_null (h : a = .null ∨ b = .null ∨ c = .null)
    (hab : key.compare a b ≠ .gt) (hbc : key.compare b c ≠ .gt) : key.compare a c ≠ .gt := by
  have hnull : Value.null.isNull = true := rfl
  revert hab hbc
  unfold compare
  cases ha : a.isNull <;> cases hb : b.isNull <;> cases hc : c.isNull <;> cases key.nulls <;>
    simp_all [beforePresent, isNull_eq_false_iff]

theorem before_of_compare (h : key.compare a b = .lt) : key.Before a b := by
  by_cases ha : a = .null
  · subst ha
    by_cases hb : b = .null
    · subst hb
      rw [compare_self] at h
      cases h
    · rw [compare_missing_left hb] at h
      refine .nullFirst ?_ hb
      revert h
      cases key.nulls <;> decide
  · by_cases hb : b = .null
    · subst hb
      rw [compare_missing_right ha] at h
      refine .nullLast ?_ ha
      revert h
      cases key.nulls <;> decide
    · rw [compare_present ha hb] at h
      cases hordering : a.compare? b with
      | none =>
          rw [hordering] at h
          revert h
          cases key.direction <;> exact Ordering.noConfusion
      | some ordering =>
          rw [hordering, Option.getD_some] at h
          cases hdirection : key.direction with
          | ascending =>
              rw [hdirection, directed] at h
              exact .ascending hdirection (by rw [hordering, h])
          | descending =>
              rw [hdirection, directed, Ordering.swap_eq_lt] at h
              exact .descending hdirection (by rw [hordering, h])

theorem ties_of_compare (hcomparable : a ≠ .null → b ≠ .null → (a.compare? b).isSome = true)
    (h : key.compare a b = .eq) : Ties a b := by
  by_cases ha : a = .null
  · subst ha
    by_cases hb : b = .null
    · subst hb
      exact .missing
    · rw [compare_missing_left hb] at h
      revert h
      cases key.nulls <;> exact Ordering.noConfusion
  · by_cases hb : b = .null
    · subst hb
      rw [compare_missing_right ha] at h
      revert h
      cases key.nulls <;> exact Ordering.noConfusion
    · obtain ⟨ordering, hordering⟩ := Option.isSome_iff_exists.1 (hcomparable ha hb)
      rw [compare_present ha hb, hordering, Option.getD_some] at h
      refine .present ?_
      rw [hordering]
      revert h
      cases key.direction with
      | ascending => exact congrArg some
      | descending => exact fun h => congrArg some (Ordering.swap_eq_eq.1 h)

/-! ## Comparing by all keys -/

theorem precedes_of_compareAll (hcomparable : ∀ key ∈ keys, key.ComparableOn r s)
    (h : compareAll keys (keys.map (valueOn r)) (keys.map (valueOn s)) = .lt) :
    Precedes r s keys := by
  induction keys with
  | nil => cases h
  | cons key keys ih =>
      obtain ⟨hkey, hkeys⟩ := List.forall_mem_cons.1 hcomparable
      rcases Ordering.then_eq_lt.1 h with hlt | ⟨heq, hlt⟩
      · exact .here (before_of_compare hlt)
      · exact .later (ties_of_compare hkey heq) (ih hkeys hlt)

theorem tiesOnAll_of_compareAll (hcomparable : ∀ key ∈ keys, key.ComparableOn r s)
    (h : compareAll keys (keys.map (valueOn r)) (keys.map (valueOn s)) = .eq) :
    TiesOnAll keys r s := by
  induction keys with
  | nil => exact List.forall_mem_nil _
  | cons key keys ih =>
      obtain ⟨hkey, hkeys⟩ := List.forall_mem_cons.1 hcomparable
      obtain ⟨hfirst, hrest⟩ := Ordering.then_eq_eq.1 h
      exact List.forall_mem_cons.2 ⟨ties_of_compare hkey hfirst, ih hkeys hrest⟩

/-! ## The places of records -/

theorem comparableOn_get (h : records.Pairwise key.ComparableOn) {i j : Fin records.length}
    (hne : i ≠ j) : key.ComparableOn (records.get i) (records.get j) := by
  rcases Fin.lt_or_lt_of_ne hne with hlt | hgt
  · exact List.pairwise_iff_get.1 h i j hlt
  · exact (List.pairwise_iff_get.1 h j i hgt).symm

/-- The comparison of the records at two places. -/
def comparePlaces (keys : List SortKey) (records : List Record) (i j : Fin records.length) :
    Ordering :=
  compareAll keys (keys.map (valueOn (records.get i))) (keys.map (valueOn (records.get j)))

/-- A key that ranks records orders their places. -/
theorem Ranks.orders (h : key.Ranks records) :
    Sorting.Orders (fun i j => key.compare (valueOn (records.get i) key)
      (valueOn (records.get j) key)) (List.finRange records.length) where
  swap i _ j _ := key.compare_flip _ _
  trans i _ j _ k _ hij hjk := by
    by_cases hnull : valueOn (records.get i) key = .null ∨ valueOn (records.get j) key = .null ∨
        valueOn (records.get k) key = .null
    · exact compare_trans_of_null hnull hij hjk
    · obtain ⟨hi, hj, hk⟩ : valueOn (records.get i) key ≠ .null ∧
          valueOn (records.get j) key ≠ .null ∧ valueOn (records.get k) key ≠ .null := by
        simpa only [not_or] using hnull
      -- A value need not have an order with itself, so places that coincide are set apart.
      by_cases hne : i = j ∨ j = k ∨ i = k
      · rcases hne with rfl | rfl | rfl
        · exact hjk
        · exact hij
        · rw [compare_self]
          exact Ordering.noConfusion
      · obtain ⟨hneij, hnejk, hneik⟩ : i ≠ j ∧ j ≠ k ∧ i ≠ k := by simpa only [not_or] using hne
        have htrans := h.trans _ (records.get_mem i) _ (records.get_mem j) _ (records.get_mem k)
        have hback := h.trans _ (records.get_mem k) _ (records.get_mem j) _ (records.get_mem i)
        rw [compare_ne_gt_iff hi hj (comparableOn_get h.comparable hneij hi hj)] at hij
        rw [compare_ne_gt_iff hj hk (comparableOn_get h.comparable hnejk hj hk)] at hjk
        rw [compare_ne_gt_iff hi hk (comparableOn_get h.comparable hneik hi hk)]
        cases hdirection : key.direction with
        | ascending =>
            rw [hdirection] at hij hjk
            exact htrans hij hjk
        | descending =>
            rw [hdirection] at hij hjk
            exact hback hjk hij

/-- A key ranks records if its values are null or scalars of one type, and none of them is a
floating point number that is no number. -/
theorem ranks_of_isOf {type : EdmType} (htype : ∀ r ∈ records, (valueOn r key).IsOf type)
    (hnumber : ∀ r ∈ records, (valueOn r key).isNaN = false) : key.Ranks records := by
  have hscalar : ∀ r ∈ records, valueOn r key ≠ .null →
      (valueOn r key).scalarType? = some type ∧ ∃ rank, (valueOn r key).rank? = some rank := by
    intro r hr hpresent
    refine ⟨(htype r hr).resolve_left hpresent, Option.isSome_iff_exists.1 ?_⟩
    exact (rank?_of_isNaN (htype r hr) (hnumber r hr)).resolve_left hpresent
  constructor
  · refine List.pairwise_of_forall_mem_list fun r hr s hs hpresent hpresent' => ?_
    obtain ⟨htypeR, rank, hrank⟩ := hscalar r hr hpresent
    obtain ⟨htypeS, rank', hrank'⟩ := hscalar s hs hpresent'
    rw [Value.compare?_eq_compareRanks? htypeR htypeS, hrank, hrank']
    rfl
  · intro r hr s hs t ht hrs hst
    obtain ⟨htypeR, rank, hrank⟩ := hscalar r hr hrs.ne_null.1
    obtain ⟨htypeS, rank', hrank'⟩ := hscalar s hs hst.ne_null.1
    obtain ⟨htypeT, rank'', hrank''⟩ := hscalar t ht hst.ne_null.2
    rw [Value.atMost_iff htypeR htypeS hrank hrank'] at hrs
    rw [Value.atMost_iff htypeS htypeT hrank' hrank''] at hst
    rw [Value.atMost_iff htypeR htypeT hrank hrank'']
    exact Std.TransOrd.isLE_trans hrs hst

theorem orders_comparePlaces (h : ∀ key ∈ keys, key.Ranks records) :
    Sorting.Orders (comparePlaces keys records) (List.finRange records.length) :=
  orders_compareAll (fun key i => valueOn (records.get i) key) fun key hkey => (h key hkey).orders

end SortKey

/-! ## Sorting places -/

namespace Sorting

variable {α β : Type} {cmp : α → α → Ordering} {R : α → α → Prop} {items sorted : List α}

theorem insertLast_map (f : α → β) (before : β → β → Bool) (item : α) (sorted : List α) :
    insertLast before (f item) (sorted.map f) =
      (insertLast (fun a b => before (f a) (f b)) item sorted).map f := by
  induction sorted with
  | nil => rfl
  | cons last rest ih =>
      rw [List.map_cons, insertLast, insertLast, ih]
      split <;> rfl

/-- Sorting what is read off items is reading off the sorted items. -/
theorem sortedBy_map (f : α → β) (before : β → β → Bool) (items : List α) :
    sortedBy before (items.map f) = (sortedBy (fun a b => before (f a) (f b)) items).map f := by
  have hfold (sorted : List α) :
      (items.map f).foldl (fun sorted item => insertLast before item sorted) (sorted.map f) =
        (items.foldl (fun sorted item => insertLast (fun a b => before (f a) (f b)) item sorted)
          sorted).map f := by
    induction items generalizing sorted with
    | nil => rfl
    | cons item items ih => rw [List.map_cons, List.foldl_cons, insertLast_map, ih, List.foldl_cons]
  rw [sortedBy, sortedBy, List.map_reverse, ← hfold]
  rfl

/-- Of two items in a stably sorted list, the first one is smaller, or they tie and stand as they
did before. -/
theorem StablySorted.pairwise (h : StablySorted cmp items sorted) (horders : Orders cmp items)
    (hitems : items.Pairwise R) :
    sorted.Pairwise fun a b => cmp a b = .lt ∨ cmp a b = .eq ∧ R a b := by
  rw [List.pairwise_iff_forall_sublist]
  intro a b hsublist
  have hle : cmp a b ≠ .gt := List.pairwise_iff_forall_sublist.1 (h.ordered horders) hsublist
  have ha : a ∈ items := h.perm.mem_iff.1 (hsublist.subset (by simp))
  cases hcmp : cmp a b with
  | lt => exact .inl rfl
  | gt => exact absurd hcmp hle
  | eq =>
      have hties : [a, b].Sublist (ties cmp a sorted) := by
        have hfilter := hsublist.filter fun c => cmp a c == .eq
        rwa [List.filter_cons_of_pos (by simp [horders.refl ha]),
          List.filter_cons_of_pos (by simp [hcmp]), List.filter_nil] at hfilter
      rw [h.stable horders a ha] at hties
      have hitems := List.pairwise_iff_forall_sublist.1 hitems (hties.trans List.filter_sublist)
      exact .inr ⟨rfl, hitems⟩

end Sorting

/-! ## Sorts -/

namespace Pipeline

open SortKey

variable {source started : Pipeline} {keys : List SortKey} {records : List Record}

/-- The places of records, sorted by keys. -/
def sortedPlaces (keys : List SortKey) (records : List Record) : List (Fin records.length) :=
  Sorting.sortedBy (Sorting.comesBefore (comparePlaces keys records))
    (List.finRange records.length)

theorem keyed_snd (happlies : (Stage.sort keys).Applies records) {r : Record} (hr : r ∈ records) :
    (Stage.keyed keys r).2 = keys.map (valueOn r) := by
  obtain ⟨values, hvalues⟩ := happlies r hr
  rw [Stage.keyed, hvalues]
  exact (Stage.values_eq_ok hvalues).1

/-- Sorting records is sorting their places. -/
theorem onList_sort (happlies : (Stage.sort keys).Applies records) :
    (Stage.sort keys).onList insertionSorter records =
      (sortedPlaces keys records).map records.get := by
  have hkeyed : records.map (Stage.keyed keys) =
      (List.finRange records.length).map fun i => Stage.keyed keys (records.get i) := by
    conv_lhs => rw [← List.map_get_finRange records, List.map_map]
    rfl
  have hbefore : (fun i j => Sorting.precedes keys (Stage.keyed keys (records.get i))
      (Stage.keyed keys (records.get j))) = Sorting.comesBefore (comparePlaces keys records) := by
    funext i j
    rw [Sorting.precedes, keyed_snd happlies (records.get_mem i),
      keyed_snd happlies (records.get_mem j)]
    rfl
  rw [Stage.onList, hkeyed, insertionSorter, Sorting.sortedBy_map, hbefore, List.map_map]
  rfl

theorem sortedPlaces_perm (keys : List SortKey) (records : List Record) :
    (sortedPlaces keys records).Perm (List.finRange records.length) :=
  (Sorting.stablySorted_sortedBy (comparePlaces keys records) _).perm

theorem sortedPlaces_pairwise (hranks : ∀ key ∈ keys, key.Ranks records) :
    (sortedPlaces keys records).Pairwise fun i j =>
      Precedes (records.get i) (records.get j) keys ∨
        TiesOnAll keys (records.get i) (records.get j) ∧ i < j := by
  have horders := orders_comparePlaces hranks
  have hpairwise := (Sorting.stablySorted_sortedBy (comparePlaces keys records) _).pairwise horders
    (List.pairwise_lt_finRange records.length)
  refine hpairwise.imp fun {i j} hij => ?_
  have hcomparable (hne : i ≠ j) : ∀ key ∈ keys, key.ComparableOn (records.get i) (records.get j) :=
    fun key hkey => comparableOn_get (hranks key hkey).comparable hne
  rcases hij with hlt | ⟨heq, hplaces⟩
  · left
    refine precedes_of_compareAll (hcomparable ?_) hlt
    rintro rfl
    rw [horders.refl (List.mem_finRange i)] at hlt
    cases hlt
  · exact .inr ⟨tiesOnAll_of_compareAll (hcomparable (Fin.ne_of_lt hplaces)) heq, hplaces⟩

/-- A sort whose keys can be read and rank the records of its source is started, and hands out these
records, each of them once.  Of two records the one that comes first belongs before the other, or
they tie on all keys and stand as they did in the source. -/
theorem sorts_stably (hstart : source.start = (.ok (), started))
    (hdrain : (Supply.drain started).1 = .ok records)
    (happlies : (Stage.sort keys).Applies records) (hranks : ∀ key ∈ keys, key.Ranks records) :
    ∃ (sorter : Pipeline) (places : List (Fin records.length)),
      (sort keys source none).start = (.ok (), sorter) ∧
      (Supply.drain sorter).1 = .ok (places.map records.get) ∧
      places.Perm (List.finRange records.length) ∧
      (places.map records.get).Perm records ∧
      places.Pairwise fun i j => Precedes (records.get i) (records.get j) keys ∨
        TiesOnAll keys (records.get i) (records.get j) ∧ i < j := by
  have hcollect : started.flow.collect = .ok records := by rw [← drain_eq_collect, hdrain]
  have happly : (Stage.sort keys).apply started.flow =
      .ok (.ofList ((sortedPlaces keys records).map records.get)) := by
    rw [sort_apply, hcollect, ok_bind, Stage.mapM_withValues happlies, ← onList_sort happlies]
    rfl
  have hstarts := starts_sort keys hstart rfl
  rw [happly] at hstarts
  obtain ⟨sorter, hsorter, hflow⟩ := hstarts
  have hperm := sortedPlaces_perm keys records
  refine ⟨sorter, sortedPlaces keys records, hsorter, ?_, hperm, ?_, sortedPlaces_pairwise hranks⟩
  · rw [drain_eq_collect, hflow, Flow.collect_ofList]
  · have hmap := hperm.map records.get
    rwa [List.map_get_finRange] at hmap

/-- Items, two of which cost the same and one of which has no price. -/
def tiedItems : List Record :=
  [Sample.item 0 "Axe" 5 [], Sample.item 1 "Bolt" 20 [], .ofFields 2 Sample.itemKey "item" [],
    Sample.item 3 "Cord" 20 []]

/-- The most expensive items first, the ones without a price last. -/
def highestPrice : SortKey :=
  ⟨Sample.step Sample.itemKey "Price" (.primitive .int64), .descending, .last⟩

example : (sortedPlaces [highestPrice] tiedItems).map Fin.val = [1, 3, 0, 2] := rfl

theorem sorts_stably_tiedItems :
    (scan tiedItems none).start = (.ok (), scan tiedItems (some tiedItems)) ∧
      (Supply.drain (scan tiedItems (some tiedItems))).1 = .ok tiedItems ∧
      (Stage.sort [highestPrice]).Applies tiedItems ∧
      (∀ key ∈ [highestPrice], key.Ranks tiedItems) ∧
      ∃ (sorter : Pipeline) (places : List (Fin tiedItems.length)),
        (sort [highestPrice] (scan tiedItems none) none).start = (.ok (), sorter) ∧
        (Supply.drain sorter).1 = .ok (places.map tiedItems.get) ∧
        places.Perm (List.finRange tiedItems.length) ∧
        (places.map tiedItems.get).Perm tiedItems ∧
        places.Pairwise fun i j =>
          Precedes (tiedItems.get i) (tiedItems.get j) [highestPrice] ∨
          TiesOnAll [highestPrice] (tiedItems.get i) (tiedItems.get j) ∧ i < j := by
  have hstart : (scan tiedItems none).start = (.ok (), scan tiedItems (some tiedItems)) := rfl
  have hdrain : (Supply.drain (scan tiedItems (some tiedItems))).1 = .ok tiedItems := by
    rw [drain_eq_collect, flow, Flow.collect_ofList]
  have happlies : (Stage.sort [highestPrice]).Applies tiedItems := by
    intro r hr
    fin_cases hr <;> exact ⟨_, rfl⟩
  have hranks : ∀ key ∈ [highestPrice], key.Ranks tiedItems := by
    have htype : ∀ r ∈ tiedItems, (valueOn r highestPrice).IsOf (.primitive .int64) := by
      intro r hr
      fin_cases hr
      · exact .inr rfl
      · exact .inr rfl
      · exact .inl rfl
      · exact .inr rfl
    refine List.forall_mem_singleton.2 (ranks_of_isOf htype ?_)
    intro r hr
    fin_cases hr <;> rfl
  exact ⟨hstart, hdrain, happlies, hranks, sorts_stably hstart hdrain happlies hranks⟩

end Pipeline

end EntityQuery
