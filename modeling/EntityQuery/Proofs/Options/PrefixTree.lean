import EntityQuery.Proofs.Options.ExpandTree

/-!
# The tree holds the front parts of the paths

Read from the root down, the tree of some paths has exactly the front parts of the paths as its
branches.  Items that stand side by side have different names, and they stand in the order in which
the paths mention them first.  So a path that is a branch already adds nothing to the tree.
-/

namespace EntityQuery

/-- The number of paths before the first one that begins with some names. -/
def firstMention (paths : List (List String)) (names : List String) : Nat :=
  paths.findIdx fun path => names.isPrefixOf path

/-! ## Mentions -/

section Mentions

variable {name : String} {names path one other : List String} {paths more : List (List String)}

theorem mem_behind {rest : List String} : rest ∈ behind name paths ↔ name :: rest ∈ paths := by
  rw [behind, List.mem_filterMap]
  constructor
  · rintro ⟨path, hpath, hrest⟩
    split at hrest
    · rename_i hhead
      obtain ⟨tail, rfl⟩ := List.head?_eq_some_iff.1 hhead
      obtain rfl := Option.some.inj hrest
      exact hpath
    · cases hrest
  · intro h
    exact ⟨_, h, if_pos rfl⟩

/-- Some names are mentioned in the paths that begin with the first of them. -/
theorem exists_mention_cons_iff : (∃ path ∈ paths, name :: names <+: path) ↔
    ∃ rest ∈ behind name paths, names <+: rest := by
  constructor
  · rintro ⟨path, hpath, rest, rfl⟩
    exact ⟨names ++ rest, mem_behind.2 hpath, List.prefix_append _ _⟩
  · rintro ⟨rest, hrest, hnames⟩
    exact ⟨name :: rest, mem_behind.1 hrest, (List.prefix_cons_inj name).2 hnames⟩

theorem mem_heads_iff : name ∈ heads paths ↔ ∃ rest, rest ∈ behind name paths := by
  rw [mem_heads]
  constructor
  · rintro ⟨path, hpath, hhead⟩
    obtain ⟨rest, rfl⟩ := List.head?_eq_some_iff.1 hhead
    exact ⟨rest, mem_behind.2 hpath⟩
  · rintro ⟨rest, hrest⟩
    exact ⟨name :: rest, mem_behind.1 hrest, rfl⟩

theorem firstMention_cons : firstMention (path :: paths) names =
    if names.isPrefixOf path then 0 else firstMention paths names + 1 := by
  rw [firstMention, List.findIdx_cons, cond_eq_ite]
  rfl

theorem firstMention_append : firstMention (paths ++ more) names =
    if firstMention paths names < paths.length then firstMention paths names
    else firstMention more names + paths.length :=
  List.findIdx_append

theorem firstMention_lt_length_iff :
    firstMention paths names < paths.length ↔ ∃ path ∈ paths, names <+: path := by
  simp only [firstMention, List.findIdx_lt_length, List.isPrefixOf_iff_prefix]

/-- What is left behind a name is mentioned in the same order as before. -/
theorem firstMention_behind (h : firstMention (behind name paths) one
    < firstMention (behind name paths) other) :
    firstMention paths (name :: one) < firstMention paths (name :: other) := by
  induction paths with
  | nil => exact h
  | cons path paths ih =>
      rw [firstMention_cons, firstMention_cons]
      cases path with
      | nil => exact Nat.succ_lt_succ (ih h)
      | cons first rest =>
          by_cases heq : first = name
          · subst heq
            have hbehind : behind first ((first :: rest) :: paths) = rest :: behind first paths :=
              List.filterMap_cons_some (if_pos rfl)
            rw [hbehind, firstMention_cons, firstMention_cons] at h
            simp only [List.isPrefixOf_cons_cons_self]
            cases hother : other.isPrefixOf rest with
            | true => simp [hother] at h
            | false =>
                cases hone : one.isPrefixOf rest with
                | true => simp
                | false =>
                    simp only [hone, hother, Bool.false_eq_true, if_false,
                      Nat.succ_lt_succ_iff] at h ⊢
                    exact ih h
          · have hbehind : behind name ((first :: rest) :: paths) = behind name paths :=
              List.filterMap_cons_none (if_neg fun h => heq (Option.some.inj h))
            rw [hbehind] at h
            have hne : (name == first) = false := beq_false_of_ne fun h => heq h.symm
            simp only [List.isPrefixOf_cons_cons, hne]
            exact Nat.succ_lt_succ (ih h)

theorem firstMention_lt_of_mem_heads (h : name ∈ heads paths) :
    firstMention paths [name] < paths.length := by
  obtain ⟨rest, hrest⟩ := mem_heads_iff.1 h
  exact firstMention_lt_length_iff.2 ⟨_, mem_behind.1 hrest, rest, rfl⟩

/-- Names that paths begin with come in the order of first mention. -/
theorem pairwise_heads (paths : List (List String)) :
    (heads paths).Pairwise fun a b => firstMention paths [a] < firstMention paths [b] := by
  induction paths using List.reverseRecOn with
  | nil => exact .nil
  | append_singleton paths path ih =>
      have hkept {name : String} (h : name ∈ heads paths) :
          firstMention (paths ++ [path]) [name] = firstMention paths [name] := by
        rw [firstMention_append, if_pos (firstMention_lt_of_mem_heads h)]
      have hold : (heads paths).Pairwise fun a b =>
          firstMention (paths ++ [path]) [a] < firstMention (paths ++ [path]) [b] := by
        refine ih.imp_of_mem fun ha hb hlt => ?_
        rwa [hkept ha, hkept hb]
      cases path with
      | nil =>
          rw [heads_concat_nil]
          exact hold
      | cons name rest =>
          rw [heads_concat_cons]
          split
          · exact hold
          · rename_i hnew
            refine List.pairwise_append.2 ⟨hold, List.pairwise_singleton _ _, fun a ha b hb => ?_⟩
            obtain rfl := List.mem_singleton.1 hb
            -- All paths before the last one have been passed.
            have hpassed : ¬firstMention paths [b] < paths.length := by
              rw [firstMention_lt_length_iff, exists_mention_cons_iff]
              rintro ⟨rest, hrest, -⟩
              exact hnew (mem_heads_iff.2 ⟨rest, hrest⟩)
            have hlt := firstMention_lt_of_mem_heads ha
            rw [hkept ha, firstMention_append, if_neg hpassed]
            omega

end Mentions

namespace ExpandItem

variable {items level : List ExpandItem} {item : ExpandItem} {front names : List String}
  {p : Property} {rest : List Property} {chains : List (List Property)}

/-- The names on the way from the root of a tree to an item. -/
inductive Branch : List ExpandItem → List String → Prop
  | here {items : List ExpandItem} {item : ExpandItem} (hitem : item ∈ items) :
      Branch items [item.name]
  | deeper {items : List ExpandItem} {item : ExpandItem} {names : List String}
      (hitem : item ∈ items)
      (hnames : Branch item.children names) : Branch items (item.name :: names)

/-- The items that stand side by side behind a branch, or at the root. -/
inductive Level : List ExpandItem → List String → List ExpandItem → Prop
  | root {items : List ExpandItem} : Level items [] items
  | deeper {items level : List ExpandItem} {item : ExpandItem} {front : List String}
      (hitem : item ∈ items) (hlevel : Level item.children front level) :
      Level items (item.name :: front) level

/-- A tree of some paths of names. -/
structure PrefixTree (paths : List (List String)) (items : List ExpandItem) : Prop where
  branches : ∀ names, Branch items names ↔ names ≠ [] ∧ ∃ path ∈ paths, names <+: path
  distinct : ∀ front level, Level items front level → (level.map name).Nodup
  ordered : ∀ front level, Level items front level → (level.map name).Pairwise fun a b =>
    firstMention paths (front ++ [a]) < firstMention paths (front ++ [b])

theorem branch_cons_iff {name : String} : Branch items (name :: names) ↔
    ∃ item ∈ items, item.name = name ∧ (names = [] ∨ Branch item.children names) := by
  constructor
  · intro h
    cases h with
    | here hitem => exact ⟨_, hitem, rfl, .inl rfl⟩
    | deeper hitem hnames => exact ⟨_, hitem, rfl, .inr hnames⟩
  · rintro ⟨item, hitem, rfl, rfl | hnames⟩
    · exact .here hitem
    · exact .deeper hitem hnames

/-- The items of a tree are told by the names that paths begin with. -/
theorem exists_item_iff {name : String} (P : List ExpandItem → Prop) :
    (∃ item ∈ ofChains chains, item.name = name ∧ P item.children) ↔
      name ∈ heads (namesOf chains) ∧ P (ofChains (through name chains)) := by
  obtain ⟨hnames, hitems⟩ := ofChains_spec chains
  rw [← hnames, List.mem_map]
  constructor
  · rintro ⟨item, hitem, rfl, h⟩
    rw [(hitems item hitem).1] at h
    exact ⟨⟨item, hitem, rfl⟩, h⟩
  · rintro ⟨⟨item, hitem, rfl⟩, h⟩
    refine ⟨item, hitem, rfl, ?_⟩
    rwa [(hitems item hitem).1]

/-- The branches of a tree are the front parts of the paths. -/
theorem branch_ofChains_iff : Branch (ofChains chains) names ↔
    names ≠ [] ∧ ∃ path ∈ namesOf chains, names <+: path := by
  induction names generalizing chains with
  | nil =>
      constructor
      · intro h
        cases h
      · rintro ⟨hne, -⟩
        exact absurd rfl hne
  | cons name names ih =>
      rw [branch_cons_iff, exists_item_iff fun children => names = [] ∨ Branch children names, ih,
        exists_mention_cons_iff, namesOf_through, mem_heads_iff]
      cases names with
      | nil => simp
      | cons other names =>
          simp only [ne_eq, reduceCtorEq, not_false_eq_true, true_and, false_or]
          exact and_iff_right_of_imp fun ⟨rest, hrest, _⟩ => ⟨rest, hrest⟩

/-- Side by side stand the names that the paths go on with, in the order of first mention. -/
theorem pairwise_level (h : Level (ofChains chains) front level) :
    (level.map name).Pairwise fun a b => firstMention (namesOf chains) (front ++ [a])
      < firstMention (namesOf chains) (front ++ [b]) := by
  induction front generalizing chains with
  | nil =>
      cases h with
      | root =>
          rw [(ofChains_spec chains).1]
          exact pairwise_heads _
  | cons name front ih =>
      cases h with
      | deeper hitem hlevel =>
          rw [((ofChains_spec chains).2 _ hitem).1] at hlevel
          have hbehind := ih hlevel
          rw [namesOf_through] at hbehind
          exact hbehind.imp firstMention_behind

theorem nodup_level (h : Level (ofChains chains) front level) : (level.map name).Nodup :=
  (pairwise_level h).imp fun hlt heq => by
    rw [heq] at hlt
    exact Nat.lt_irrefl _ hlt

theorem prefixTree_ofChains (chains : List (List Property)) :
    PrefixTree (namesOf chains) (ofChains chains) where
  branches _ := branch_ofChains_iff
  distinct _ _ := nodup_level
  ordered _ _ := pairwise_level

/-! ## Paths that are there already -/

theorem update_eq_self {change : List ExpandItem → List ExpandItem}
    (hdistinct : (items.map name).Nodup) (hitem : item ∈ items) (hname : item.name = p.name)
    (hchange : change item.children = item.children) : update p change items = items := by
  induction items with
  | nil => cases hitem
  | cons first items ih =>
      obtain ⟨hfirst, hrest⟩ := List.nodup_cons.1 hdistinct
      by_cases heq : first.property.name = p.name
      · rw [update, if_pos (by simpa using heq)]
        rcases List.mem_cons.1 hitem with rfl | hmem
        · rw [hchange]
          cases item
          rfl
        · have hfound : item.name ∈ items.map name := List.mem_map_of_mem hmem
          rw [hname.trans heq.symm] at hfound
          exact absurd hfound hfirst
      · rw [update, if_neg (by simpa using heq)]
        rcases List.mem_cons.1 hitem with rfl | hmem
        · exact absurd hname heq
        · rw [ih hrest hmem]

/-- A chain that is a branch adds nothing. -/
theorem insert_eq_self {chain : List Property}
    (hdistinct : ∀ front level, Level items front level → (level.map name).Nodup)
    (h : Branch items (chain.map Property.name)) : insert chain items = items := by
  induction chain generalizing items with
  | nil => rfl
  | cons p rest ih =>
      rw [List.map_cons, branch_cons_iff] at h
      obtain ⟨item, hitem, hname, hrest⟩ := h
      refine update_eq_self (hdistinct [] items .root) hitem hname ?_
      rcases hrest with hnil | hbranch
      · rw [List.map_eq_nil_iff.1 hnil]
        rfl
      · exact ih (fun front level hlevel => hdistinct _ _ (.deeper hitem hlevel)) hbranch

end ExpandItem

end EntityQuery
