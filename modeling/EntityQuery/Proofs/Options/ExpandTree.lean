import EntityQuery.Options.SelectExpand
import Mathlib.Data.List.Induction
import Mathlib.Data.List.Nodup

/-!
# The tree of the expanded paths

The tree of some paths says at each place which properties are followed from there.  They are the
ones that the paths name at this place, each of them once and in the order of first mention, and
behind each stands the tree of what is left of the paths that lead through it.

Seen this way the tree only repeats the names in the paths, level by level.
-/

namespace EntityQuery

/-- The names that paths begin with, in the order of first mention. -/
def heads (paths : List (List String)) : List String := (paths.filterMap List.head?).eraseDups

/-- What is left of the paths that begin with a name. -/
def behind (name : String) (paths : List (List String)) : List (List String) :=
  paths.filterMap fun path => if path.head? = some name then some path.tail else none

/-! ## First mentions -/

section Mentions

variable {α : Type} [DecidableEq α]

theorem eraseDups_concat (as : List α) (a : α) :
    (as ++ [a]).eraseDups = if a ∈ as then as.eraseDups else as.eraseDups ++ [a] := by
  rw [List.eraseDups_append]
  by_cases ha : a ∈ as <;> simp [List.removeAll, List.eraseDups_cons, ha]

theorem nodup_eraseDups (as : List α) : as.eraseDups.Nodup := by
  induction as using List.reverseRecOn with
  | nil => simp
  | append_singleton as a ih =>
      rw [eraseDups_concat]
      split
      · exact ih
      · rename_i hnew
        exact ih.append (by simp) (by simpa [List.mem_eraseDups] using hnew)

theorem eraseDups_of_nodup {as : List α} (h : as.Nodup) : as.eraseDups = as := by
  induction as using List.reverseRecOn with
  | nil => simp
  | append_singleton as a ih =>
      have hnew : a ∉ as := fun ha => (List.nodup_append'.1 h).2.2 ha (by simp)
      rw [eraseDups_concat, if_neg hnew, ih (h.sublist (List.sublist_append_left _ _))]

end Mentions

section Names

variable {name : String} {paths : List (List String)}

theorem mem_heads : name ∈ heads paths ↔ ∃ path ∈ paths, path.head? = some name := by
  rw [heads, List.mem_eraseDups, List.mem_filterMap]

theorem nodup_heads (paths : List (List String)) : (heads paths).Nodup := nodup_eraseDups _

/-- Names that stand alone are what the paths of one name begin with. -/
theorem heads_singles {names : List String} (h : names.Nodup) :
    heads (names.map fun name => [name]) = names := by
  have hnames : (names.map fun name => [name]).filterMap List.head? = names := by
    rw [List.filterMap_map]
    exact List.filterMap_some
  rw [heads, hnames, eraseDups_of_nodup h]

theorem heads_concat_nil (paths : List (List String)) : heads (paths ++ [[]]) = heads paths := by
  rw [heads, List.filterMap_append, List.filterMap_cons_none rfl, List.filterMap_nil,
    List.append_nil, heads]

theorem heads_concat_cons (paths : List (List String)) (name : String) (rest : List String) :
    heads (paths ++ [name :: rest]) =
      if name ∈ heads paths then heads paths else heads paths ++ [name] := by
  simp only [heads, List.mem_eraseDups]
  rw [List.filterMap_append, List.filterMap_cons_some List.head?_cons, List.filterMap_nil,
    eraseDups_concat]

theorem behind_eq_nil (h : name ∉ heads paths) : behind name paths = [] := by
  rw [behind, List.filterMap_eq_nil_iff]
  intro path hpath
  refine if_neg fun hhead => h (mem_heads.2 ⟨path, hpath, hhead⟩)

/-- Nothing begins behind paths of one name. -/
theorem heads_behind_eq_nil (h : ∀ path ∈ paths, path.tail = []) (name : String) :
    heads (behind name paths) = [] := by
  rw [List.eq_nil_iff_forall_not_mem]
  intro next hnext
  obtain ⟨rest, hrest, hhead⟩ := mem_heads.1 hnext
  obtain ⟨path, hpath, heq⟩ := List.mem_filterMap.1 hrest
  split at heq
  · rw [← Option.some.inj heq, h path hpath] at hhead
    cases hhead
  · cases heq

end Names

namespace ExpandItem

variable {p : Property} {change : List ExpandItem → List ExpandItem} {items : List ExpandItem}
  {item : ExpandItem}

/-- The name of the property to follow. -/
def name (item : ExpandItem) : String := item.property.name

/-- The tree of some chains of properties. -/
def ofChains (chains : List (List Property)) : List ExpandItem :=
  chains.foldl (fun items chain => insert chain items) []

/-- What is left of the chains that begin with a property of a name. -/
def through (name : String) (chains : List (List Property)) : List (List Property) :=
  chains.filterMap fun chain =>
    if chain.head?.map Property.name = some name then some chain.tail else none

/-- The names in some chains of properties. -/
def namesOf (chains : List (List Property)) : List (List String) :=
  chains.map fun chain => chain.map Property.name

theorem tree_eq_ofChains (paths : List PropertyPath) :
    tree paths = ofChains (paths.map PropertyPath.segments) := by
  rw [tree, ofChains, List.foldl_map]

theorem namesOf_through (name : String) (chains : List (List Property)) :
    namesOf (through name chains) = behind name (namesOf chains) := by
  rw [namesOf, through, behind, namesOf, List.filterMap_map, List.map_filterMap]
  refine List.filterMap_congr fun chain _ => ?_
  cases chain with
  | nil => rfl
  | cons p rest =>
      by_cases hname : p.name = name <;> simp [hname]

theorem mem_through {rest : List Property} {name : String} {chains : List (List Property)} :
    rest ∈ through name chains ↔ ∃ p, p.name = name ∧ p :: rest ∈ chains := by
  rw [through, List.mem_filterMap]
  constructor
  · rintro ⟨chain, hchain, hrest⟩
    split at hrest
    · rename_i hhead
      obtain ⟨p, hp, hname⟩ := Option.map_eq_some_iff.1 hhead
      obtain ⟨rest', rfl⟩ := List.head?_eq_some_iff.1 hp
      obtain rfl := Option.some.inj hrest
      exact ⟨p, hname, hchain⟩
    · cases hrest
  · rintro ⟨p, hname, hchain⟩
    exact ⟨_, hchain, by simp [hname]⟩

/-! ## One path more -/

/-- An item keeps its place, and a new one goes to the end. -/
theorem names_update (p : Property) (change : List ExpandItem → List ExpandItem)
    (items : List ExpandItem) : (update p change items).map name =
      if p.name ∈ items.map name then items.map name else items.map name ++ [p.name] := by
  induction items with
  | nil => rfl
  | cons item items ih =>
      by_cases heq : item.property.name = p.name
      · have hhere : p.name ∈ (item :: items).map name := List.mem_cons.2 (.inl heq.symm)
        rw [update, if_pos (by simpa using heq), if_pos hhere]
        rfl
      · have hne : p.name ≠ item.name := fun h => heq h.symm
        rw [update, if_neg (by simpa using heq), List.map_cons, List.map_cons, ih]
        simp only [List.mem_cons, hne, false_or]
        split
        · rfl
        · rw [List.cons_append]

/-- The items of other names are as before. -/
theorem mem_update (hnodup : (items.map name).Nodup) (h : item ∈ update p change items) :
    (item ∈ items ∧ item.name ≠ p.name) ∨
    (∃ old ∈ items, old.name = p.name ∧ item = mk old.property (change old.children)) ∨
    (p.name ∉ items.map name ∧ item = mk p (change [])) := by
  induction items with
  | nil => exact .inr (.inr ⟨by simp, List.mem_singleton.1 h⟩)
  | cons first items ih =>
      obtain ⟨hfirst, hrest⟩ := List.nodup_cons.1 hnodup
      by_cases heq : first.property.name = p.name
      · rw [update, if_pos (by simpa using heq)] at h
        rcases List.mem_cons.1 h with rfl | hmem
        · exact .inr (.inl ⟨first, List.mem_cons_self, heq, rfl⟩)
        · refine .inl ⟨List.mem_cons_of_mem _ hmem, fun hname => hfirst ?_⟩
          rw [show first.name = item.name from heq.trans hname.symm]
          exact List.mem_map_of_mem hmem
      · rw [update, if_neg (by simpa using heq)] at h
        rcases List.mem_cons.1 h with rfl | hmem
        · exact .inl ⟨List.mem_cons_self, heq⟩
        · rcases ih hrest hmem with ⟨hold, hname⟩ | ⟨old, hold, hname⟩ | ⟨hnew, hitem⟩
          · exact .inl ⟨List.mem_cons_of_mem _ hold, hname⟩
          · exact .inr (.inl ⟨old, List.mem_cons_of_mem _ hold, hname⟩)
          · refine .inr (.inr ⟨?_, hitem⟩)
            rw [List.map_cons, List.mem_cons, not_or]
            exact ⟨fun h => heq h.symm, hnew⟩

theorem ofChains_concat (chains : List (List Property)) (chain : List Property) :
    ofChains (chains ++ [chain]) = insert chain (ofChains chains) := by
  rw [ofChains, List.foldl_append]
  rfl

theorem through_concat_cons (name : String) (chains : List (List Property)) (p : Property)
    (rest : List Property) : through name (chains ++ [p :: rest]) =
      if p.name = name then through name chains ++ [rest] else through name chains := by
  rw [through, List.filterMap_append]
  by_cases hname : p.name = name <;> simp [through, hname]

/-! ## The whole tree -/

/-- What a tree is made of at the top: an item for each name that chains begin with, which follows a
property of that name and has the tree of what is left of the chains below it. -/
theorem ofChains_spec (chains : List (List Property)) :
    (ofChains chains).map name = heads (namesOf chains) ∧
      ∀ item ∈ ofChains chains, item.children = ofChains (through item.name chains) ∧
        ∃ chain ∈ chains, chain.head? = some item.property := by
  induction chains using List.reverseRecOn with
  | nil => exact ⟨rfl, by simp [ofChains]⟩
  | append_singleton chains chain ih =>
      obtain ⟨hnames, hitems⟩ := ih
      have hnodup : ((ofChains chains).map name).Nodup := hnames ▸ nodup_heads _
      rw [ofChains_concat, namesOf, List.map_append, List.map_singleton, ← namesOf]
      cases chain with
      | nil =>
          refine ⟨hnames.trans (heads_concat_nil _).symm, fun item hitem => ?_⟩
          obtain ⟨hchildren, chain, hchain, hhead⟩ := hitems item hitem
          refine ⟨?_, chain, List.mem_append_left _ hchain, hhead⟩
          rw [hchildren, through, through, List.filterMap_append]
          simp
      | cons p rest =>
          refine ⟨?_, fun item hitem => ?_⟩
          · rw [insert, names_update, hnames, List.map_cons, heads_concat_cons]
          · rw [through_concat_cons]
            rcases mem_update hnodup hitem with
              ⟨hold, hname⟩ | ⟨old, hold, hname, rfl⟩ | ⟨hnew, rfl⟩
            · obtain ⟨hchildren, chain, hchain, hhead⟩ := hitems item hold
              rw [if_neg hname.symm]
              exact ⟨hchildren, chain, List.mem_append_left _ hchain, hhead⟩
            · obtain ⟨hchildren, chain, hchain, hhead⟩ := hitems old hold
              have hsame : (mk old.property (insert rest old.children)).name = old.name := rfl
              rw [hsame, if_pos hname.symm, ofChains_concat, ← hchildren]
              exact ⟨rfl, chain, List.mem_append_left _ hchain, hhead⟩
            · have hsame : (mk p (insert rest [])).name = p.name := rfl
              -- Nothing has led through the property so far.
              have hnone : through p.name chains = [] := by
                rw [hnames, mem_heads] at hnew
                refine List.filterMap_eq_nil_iff.2 fun chain hchain => if_neg fun hhead => hnew ?_
                exact ⟨_, List.mem_map_of_mem hchain, by rw [List.head?_map, hhead]⟩
              rw [hsame, if_pos rfl, ofChains_concat, hnone]
              exact ⟨rfl, p :: rest, List.mem_append_right _ List.mem_cons_self, rfl⟩

end ExpandItem

end EntityQuery
