import EntityQuery.Proofs.Options.PrefixTree
import EntityQuery.Proofs.Options.Selections
import EntityQuery.Proofs.Sample

/-!
# What the items of `$expand` do

Each item of an accepted value is a path of navigable properties, and the tree follows the whole of
it.  The star is different: where it stands among the items the tree has all navigable properties of
the type and nothing below them, and the other items are not looked at, whether they are paths or
not.

The order of the items matters only for the order in the tree, and an item that is the front part of
another path adds nothing.
-/

namespace EntityQuery

open ExpandItem Shape

variable {model : Model} {key : TypeKey} {value item text : String} {paths : List PropertyPath}
  {path front : PropertyPath}

/-- An item of `$expand` is a path of navigable properties, and a tree has the whole of it. -/
def ExpandItem.Expands (model : Model) (key : TypeKey) (items : List ExpandItem) (item : String) :
    Prop :=
  ∃ steps, model.resolvePath key item = .ok steps ∧
    (∀ p ∈ steps.segments, p.navigable = true) ∧ Branch items steps.names

/-- A text that stands for itself when it is written as an item of a list. -/
def IsItem (text : String) : Prop := listed text = [text] ∧ text ≠ "" ∧ text ≠ "*"

theorem listed_append (value text : String) :
    listed (value ++ "," ++ text) = listed value ++ listed text := by
  have hcomma : (value ++ "," ++ text).toList = value.toList ++ ',' :: text.toList := by simp
  rw [listed, hcomma, List.splitOn_append_cons_self, List.map_append, listed, listed]

namespace ExpandItem

theorem prefixTree_tree (paths : List PropertyPath) :
    PrefixTree (paths.map PropertyPath.names) (tree paths) := by
  have hnames : namesOf (paths.map PropertyPath.segments) = paths.map PropertyPath.names := by
    rw [namesOf, List.map_map]
    rfl
  rw [tree_eq_ofChains, ← hnames]
  exact prefixTree_ofChains _

theorem branch_tree_iff {names : List String} : Branch (tree paths) names ↔
    names ≠ [] ∧ ∃ path ∈ paths, names <+: path.names := by
  rw [(prefixTree_tree paths).branches]
  simp only [List.mem_map, exists_exists_and_eq_and]

theorem branch_of_front (hpath : path ∈ paths) (hfront : front.names <+: path.names) :
    Branch (tree paths) front.names :=
  branch_tree_iff.2 ⟨List.cons_ne_nil _ _, path, hpath, hfront⟩

theorem insert_tree (h : Branch (tree paths) path.names) :
    insert path.segments (tree paths) = tree paths :=
  insert_eq_self (prefixTree_tree paths).distinct h

/-- A further path that is a branch already leaves the tree as it is. -/
theorem tree_concat (hpath : path ∈ paths) (hfront : front.names <+: path.names) :
    tree (paths ++ [front]) = tree paths := by
  rw [tree, List.foldl_append, ← tree]
  exact insert_tree (branch_of_front hpath hfront)

end ExpandItem

namespace Shape

/-- The tree of single properties goes no deeper than they do. -/
theorem branch_singles_iff {properties : List Property} {names : List String} :
    Branch (tree (properties.map PropertyPath.single)) names ↔
      ∃ p ∈ properties, names = [p.name] := by
  rw [branch_tree_iff]
  constructor
  · rintro ⟨hne, path, hpath, hnames⟩
    obtain ⟨p, hp, rfl⟩ := List.mem_map.1 hpath
    refine ⟨p, hp, ?_⟩
    rcases List.prefix_cons_iff.1 hnames with rfl | ⟨rest, rfl, hrest⟩
    · exact absurd rfl hne
    · rw [List.prefix_nil.1 hrest]
      rfl
  · rintro ⟨p, hp, rfl⟩
    exact ⟨List.cons_ne_nil _ _, .single p, List.mem_map_of_mem hp, List.prefix_refl _⟩

/-- Where the star is not among the items, every item is expanded; where it is, only what the star
stands for. -/
theorem items_expanded (h : parseExpand model key value = .ok paths) :
    ("*" ∉ listed value → ∀ item ∈ listed value, Expands model key (tree paths) item) ∧
      ("*" ∈ listed value → ∃ type, model.complexType? key = some type ∧
        ∀ names, Branch (tree paths) names ↔
          ∃ p ∈ type.properties, p.navigable = true ∧ names = [p.name]) := by
  obtain ⟨-, h⟩ := parseExpand_eq_ok_iff.1 h
  constructor
  · intro hstar item hitem
    rw [if_neg hstar] at h
    obtain ⟨found, hfound, rfl⟩ := h
    obtain ⟨steps, hsteps, hexpand⟩ := exists_mem_of_mapM hfound hitem
    obtain ⟨hresolve, hterminal⟩ := expandItem_eq_ok_iff.1 hexpand
    exact ⟨steps, hresolve, Model.navigable_of_resolvePath hresolve hterminal,
      branch_of_front (List.mem_eraseDups.2 hsteps) (List.prefix_refl _)⟩
  · intro hstar
    rw [if_pos hstar] at h
    obtain ⟨type, htype, rfl⟩ := h
    refine ⟨type, htype, fun names => ?_⟩
    rw [branch_singles_iff]
    simp only [List.mem_filter, and_assoc]

/-- The nodes below a node, and those below them. -/
def kids : PropertyPath := .single Sample.kidsProperty

def kidsOfKids : PropertyPath := ⟨Sample.kidsProperty, [Sample.kidsProperty]⟩

/-- Without the star both items are expanded. -/
theorem items_expanded_kids :
    parseExpand Sample.treeModel Sample.nodeKey "Kids, Kids/Kids" = .ok [kids, kidsOfKids] ∧
      "*" ∉ listed "Kids, Kids/Kids" ∧ "Kids/Kids" ∈ listed "Kids, Kids/Kids" ∧
      Expands Sample.treeModel Sample.nodeKey (tree [kids, kidsOfKids]) "Kids/Kids" := by
  have h : parseExpand Sample.treeModel Sample.nodeKey "Kids, Kids/Kids" =
      .ok [kids, kidsOfKids] := rfl
  have hstar : "*" ∉ listed "Kids, Kids/Kids" := by decide
  have hitem : "Kids/Kids" ∈ listed "Kids, Kids/Kids" := by decide
  exact ⟨h, hstar, hitem, (items_expanded h).1 hstar _ hitem⟩

/-- An item beside the star is a path that could be followed, but it is dropped. -/
theorem not_expanded_beside_star :
    parseExpand Sample.treeModel Sample.nodeKey "*,Kids/Kids" = .ok [kids] ∧
      "Kids/Kids" ∈ listed "*,Kids/Kids" ∧
      Sample.treeModel.resolvePath Sample.nodeKey "Kids/Kids" = .ok kidsOfKids ∧
      ¬Expands Sample.treeModel Sample.nodeKey (tree [kids]) "Kids/Kids" := by
  have hresolve : Sample.treeModel.resolvePath Sample.nodeKey "Kids/Kids" = .ok kidsOfKids := rfl
  refine ⟨rfl, by decide, hresolve, ?_⟩
  rintro ⟨steps, hsteps, -, hbranch⟩
  obtain rfl := Except.ok.inj (hresolve.symm.trans hsteps)
  obtain ⟨-, path, hpath, hnames⟩ := branch_tree_iff.1 hbranch
  obtain rfl := List.mem_singleton.1 hpath
  exact absurd hnames.length_le (by decide)

/-! ## Front parts of paths -/

theorem expandItem_front (h : expandItem model key item = .ok path)
    (hfront : front.segments <+: path.segments) :
    expandItem model key front.text = .ok front := by
  obtain ⟨hresolve, hterminal⟩ := expandItem_eq_ok_iff.1 h
  refine expandItem_eq_ok_iff.2 ⟨Model.resolvePath_front hresolve hfront, ?_⟩
  exact Model.navigable_of_resolvePath hresolve hterminal _
    (hfront.subset front.terminal_mem_segments)

/-- The front part of a path is accepted as a further item, and the tree stays as it is. -/
theorem parseExpand_append (h : parseExpand model key value = .ok paths) (hpath : path ∈ paths)
    (hfront : front.segments <+: path.segments) (hitem : IsItem front.text) :
    ∃ more, parseExpand model key (value ++ "," ++ front.text) = .ok more ∧
      tree more = tree paths := by
  obtain ⟨hwhole, hne, hnotStar⟩ := hitem
  have hlisted : listed (value ++ "," ++ front.text) = listed value ++ [front.text] := by
    rw [listed_append, hwhole]
  simp only [parseExpand_eq_ok_iff, hlisted, List.mem_append, List.mem_singleton, hne.symm,
    hnotStar.symm, or_false]
  obtain ⟨hfilled, h⟩ := parseExpand_eq_ok_iff.1 h
  by_cases hstar : "*" ∈ listed value
  · simp only [hstar, if_true] at h ⊢
    exact ⟨paths, ⟨hfilled, h⟩, rfl⟩
  · simp only [hstar, if_false] at h ⊢
    obtain ⟨found, hfound, rfl⟩ := h
    obtain ⟨item, -, hexpand⟩ := exists_of_mem_mapM hfound (List.mem_eraseDups.1 hpath)
    have hmore : (listed value ++ [front.text]).mapM (expandItem model key) =
        .ok (found ++ [front]) := by
      rw [List.mapM_append, hfound, ok_bind, List.mapM_cons, expandItem_front hexpand hfront]
      rfl
    refine ⟨(found ++ [front]).eraseDups, ⟨hfilled, _, hmore, rfl⟩, ?_⟩
    rw [eraseDups_concat]
    split
    · rfl
    · exact tree_concat hpath (hfront.map Property.name)

end Shape

namespace ExpandItem

/-- The tree of some paths holds their front parts.  A path that is there already changes nothing,
so a query may ask for the front part of a path as well and is answered by the same records. -/
theorem tree_holds_fronts (paths : List PropertyPath) :
    PrefixTree (paths.map PropertyPath.names) (tree paths) ∧
      (∀ path : PropertyPath, Branch (tree paths) path.names →
        insert path.segments (tree paths) = tree paths) ∧
      ∀ path ∈ paths, ∀ front : PropertyPath, front.segments <+: path.segments →
        (∀ model key selection record,
          Projection.shaped model key ⟨selection, paths ++ [front]⟩ record =
            Projection.shaped model key ⟨selection, paths⟩ record) ∧
        ∀ model key value, parseExpand model key value = .ok paths → IsItem front.text →
          ∃ more, parseExpand model key (value ++ "," ++ front.text) = .ok more ∧
            ∀ selection record, Projection.shaped model key ⟨selection, more⟩ record =
              Projection.shaped model key ⟨selection, paths⟩ record := by
  refine ⟨prefixTree_tree paths, fun path => insert_tree, fun path hpath front hfront => ⟨?_, ?_⟩⟩
  · intro model key selection record
    rw [Projection.shaped, Shape.items, tree_concat hpath (hfront.map Property.name)]
    rfl
  · intro model key value h hitem
    obtain ⟨more, hmore, htree⟩ := parseExpand_append h hpath hfront hitem
    refine ⟨more, hmore, fun selection record => ?_⟩
    rw [Projection.shaped, Shape.items, htree]
    rfl

/-- The nodes below a node are there when those below them are. -/
theorem tree_holds_fronts_kids :
    kids.segments <+: kidsOfKids.segments ∧ IsItem kids.text ∧
      parseExpand Sample.treeModel Sample.nodeKey "Kids/Kids" = .ok [kidsOfKids] ∧
      Branch (tree [kidsOfKids]) kids.names ∧
      insert kids.segments (tree [kidsOfKids]) = tree [kidsOfKids] ∧
      ∃ more, parseExpand Sample.treeModel Sample.nodeKey ("Kids/Kids" ++ "," ++ kids.text) =
        .ok more ∧ ∀ selection record,
          Projection.shaped Sample.treeModel Sample.nodeKey ⟨selection, more⟩ record =
            Projection.shaped Sample.treeModel Sample.nodeKey ⟨selection, [kidsOfKids]⟩ record := by
  have hfront : kids.segments <+: kidsOfKids.segments := List.prefix_append _ _
  have hitem : IsItem kids.text := ⟨by decide, by decide, by decide⟩
  have hparse : parseExpand Sample.treeModel Sample.nodeKey "Kids/Kids" = .ok [kidsOfKids] := rfl
  have hmem : kidsOfKids ∈ [kidsOfKids] := List.mem_singleton_self _
  have hbranch : Branch (tree [kidsOfKids]) kids.names :=
    branch_of_front hmem (hfront.map Property.name)
  obtain ⟨-, hinsert, hfronts⟩ := tree_holds_fronts [kidsOfKids]
  exact ⟨hfront, hitem, hparse, hbranch, hinsert kids hbranch,
    (hfronts kidsOfKids hmem kids hfront).2 _ _ _ hparse hitem⟩

end ExpandItem

end EntityQuery
