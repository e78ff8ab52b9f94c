import EntityQuery.Execution.Projection
import EntityQuery.Proofs.Filter.Paths
import EntityQuery.Proofs.Options.ExpandTree
import EntityQuery.Proofs.Schema.PropertyOrder

/-!
# What `$select` and `$expand` ask for

The two options are lists of names and paths.  What an accepted list asks for can be said by the
names in it: the properties to show, each once and in the order of first mention, and the paths to
follow, every property of which is navigable.

A star in `$expand` hides the items beside it: what is followed then are the single properties that
the star stands for.  This is what the list asks for only if the star covers those items.
-/

namespace EntityQuery

/-- The items of a list, without the blanks around them. -/
def listed (value : String) : List String :=
  (value.toList.splitOn ',').map fun item => String.ofList (Text.trimChars item)

namespace ComplexType

/-- The names of the properties that are not navigable. -/
def ownNames (type : ComplexType) : List String :=
  (type.properties.filter fun p => !p.navigable).map Property.name

/-- The names of the properties that are. -/
def navigableNames (type : ComplexType) : List String :=
  (type.properties.filter Property.navigable).map Property.name

/-- The names of the properties that a value of `$select`, or its absence, shows. -/
def selectedNames (type : ComplexType) : Option String → List String
  | none => type.ownNames
  | some value =>
    if "*" ∈ listed value then type.ownNames
    else (listed value).eraseDups.filter fun name => name ∈ type.ownNames

/-- The paths that an item of `$expand` asks for: the star stands for every navigable property. -/
def askedPaths (type : ComplexType) (item : String) : List (List String) :=
  if item = "*" then type.navigableNames.map fun name => [name] else [Model.splitPath item]

/-- The paths that a value of `$expand`, or its absence, asks for. -/
def expandedPaths (type : ComplexType) : Option String → List (List String)
  | none => []
  | some value => (listed value).eraseDups.flatMap type.askedPaths

/-- A star in `$expand` covers the items beside it: with them the list asks for no more than the
navigable properties in their order, and for nothing behind them. -/
def StarCovers (type : ComplexType) (expand : Option String) : Prop :=
  ∀ value, expand = some value → "*" ∈ listed value →
    heads (type.expandedPaths expand) = type.navigableNames ∧
      ∀ path ∈ type.expandedPaths expand, path.tail = []

/-- A star covers what is beside it if nothing else is. -/
theorem starCovers_of_alone {type : ComplexType} {expand : Option String}
    (hnodup : type.navigableNames.Nodup)
    (h : ∀ value, expand = some value → "*" ∈ listed value → ∀ item ∈ listed value, item = "*") :
    type.StarCovers expand := by
  rintro value rfl hstar
  have hitems : (listed value).eraseDups = ["*"] := by
    refine List.perm_singleton.1 ((List.perm_ext_iff_of_nodup (nodup_eraseDups _)
      (List.nodup_singleton _)).2 fun item => ?_)
    rw [List.mem_eraseDups, List.mem_singleton]
    exact ⟨h value rfl hstar item, fun heq => heq ▸ hstar⟩
  have hpaths : type.expandedPaths (some value) = type.navigableNames.map fun name => [name] := by
    rw [expandedPaths, hitems, List.flatMap_singleton, askedPaths, if_pos rfl]
  rw [hpaths]
  exact ⟨heads_singles hnodup, by simp⟩

end ComplexType

/-- A chain of navigable properties, each of them of the type that the one before leads to. -/
inductive Leads (model : Model) : TypeKey → List Property → Prop
  | nil {key : TypeKey} : Leads model key []
  | cons {key next : TypeKey} {type : ComplexType} {p : Property} {rest : List Property}
      (htype : model.complexType? key = some type) (hp : p ∈ type.properties)
      (hnavigable : p.navigable = true) (hnext : p.type.complexKey? = some next)
      (hrest : Leads model next rest) : Leads model key (p :: rest)

section Mentions

variable {α β : Type} [DecidableEq α] [DecidableEq β]

/-- First mentions are those of what tells the items apart. -/
theorem map_eraseDups {f : α → β} {as : List α} (hinj : ∀ a ∈ as, ∀ b ∈ as, f a = f b → a = b) :
    as.eraseDups.map f = (as.map f).eraseDups := by
  induction as using List.reverseRecOn with
  | nil => rfl
  | append_singleton as a ih =>
      have hold : as.eraseDups.map f = (as.map f).eraseDups :=
        ih fun b hb c hc => hinj b (List.mem_append_left _ hb) c (List.mem_append_left _ hc)
      have hmem : f a ∈ as.map f ↔ a ∈ as := by
        refine ⟨fun h => ?_, List.mem_map_of_mem⟩
        obtain ⟨b, hb, heq⟩ := List.mem_map.1 h
        exact hinj b (List.mem_append_left _ hb) a (by simp) heq ▸ hb
      rw [eraseDups_concat, List.map_append, List.map_singleton, eraseDups_concat]
      simp only [hmem]
      split
      · exact hold
      · rw [List.map_append, hold, List.map_singleton]

end Mentions

namespace Shape

variable {model : Model} {key : TypeKey} {type : ComplexType} {option : SystemOption}
  {value item path : String} {items : List String} {paths : List PropertyPath}
  {steps : PropertyPath} {p : Property} {raw : RawOptions} {shape : Shape}

theorem foldl_addNew (paths : List PropertyPath) : paths.foldl addNew [] = paths.eraseDups := by
  induction paths using List.reverseRecOn with
  | nil => rfl
  | append_singleton paths path ih =>
      rw [List.foldl_append, ih, eraseDups_concat, List.foldl_cons, List.foldl_nil, addNew]
      simp only [List.contains_iff_mem, List.mem_eraseDups]

/-- A list is read as its items if none of them is empty. -/
theorem listItems_eq_ok_iff :
    listItems option value = .ok items ↔ "" ∉ listed value ∧ items = listed value := by
  rw [listItems, mapM_eq_ok_iff (P := fun cs => String.ofList (Text.trimChars cs) ≠ "")
    (g := fun cs => String.ofList (Text.trimChars cs)), ← listed]
  · simp [listed]
  · intro cs name
    have hempty : String.ofList (Text.trimChars cs) = "" ↔ (Text.trimChars cs).isEmpty = true := by
      rw [String.ofList_eq_empty_iff, List.isEmpty_iff]
    rw [ne_eq, hempty]
    dsimp only
    split
    · rename_i hblank
      simp [hblank]
    · rename_i hfilled
      rw [Except.ok.injEq, and_iff_right hfilled, eq_comm]

/-! ## `$select` -/

theorem mem_ownNames (hordered : model.Ordered) (htype : model.complexType? key = some type)
    (hp : p ∈ type.properties) : p.name ∈ type.ownNames ↔ p.navigable = false := by
  constructor
  · intro h
    obtain ⟨q, hq, hname⟩ := List.mem_map.1 h
    obtain ⟨hq, hnavigable⟩ := List.mem_filter.1 hq
    rw [← hordered.eq_of_name htype hq hp hname]
    simpa using hnavigable
  · intro h
    exact List.mem_map_of_mem (List.mem_filter.2 ⟨hp, by simp [h]⟩)

/-- An item of `$select` names a property of the type. -/
theorem selectItem_eq_ok (htype : model.complexType? key = some type)
    (h : selectItem model key item = .ok steps) :
    ∃ p ∈ type.properties, p.name = item ∧ steps = .single p := by
  unfold selectItem at h
  split at h
  · cases h
  · obtain ⟨p, hp, rfl⟩ := map_eq_ok.1 h
    obtain ⟨hname, other, hother, hmem⟩ := Model.property_eq_ok hp
    obtain rfl := Option.some.inj (htype.symm.trans hother)
    exact ⟨p, hmem, hname, rfl⟩

/-- The selected properties are the listed ones that are not navigable. -/
theorem selected_of_items (hordered : model.Ordered) (htype : model.complexType? key = some type)
    (h : items.mapM (selectItem model key) = .ok paths) :
    (Projection.selected type (.properties (paths.foldl addNew []))).map Property.name
        = items.eraseDups.filter (fun name => name ∈ type.ownNames) ∧
      ∀ p ∈ Projection.selected type (.properties (paths.foldl addNew [])),
        p ∈ type.properties ∧ p.navigable = false := by
  have hpaths : ∀ steps ∈ paths, ∃ p ∈ type.properties, steps = .single p := by
    intro steps hsteps
    obtain ⟨item, -, hitem⟩ := exists_of_mem_mapM h hsteps
    obtain ⟨p, hp, -, rfl⟩ := selectItem_eq_ok htype hitem
    exact ⟨p, hp, rfl⟩
  have hnames : paths.map (fun steps => steps.terminal.name) = items := by
    refine (map_eq_of_mapM (g := id) (fun item steps hsteps => ?_) h).trans (List.map_id items)
    obtain ⟨p, -, hname, rfl⟩ := selectItem_eq_ok htype hsteps
    exact hname
  have hinj : ∀ a ∈ paths, ∀ b ∈ paths, a.terminal.name = b.terminal.name → a = b := by
    intro a ha b hb hname
    obtain ⟨p, hp, rfl⟩ := hpaths a ha
    obtain ⟨q, hq, rfl⟩ := hpaths b hb
    rw [hordered.eq_of_name htype hp hq hname]
  have hterminal : ∀ steps ∈ paths.eraseDups, steps.terminal ∈ type.properties := by
    intro steps hsteps
    obtain ⟨p, hp, rfl⟩ := hpaths steps (List.mem_eraseDups.1 hsteps)
    exact hp
  rw [Projection.selected, foldl_addNew]
  constructor
  · rw [← hnames, ← map_eraseDups hinj, List.filter_map, List.filter_map, List.map_map]
    congr 1
    refine List.filter_congr fun steps hsteps => ?_
    simp [mem_ownNames hordered htype (hterminal steps hsteps)]
  · intro p hp
    obtain ⟨hp, hnavigable⟩ := List.mem_filter.1 hp
    obtain ⟨steps, hsteps, rfl⟩ := List.mem_map.1 hp
    exact ⟨hterminal steps hsteps, by simpa using hnavigable⟩

/-- All that is not navigable is selected where nothing else is asked for. -/
theorem selected_all {selection : Selection} (h : selection = .default ∨ selection = .all) :
    (Projection.selected type selection).map Property.name = type.ownNames ∧
      ∀ p ∈ Projection.selected type selection, p ∈ type.properties ∧ p.navigable = false := by
  have heq : Projection.selected type selection = type.properties.filter fun p => !p.navigable := by
    rcases h with rfl | rfl <;> rfl
  rw [heq]
  exact ⟨rfl, fun p hp => by simpa using List.mem_filter.1 hp⟩

theorem selected_of_parse (hordered : model.Ordered) (htype : model.complexType? key = some type)
    {selection : Selection}
    (h : (raw.value? .select).elim (.ok .default) (parseSelect model key) = .ok selection) :
    (Projection.selected type selection).map Property.name
        = type.selectedNames (raw.value? .select) ∧
      ∀ p ∈ Projection.selected type selection, p ∈ type.properties ∧ p.navigable = false := by
  cases hvalue : raw.value? .select with
  | none =>
      rw [hvalue] at h
      exact selected_all (.inl (Except.ok.inj h).symm)
  | some value =>
      rw [hvalue] at h
      obtain ⟨items, hitems, h⟩ := bind_eq_ok.1 h
      obtain ⟨-, rfl⟩ := listItems_eq_ok_iff.1 hitems
      rw [ComplexType.selectedNames]
      split at h
      · rename_i hstar
        rw [if_pos (List.contains_iff_mem.1 hstar)]
        exact selected_all (.inr (pure_eq_ok.1 h).symm)
      · rename_i hstar
        obtain ⟨paths, hpaths, h⟩ := bind_eq_ok.1 h
        obtain rfl := pure_eq_ok.1 h
        rw [if_neg (fun hmem => hstar (List.contains_iff_mem.2 hmem))]
        exact selected_of_items hordered htype hpaths

/-! ## `$expand` -/

/-- What `$expand` is read as: the star stands for all there is and hides everything else. -/
theorem parseExpand_eq_ok_iff : parseExpand model key value = .ok paths ↔
    "" ∉ listed value ∧
      if "*" ∈ listed value then ∃ type, model.complexType? key = some type ∧
        paths = (type.properties.filter Property.navigable).map PropertyPath.single
      else ∃ found, (listed value).mapM (expandItem model key) = .ok found ∧
        paths = found.eraseDups := by
  unfold parseExpand
  rw [bind_eq_ok]
  simp only [listItems_eq_ok_iff, and_assoc, exists_and_left, exists_eq_left,
    List.contains_iff_mem]
  refine and_congr_right fun _ => ?_
  split
  · simp only [bind_eq_ok, pure_eq_ok, Model.complexType_eq_ok_iff]
    exact exists_congr fun _ => and_congr_right fun _ => eq_comm
  · simp only [bind_eq_ok, pure_eq_ok, foldl_addNew]
    exact exists_congr fun _ => and_congr_right fun _ => eq_comm

theorem leads_of_follows {names : List String} {properties : List Property}
    (hordered : model.Ordered) (h : model.Follows key names properties)
    (hnavigable : ∀ p ∈ properties, p.navigable = true) : Leads model key properties := by
  induction h with
  | last htype hp =>
      have hmem := (Model.mem_of_property? hp).1
      have hleads := hnavigable _ List.mem_cons_self
      obtain ⟨next, hnext⟩ := hordered.leads _ _ htype _ hmem hleads
      exact .cons htype hmem hleads hnext .nil
  | step htype hp hleads hnext _ ih =>
      refine .cons htype (Model.mem_of_property? hp).1 hleads hnext (ih fun q hq => ?_)
      exact hnavigable q (List.mem_cons_of_mem _ hq)

theorem leads_of_resolvePath (hordered : model.Ordered)
    (h : model.resolvePath key path = .ok steps) (hterminal : steps.terminal.navigable = true) :
    Leads model key steps.segments :=
  leads_of_follows hordered (Model.resolvePath_eq_ok_iff.1 h).2
    (Model.navigable_of_resolvePath h hterminal)

theorem expandItem_eq_ok_iff : expandItem model key item = .ok steps ↔
    model.resolvePath key item = .ok steps ∧ steps.terminal.navigable = true := by
  unfold expandItem
  simp only [bind_eq_ok, guard_eq_ok, pure_eq_ok, Bool.not_eq_true', Bool.not_eq_false]
  constructor
  · rintro ⟨resolved, hresolved, hnavigable, rfl⟩
    exact ⟨hresolved, hnavigable⟩
  · rintro ⟨hresolved, hnavigable⟩
    exact ⟨steps, hresolved, hnavigable, rfl⟩

/-- What is asked for by the value of `$select`, and what the paths of a shape are. -/
structure Asks (model : Model) (key : TypeKey) (type : ComplexType) (shape : Shape)
    (select : Option String) : Prop where
  selected : (Projection.selected type shape.selection).map Property.name
    = type.selectedNames select
  own : ∀ p ∈ Projection.selected type shape.selection,
    p ∈ type.properties ∧ p.navigable = false
  leads : ∀ path ∈ shape.expand, Leads model key path.segments

/-- A star follows every navigable property. -/
theorem paths_of_star (hordered : model.Ordered) (htype : model.complexType? key = some type) :
    ((type.properties.filter Property.navigable).map PropertyPath.single).map PropertyPath.names
        = type.navigableNames.map (fun name => [name]) ∧
      ∀ path ∈ (type.properties.filter Property.navigable).map PropertyPath.single,
        Leads model key path.segments := by
  constructor
  · simp [ComplexType.navigableNames, PropertyPath.names, PropertyPath.segments,
      PropertyPath.single]
  · intro path hpath
    obtain ⟨p, hp, rfl⟩ := List.mem_map.1 hpath
    obtain ⟨hp, hnavigable⟩ := List.mem_filter.1 hp
    obtain ⟨next, hnext⟩ := hordered.leads key type htype p hp hnavigable
    exact .cons htype hp hnavigable hnext .nil

theorem paths_of_items {items : List String} (hordered : model.Ordered)
    (h : items.mapM (expandItem model key) = .ok paths) :
    paths.eraseDups.map PropertyPath.names = items.eraseDups.map Model.splitPath ∧
      ∀ path ∈ paths.eraseDups, Leads model key path.segments := by
  have hresolved : ∀ steps ∈ paths, model.resolvePath key steps.text = .ok steps ∧
      steps.terminal.navigable = true := by
    intro steps hsteps
    obtain ⟨item, -, hitem⟩ := exists_of_mem_mapM h hsteps
    obtain ⟨hresolve, hnavigable⟩ := expandItem_eq_ok_iff.1 hitem
    rw [Model.text_of_resolvePath hresolve]
    exact ⟨hresolve, hnavigable⟩
  have htexts : paths.map PropertyPath.text = items := by
    refine (map_eq_of_mapM (g := id) (fun item steps hsteps => ?_) h).trans (List.map_id _)
    exact Model.text_of_resolvePath (expandItem_eq_ok_iff.1 hsteps).1
  -- A path is told from others by its text, since it is resolved from it.
  have hinj : ∀ a ∈ paths, ∀ b ∈ paths, a.text = b.text → a = b := by
    intro a ha b hb heq
    have hsame := (hresolved a ha).1
    rw [heq, (hresolved b hb).1] at hsame
    exact (Except.ok.inj hsame).symm
  constructor
  · rw [← htexts, ← map_eraseDups hinj, List.map_map]
    refine List.map_congr_left fun steps hsteps => ?_
    exact Model.names_of_resolvePath (hresolved steps (List.mem_eraseDups.1 hsteps)).1
  · intro steps hsteps
    obtain ⟨hresolve, hnavigable⟩ := hresolved steps (List.mem_eraseDups.1 hsteps)
    exact leads_of_resolvePath hordered hresolve hnavigable

/-- The names that the paths of an accepted value have, and where the paths lead. -/
theorem paths_of_parseExpand (hordered : model.Ordered) (htype : model.complexType? key = some type)
    (h : parseExpand model key value = .ok paths) :
    (if "*" ∈ listed value then
      paths.map PropertyPath.names = type.navigableNames.map fun name => [name]
    else paths.map PropertyPath.names = type.expandedPaths (some value)) ∧
      ∀ path ∈ paths, Leads model key path.segments := by
  obtain ⟨-, h⟩ := parseExpand_eq_ok_iff.1 h
  split at h
  · rename_i hstar
    obtain ⟨found, hfound, rfl⟩ := h
    obtain rfl := Option.some.inj (htype.symm.trans hfound)
    rw [if_pos hstar]
    exact paths_of_star hordered htype
  · rename_i hstar
    obtain ⟨found, hfound, rfl⟩ := h
    obtain ⟨hnames, hleads⟩ := paths_of_items hordered hfound
    have hasked : ∀ item ∈ (listed value).eraseDups,
        type.askedPaths item = [Model.splitPath item] := by
      intro item hitem
      refine if_neg ?_
      rintro rfl
      exact hstar (List.mem_eraseDups.1 hitem)
    rw [if_neg hstar, hnames, ComplexType.expandedPaths, List.flatMap_congr hasked,
      ← List.map_eq_flatMap]
    exact ⟨rfl, hleads⟩

theorem leads_of_parse (hordered : model.Ordered) (htype : model.complexType? key = some type)
    (h : (raw.value? .expand).elim (.ok []) (parseExpand model key) = .ok paths) :
    ∀ path ∈ paths, Leads model key path.segments := by
  cases hvalue : raw.value? .expand with
  | none =>
      rw [hvalue] at h
      obtain rfl := Except.ok.inj h
      simp
  | some value =>
      rw [hvalue] at h
      exact (paths_of_parseExpand hordered htype h).2

/-- The two options are read one after the other. -/
theorem parse_eq_ok (h : Shape.parse model key raw = .ok shape) :
    (raw.value? .select).elim (.ok .default) (parseSelect model key) = .ok shape.selection ∧
      (raw.value? .expand).elim (.ok []) (parseExpand model key) = .ok shape.expand := by
  have hsteps : Shape.parse model key raw =
      (raw.value? .select).elim (.ok .default) (parseSelect model key) >>= fun selection =>
        (raw.value? .expand).elim (.ok []) (parseExpand model key) >>= fun expand =>
          pure ⟨selection, expand⟩ := by
    unfold parse
    cases raw.value? .select <;> cases raw.value? .expand <;> rfl
  rw [hsteps] at h
  obtain ⟨selection, hselection, h⟩ := bind_eq_ok.1 h
  obtain ⟨paths, hpaths, h⟩ := bind_eq_ok.1 h
  obtain rfl := pure_eq_ok.1 h
  exact ⟨hselection, hpaths⟩

/-- An accepted shape asks for what its options name. -/
theorem asks_of_parse (hordered : model.Ordered) (htype : model.complexType? key = some type)
    (h : Shape.parse model key raw = .ok shape) :
    Asks model key type shape (raw.value? .select) := by
  obtain ⟨hselection, hpaths⟩ := parse_eq_ok h
  obtain ⟨hselected, hown⟩ := selected_of_parse hordered htype hselection
  exact ⟨hselected, hown, leads_of_parse hordered htype hpaths⟩

/-- The paths of an accepted shape are those that `$expand` asks for, or the single properties that
its star stands for. -/
theorem names_of_parse (hordered : model.Ordered) (htype : model.complexType? key = some type)
    (h : Shape.parse model key raw = .ok shape) :
    shape.expand.map PropertyPath.names = type.expandedPaths (raw.value? .expand) ∨
      ∃ value, raw.value? .expand = some value ∧ "*" ∈ listed value ∧
        shape.expand.map PropertyPath.names = type.navigableNames.map fun name => [name] := by
  have hpaths := (parse_eq_ok h).2
  cases hvalue : raw.value? .expand with
  | none =>
      rw [hvalue] at hpaths
      rw [← Except.ok.inj hpaths]
      exact .inl rfl
  | some value =>
      rw [hvalue] at hpaths
      have hnames := (paths_of_parseExpand hordered htype hpaths).1
      split at hnames
      · exact .inr ⟨value, rfl, ‹_›, hnames⟩
      · exact .inl hnames

end Shape

end EntityQuery
