import EntityQuery.Proofs.Result
import EntityQuery.Schema.Model

/-!
# What a path resolves to

A path can be resolved if its names can be followed from a type on: each is the name of a property
of the type reached so far, and each property but the last leads on to another type
(`Model.Follows`).  Whatever is to be known of a resolved path is shown by induction on this
relation, not on the resolution itself.
-/

namespace EntityQuery

/-- What a list is cut into does not have the mark at which it is cut. -/
theorem not_mem_of_mem_splitOn {α : Type} [BEq α] [LawfulBEq α] {mark : α} {as piece : List α}
    (h : piece ∈ as.splitOn mark) : mark ∉ piece := by
  induction as generalizing piece with
  | nil =>
      rw [List.splitOn_nil, List.mem_singleton] at h
      rw [h]
      exact List.not_mem_nil
  | cons a as ih =>
      rw [List.splitOn_cons_eq_if_modifyHead] at h
      split at h
      · rcases List.mem_cons.1 h with rfl | hmem
        · exact List.not_mem_nil
        · exact ih hmem
      · rename_i hne
        cases hpieces : as.splitOn mark with
        | nil => exact absurd hpieces (List.splitOn_ne_nil _ _)
        | cons first pieces =>
            rw [hpieces] at ih h
            rcases List.mem_cons.1 h with rfl | hmem
            · have hfirst := ih List.mem_cons_self
              rw [List.mem_cons, not_or]
              exact ⟨fun heq => hne (beq_iff_eq.2 heq.symm), hfirst⟩
            · exact ih (List.mem_cons_of_mem _ hmem)

namespace Model

variable {model : Model} {key next : TypeKey} {name path : String} {names : List String}
  {p : Property} {before after properties : List Property} {steps : PropertyPath}

/-- The properties that names lead along, beginning at a type. -/
inductive Follows (model : Model) : TypeKey → List String → List Property → Prop
  | last {key : TypeKey} {type : ComplexType} {name : String} {p : Property}
      (htype : model.complexType? key = some type) (hp : type.property? name = some p) :
      Follows model key [name] [p]
  | step {key next : TypeKey} {type : ComplexType} {name : String} {names : List String}
      {p : Property} {rest : List Property} (htype : model.complexType? key = some type)
      (hp : type.property? name = some p) (hnavigable : p.navigable = true)
      (hnext : p.type.complexKey? = some next) (hrest : Follows model next names rest) :
      Follows model key (name :: names) (p :: rest)

theorem mem_of_property? {type : ComplexType} (h : type.property? name = some p) :
    p ∈ type.properties ∧ p.name = name :=
  ⟨List.mem_of_find?_eq_some h, by simpa using List.find?_some h⟩

/-! ## Following names -/

namespace Follows

theorem names_eq (h : model.Follows key names properties) :
    properties.map Property.name = names := by
  induction h with
  | last htype hp => rw [List.map_singleton, (mem_of_property? hp).2]
  | step htype hp _ _ _ ih => rw [List.map_cons, (mem_of_property? hp).2, ih]

theorem ne_nil (h : model.Follows key names properties) : properties ≠ [] := by
  cases h <;> exact List.cons_ne_nil _ _

/-- Whoever follows some names follows the first of them as well. -/
theorem of_append (h : model.Follows key names (before ++ after)) (hne : before ≠ []) :
    model.Follows key (before.map Property.name) before := by
  induction before generalizing key names with
  | nil => exact absurd rfl hne
  | cons p before ih =>
      generalize hall : p :: before ++ after = properties at h
      cases h with
      | last htype hp =>
          obtain ⟨rfl, hrest⟩ := List.cons.inj hall
          obtain ⟨rfl, -⟩ := List.append_eq_nil_iff.1 hrest
          rw [List.map_singleton, (mem_of_property? hp).2]
          exact .last htype hp
      | step htype hp hnavigable hnext hrest =>
          obtain ⟨rfl, rfl⟩ := List.cons.inj hall
          rw [List.map_cons, (mem_of_property? hp).2]
          cases before with
          | nil => exact .last htype hp
          | cons q before =>
              exact .step htype hp hnavigable hnext (ih hrest (List.cons_ne_nil _ _))

/-- Every property on the way leads on. -/
theorem navigable (h : model.Follows key names properties) :
    ∀ p ∈ properties.dropLast, p.navigable = true := by
  induction h with
  | last htype hp => simp
  | step htype hp hnavigable hnext hrest ih =>
      intro q hq
      rw [List.dropLast_cons_of_ne_nil hrest.ne_nil] at hq
      rcases List.mem_cons.1 hq with rfl | hq
      · exact hnavigable
      · exact ih q hq

end Follows

/-! ## Resolution -/

theorem complexType_eq_ok_iff {type : ComplexType} :
    model.complexType key = .ok type ↔ model.complexType? key = some type := by
  unfold complexType
  cases model.complexType? key <;> simp

theorem property_eq_ok_iff : model.property key name = .ok p ↔
    ∃ type, model.complexType? key = some type ∧ type.property? name = some p := by
  unfold property
  simp only [bind_eq_ok, complexType_eq_ok_iff]
  refine exists_congr fun type => and_congr_right fun _ => ?_
  cases type.property? name <;> simp

theorem property_eq_ok (h : model.property key name = .ok p) :
    p.name = name ∧ ∃ type, model.complexType? key = some type ∧ p ∈ type.properties := by
  obtain ⟨type, htype, hp⟩ := property_eq_ok_iff.1 h
  obtain ⟨hmem, hname⟩ := mem_of_property? hp
  exact ⟨hname, type, htype, hmem⟩

theorem target_eq_ok_iff : target path p = .ok next ↔
    p.navigable = true ∧ p.type.complexKey? = some next := by
  unfold target
  cases p.navigable <;> cases p.type.complexKey? <;> simp

theorem follows_singleton_iff : model.Follows key [name] properties ↔
    ∃ p, model.property key name = .ok p ∧ properties = [p] := by
  simp only [property_eq_ok_iff]
  constructor
  · intro h
    cases h with
    | last htype hp => exact ⟨_, ⟨_, htype, hp⟩, rfl⟩
    | step _ _ _ _ hrest => nomatch hrest
  · rintro ⟨p, ⟨type, htype, hp⟩, rfl⟩
    exact .last htype hp

theorem resolveSegments_eq_ok_iff (hne : names ≠ []) :
    model.resolveSegments path key names = .ok properties ↔
      "" ∉ names ∧ model.Follows key names properties := by
  induction names generalizing key properties with
  | nil => exact absurd rfl hne
  | cons name rest ih =>
      unfold resolveSegments
      dsimp only
      rw [guard_eq_ok, String.isEmpty_iff, bind_eq_ok]
      cases rest with
      | nil =>
          rw [List.mem_singleton, follows_singleton_iff, eq_comm (a := name)]
          simp only [pure_eq_ok, eq_comm (b := properties)]
      | cons other rest =>
          have hlater (next : TypeKey) (later : List Property) :
              model.resolveSegments path next (other :: rest) = .ok later ↔
                "" ∉ other :: rest ∧ model.Follows next (other :: rest) later :=
            ih (List.cons_ne_nil other rest)
          constructor
          · rintro ⟨hname, p, hp, h⟩
            obtain ⟨type, htype, hp⟩ := property_eq_ok_iff.1 hp
            obtain ⟨next, htarget, h⟩ := bind_eq_ok.1 h
            obtain ⟨later, hrest, h⟩ := bind_eq_ok.1 h
            obtain rfl := pure_eq_ok.1 h
            obtain ⟨hnavigable, hnext⟩ := target_eq_ok_iff.1 htarget
            obtain ⟨hnames, hrest⟩ := (hlater next later).1 hrest
            refine ⟨?_, .step htype hp hnavigable hnext hrest⟩
            rw [List.mem_cons, not_or]
            exact ⟨fun h => hname h.symm, hnames⟩
          · rintro ⟨hnames, h⟩
            rw [List.mem_cons, not_or] at hnames
            cases h with
            | step htype hp hnavigable hnext hrest =>
                refine ⟨fun h => hnames.1 h.symm, _, property_eq_ok_iff.2 ⟨_, htype, hp⟩, ?_⟩
                rw [target_eq_ok_iff.2 ⟨hnavigable, hnext⟩, ok_bind,
                  (hlater _ _).2 ⟨hnames.2, hrest⟩]
                rfl

theorem intercalate_splitPath (path : String) :
    String.intercalate "/" (splitPath path) = path := by
  apply String.toList_injective
  rw [String.toList_intercalate, splitPath, List.map_map]
  have hlist : String.toList ∘ String.ofList = id := by
    funext cs
    simp
  rw [hlist, List.map_id]
  show ['/'].intercalate (path.toList.splitOn '/') = path.toList
  exact List.intercalate_splitOn '/'

theorem eq_of_splitPath_eq_singleton {only : String} (h : splitPath path = [only]) :
    only = path := by
  rw [← intercalate_splitPath path, h, String.intercalate_singleton]

/-- A path that is resolved has no empty segment, unless it is a single one. -/
theorem resolvePath_eq_ok_iff : model.resolvePath key path = .ok steps ↔
    ((splitPath path).length = 1 ∨ "" ∉ splitPath path) ∧
      model.Follows key (splitPath path) steps.segments := by
  unfold resolvePath
  split
  · rename_i hsplit
    exact absurd (List.map_eq_nil_iff.1 hsplit) (List.splitOn_ne_nil _ _)
  · rename_i only hsplit
    obtain rfl := eq_of_splitPath_eq_singleton hsplit
    rw [hsplit, follows_singleton_iff, resolveProperty, map_eq_ok, and_iff_right (.inl rfl)]
    refine exists_congr fun p => and_congr_right fun _ => ?_
    obtain ⟨first, rest⟩ := steps
    simp [PropertyPath.single, PropertyPath.segments, eq_comm]
  · rename_i hnil hone
    have hlength : (splitPath path).length ≠ 1 := fun h => by
      obtain ⟨only, honly⟩ := List.length_eq_one_iff.1 h
      exact hone only honly
    have hsegments : model.resolveSegments path key (splitPath path) = .ok steps.segments ↔ _ :=
      resolveSegments_eq_ok_iff hnil
    rw [or_iff_right hlength, ← hsegments, bind_eq_ok]
    constructor
    · rintro ⟨properties, hproperties, h⟩
      cases properties with
      | nil => cases h
      | cons first rest =>
          obtain rfl := pure_eq_ok.1 h
          exact hproperties
    · intro h
      exact ⟨steps.segments, h, rfl⟩

/-! ## Resolved paths -/

theorem names_of_resolvePath (h : model.resolvePath key path = .ok steps) :
    steps.names = splitPath path :=
  (resolvePath_eq_ok_iff.1 h).2.names_eq

/-- A resolved path is printed as it was written. -/
theorem text_of_resolvePath (h : model.resolvePath key path = .ok steps) : steps.text = path := by
  rw [PropertyPath.text, names_of_resolvePath h, intercalate_splitPath]

theorem splitPath_text (hnames : ∀ name ∈ steps.names, '/' ∉ name.toList) :
    splitPath steps.text = steps.names := by
  have hslash : "/".toList = ['/'] := rfl
  have hlist : ∀ cs ∈ steps.names.map String.toList, '/' ∉ cs := by
    simpa using hnames
  have hne : steps.names.map String.toList ≠ [] := by
    simp [PropertyPath.names, PropertyPath.segments]
  rw [splitPath, PropertyPath.text, String.toList_intercalate, hslash,
    List.splitOn_intercalate _ hlist hne, List.map_map]
  simp [Function.comp_def]

theorem not_mem_of_mem_splitPath {segment : String} (h : segment ∈ splitPath path) :
    '/' ∉ segment.toList := by
  obtain ⟨cs, hcs, rfl⟩ := List.mem_map.1 h
  rw [String.toList_ofList]
  exact not_mem_of_mem_splitOn hcs

/-- All properties of a path lead on if the last one does. -/
theorem navigable_of_resolvePath (h : model.resolvePath key path = .ok steps)
    (hterminal : steps.terminal.navigable = true) : ∀ p ∈ steps.segments, p.navigable = true := by
  have hlast : steps.segments.getLast? = some steps.terminal := List.getLast?_cons
  obtain ⟨others, hothers⟩ := List.getLast?_eq_some_iff.1 hlast
  have hnavigable := (resolvePath_eq_ok_iff.1 h).2.navigable
  rw [hothers, List.dropLast_concat] at hnavigable
  intro p hp
  rw [hothers, List.mem_append, List.mem_singleton] at hp
  rcases hp with hp | rfl
  · exact hnavigable p hp
  · exact hterminal

/-- The front of a resolved path is a path of its own. -/
theorem resolvePath_front {shorter : PropertyPath} (h : model.resolvePath key path = .ok steps)
    (hfront : shorter.segments <+: steps.segments) :
    model.resolvePath key shorter.text = .ok shorter := by
  obtain ⟨hnonempty, hfollows⟩ := resolvePath_eq_ok_iff.1 h
  obtain ⟨after, hafter⟩ := hfront
  have hnames : shorter.names <+: splitPath path := by
    rw [← names_of_resolvePath h, PropertyPath.names, PropertyPath.names, ← hafter, List.map_append]
    exact List.prefix_append _ _
  have hsplit : splitPath shorter.text = shorter.names :=
    splitPath_text fun name hname => not_mem_of_mem_splitPath (hnames.subset hname)
  rw [← hafter] at hfollows
  rw [resolvePath_eq_ok_iff, hsplit]
  refine ⟨?_, hfollows.of_append (List.cons_ne_nil _ _)⟩
  rcases hnonempty with hone | hnonempty
  · have hle := hnames.length_le
    have hpos : 0 < shorter.names.length := Nat.succ_pos _
    exact .inl (by omega)
  · exact .inr fun hempty => hnonempty (hnames.subset hempty)

end Model

end EntityQuery
