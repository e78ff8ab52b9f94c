import EntityQuery.Proofs.Schema.Closure
import EntityQuery.Proofs.Tables

/-!
# The properties of a finished record type

A record type of a finished model has each of its names once, in ascending order, and it has the
names of every type that it extends.  A navigable property leads to records.
-/

namespace EntityQuery

/-- The names of the properties, in the order of the type. -/
def ComplexType.names (type : ComplexType) : List String := type.properties.map Property.name

/-- The properties of the record types are in order. -/
structure Model.Ordered (model : Model) : Prop where
  ascending : ∀ key type, model.complexType? key = some type → type.names.Pairwise (· < ·)
  inherited : ∀ key type, model.complexType? key = some type → ∀ parent ∈ type.base,
    ∀ base, model.complexType? parent = some base → base.names ⊆ type.names
  leads : ∀ key type, model.complexType? key = some type → ∀ p ∈ type.properties,
    p.navigable = true → ∃ next, p.type.complexKey? = some next

theorem Model.Ordered.nodup {model : Model} {key : TypeKey} {type : ComplexType}
    (h : model.Ordered) (htype : model.complexType? key = some type) : type.names.Nodup := by
  refine (h.ascending key type htype).imp fun hlt => ?_
  rintro rfl
  exact String.lt_irrefl _ hlt

/-- A type has one property of a name. -/
theorem Model.Ordered.eq_of_name {model : Model} {key : TypeKey} {type : ComplexType}
    {p q : Property} (h : model.Ordered) (htype : model.complexType? key = some type)
    (hp : p ∈ type.properties) (hq : q ∈ type.properties) (hname : p.name = q.name) : p = q :=
  List.inj_on_of_nodup_map (h.nodup htype) hp hq hname

namespace ModelBuilder

variable {builder : ModelBuilder} {calls : List Call} {key : TypeKey} {draft : RecordDraft}
  {type : ComplexType} {model : Model} {present more : List Property}
  {lists : List (List Property)} {name : String} {p : Property}

/-! ## Names -/

theorem nodup_addMissing (h : (present.map Property.name).Nodup) :
    ((addMissing present more).map Property.name).Nodup := by
  induction more generalizing present with
  | nil => exact h
  | cons p more ih =>
      rw [addMissing, List.foldl_cons]
      apply ih
      split
      · exact h
      · rename_i hnew
        rw [List.map_append, List.map_singleton]
        refine h.append (by simp) ?_
        rw [List.disjoint_singleton]
        intro hmem
        obtain ⟨q, hq, hname⟩ := List.mem_map.1 hmem
        exact hnew (List.any_eq_true.2 ⟨q, hq, beq_iff_eq.2 hname⟩)

theorem nodup_foldl_addMissing (h : (present.map Property.name).Nodup) :
    ((lists.foldl addMissing present).map Property.name).Nodup := by
  induction lists generalizing present with
  | nil => exact h
  | cons list lists ih => exact ih (nodup_addMissing h)

/-- Properties with different names stand in ascending order once they are sorted. -/
theorem pairwise_mergeSort {own : List Property} (h : (own.map Property.name).Nodup) :
    ((own.mergeSort fun a b => decide (a.name ≤ b.name)).map Property.name).Pairwise (· < ·) := by
  have hnodup : ((own.mergeSort fun a b => decide (a.name ≤ b.name)).map Property.name).Nodup :=
    ((List.mergeSort_perm own _).map Property.name).nodup_iff.2 h
  rw [List.Nodup, List.pairwise_map] at hnodup
  rw [List.pairwise_map]
  exact ((pairwise_mergeSort_name Property.name own).and hnodup).imp
    fun h => Std.lt_of_le_of_ne h.1 h.2

theorem pairwise_allProperties (builder : ModelBuilder) (key : TypeKey) :
    ((builder.allProperties key).map Property.name).Pairwise (· < ·) :=
  pairwise_mergeSort (nodup_foldl_addMissing List.nodup_nil)

/-- A name is there if a type in the chain declares it. -/
theorem mem_names_foldl_addMissing :
    name ∈ (lists.foldl addMissing []).map Property.name ↔
      ∃ list ∈ lists, name ∈ list.map Property.name := by
  constructor
  · intro h
    obtain ⟨p, hp, rfl⟩ := List.mem_map.1 h
    rcases mem_of_mem_foldl_addMissing hp with hmem | ⟨list, hlist, hmem⟩
    · cases hmem
    · exact ⟨list, hlist, List.mem_map_of_mem hmem⟩
  · rintro ⟨list, hlist, hname⟩
    obtain ⟨p, hp, rfl⟩ := List.mem_map.1 hname
    obtain ⟨front, back, rfl⟩ := List.append_of_mem hlist
    obtain ⟨q, hq, hsame⟩ : ∃ q ∈ addMissing (front.foldl addMissing []) list,
        q.name = p.name := exists_mem_addMissing hp
    rw [← hsame, List.foldl_append, List.foldl_cons]
    exact List.mem_map_of_mem (mem_foldl_addMissing_of_mem hq)

/-- A type has the names that the types of its chain declare. -/
theorem mem_names_allProperties {chain : List (TypeKey × RecordDraft)}
    (hchain : builder.resolver.Ancestry key chain) :
    name ∈ (builder.allProperties key).map Property.name ↔
      ∃ entry ∈ chain, name ∈ entry.2.properties.map PropertyDraft.name := by
  have hnames (entry : TypeKey × RecordDraft) :
      (entry.2.properties.map (builder.finishProperty entry.1)).map Property.name
        = entry.2.properties.map PropertyDraft.name := by
    rw [List.map_map]
    rfl
  unfold allProperties
  rw [lineage_eq hchain hchain.length_le,
    ((List.mergeSort_perm _ _).map Property.name).mem_iff, mem_names_foldl_addMissing]
  constructor
  · rintro ⟨list, hlist, hname⟩
    obtain ⟨entry, hentry, rfl⟩ := List.mem_map.1 hlist
    exact ⟨entry, hentry, hnames entry ▸ hname⟩
  · rintro ⟨entry, hentry, hname⟩
    exact ⟨_, List.mem_map_of_mem hentry, (hnames entry).symm ▸ hname⟩

/-! ## Finished models -/

/-- A record type of the model is a finished draft. -/
theorem exists_draft_of_complexType? (hbuild : builder.build = .ok model)
    (h : model.complexType? key = some type) :
    ∃ draft, builder.resolver.record? key = some draft ∧ type = builder.finishRecord key draft := by
  cases hdraft : builder.resolver.record? key with
  | some draft =>
      exact ⟨draft, rfl, Option.some.inj (h.symm.trans (complexType?_build hbuild hdraft))⟩
  | none =>
      have hkey := List.find?_some h
      have hmem := List.mem_of_find?_eq_some h
      rw [(build_eq_ok hbuild).1] at hmem
      obtain ⟨entry, hentry, rfl⟩ := List.mem_map.1 hmem
      obtain rfl : entry.1 = key := beq_iff_eq.1 hkey
      have hsome := Resolver.isSome_record?_of_mem hentry
      rw [hdraft] at hsome
      cases hsome

theorem ordered_of_build (hbuild : (afterCalls calls).build = .ok model) : model.Ordered := by
  constructor
  · intro key type htype
    obtain ⟨draft, -, rfl⟩ := exists_draft_of_complexType? hbuild htype
    exact pairwise_allProperties _ key
  · intro key type htype parent hparent base hbase name hname
    obtain ⟨draft, hdraft, rfl⟩ := exists_draft_of_complexType? hbuild htype
    obtain ⟨above, habove, rfl⟩ := exists_draft_of_complexType? hbuild hbase
    obtain ⟨chain, hchain⟩ := (sound_afterCalls calls).grounded parent
      (by rw [habove]; rfl)
    obtain ⟨entry, hentry, hmem⟩ := (mem_names_allProperties hchain).1 hname
    -- The chain of the base is the rest of the chain of the type.
    exact (mem_names_allProperties (.step hdraft hparent hchain)).2
      ⟨entry, List.mem_cons_of_mem _ hentry, hmem⟩
  · intro key type htype p hp hnavigable
    obtain ⟨draft, -, rfl⟩ := exists_draft_of_complexType? hbuild htype
    obtain ⟨k, other, -, d, -, rfl⟩ := exists_draft_of_mem hp
    rw [finishProperty, Option.any_eq_true] at hnavigable
    obtain ⟨next, hnext, -⟩ := hnavigable
    exact ⟨next, hnext⟩

end ModelBuilder

end EntityQuery
