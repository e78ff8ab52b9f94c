import EntityQuery.Proofs.Expression.Conforming
import EntityQuery.Proofs.Options.Selections

/-!
# What a projected record shows

A record is shown by some of its properties, followed by those that paths lead to.  The records in
it are shown by the properties of their own type, and again followed by what is left of the paths
there.  Nothing else of a navigable property is to be seen.

This holds of every record whose fields hold what their types say, at every depth, although the
types may refer to each other in circles: a path is of finite length, and records that are not
followed show no further ones of an entity set.
-/

namespace EntityQuery

/-- A value is null or built as its type says.  There may be gaps in a collection. -/
inductive Holds (model : Model) : EdmType → Value → Prop
  | null {type : EdmType} : Holds model type .null
  | primitive {kind : PrimitiveKind} {v : Value} (hkind : v.primitiveKind? = some kind) :
      Holds model (.primitive kind) v
  | enumeration (e : EnumValue) : Holds model (.enumeration e.type) (.enumeration e)
  | complex {key : TypeKey} {r : Record}
      (hfields : ∀ type, model.complexType? key = some type → ∀ p ∈ type.properties,
        Holds model p.type (r.field p.name)) : Holds model (.complex key) (.record r)
  | collection {element : EdmType} {items : List Value}
      (hitems : ∀ item ∈ items, Holds model element item) :
      Holds model (.collection element) (.collection items)

variable {model : Model} {key : TypeKey} {type : EdmType} {v : Value} {r : Record}
  {complexType : ComplexType} {chains : List (List Property)}

/-- A value that has a type may be held. -/
theorem HasType.holds (h : HasType model type v) : Holds model type v := by
  induction h with
  | primitive hkind => exact .primitive hkind
  | enumeration e => exact .enumeration e
  | @complex key r hfields ih =>
      refine .complex fun type htype p hp => ?_
      by_cases hnull : r.field p.name = .null
      · rw [hnull]
        exact .null
      · exact ih type htype p hp hnull
  | collection hitems ih => exact .collection ih

theorem Conforms.holds (h : Conforms model key r) : Holds model (.complex key) (.record r) :=
  (hasType_record_iff.2 h).holds

/-! ## Views -/

namespace Projection

/-- A value that is not a record, with enum values replaced by their names. -/
def named (model : Model) : EdmType → Value → Value
  | .enumeration key, .enumeration e => enumName model key e.value
  | .collection (.enumeration key), .collection items =>
    .collection (items.map (elementName model key))
  | _, v => v

end Projection

mutual

/-- A record shows the properties `own`, and then those that the paths begin with.  A navigable
property is only seen where a path begins with it. -/
inductive RecordView (model : Model) :
    ComplexType → List String → List (List String) → Record → ProjectedRecord → Prop
  | intro {type : ComplexType} {own : List String} {paths : List (List String)} {r : Record}
      {shown : ProjectedRecord}
      (hnames : shown.names = own ++ heads paths)
      (hnodup : shown.names.Nodup)
      (hknown : ∀ name ∈ shown.names, ∃ p ∈ type.properties, p.name = name)
      (hnavigable : ∀ p ∈ type.properties, p.navigable = true → p.name ∈ shown.names →
        p.name ∈ heads paths)
      (hvalues : ∀ field ∈ shown.fields, ∀ p ∈ type.properties, p.name = field.name →
        ValueView model (behind p.name paths) p.type (r.field p.name) field.content) :
      RecordView model type own paths r shown

/-- What is shown of the value of a property, if the paths lead on from it. -/
inductive ValueView (model : Model) :
    List (List String) → EdmType → Value → ProjectedValue → Prop
  | plain {paths : List (List String)} {type : EdmType} {v : Value}
      (htype : type.complexKey? = none) :
      ValueView model paths type v (.value (Projection.named model type v))
  | null {paths : List (List String)} {type : EdmType} :
      ValueView model paths type .null (.value .null)
  | record {paths : List (List String)} {key : TypeKey} {type : ComplexType} {r : Record}
      {shown : ProjectedRecord} (htype : model.complexType? key = some type)
      (hrecord : RecordView model type type.ownNames paths r shown) :
      ValueView model paths (.complex key) (.record r) (.record shown)
  | records {paths : List (List String)} {key : TypeKey} {type : ComplexType} {items : List Value}
      {shown : List ProjectedRecord} (htype : model.complexType? key = some type)
      (hitems : ItemsView model type paths items shown) :
      ValueView model paths (.collection (.complex key)) (.collection items) (.records shown)

/-- Records in a collection are shown one by one; gaps are not. -/
inductive ItemsView (model : Model) :
    ComplexType → List (List String) → List Value → List ProjectedRecord → Prop
  | nil {type : ComplexType} {paths : List (List String)} : ItemsView model type paths [] []
  | gap {type : ComplexType} {paths : List (List String)} {items : List Value}
      {shown : List ProjectedRecord} (hitems : ItemsView model type paths items shown) :
      ItemsView model type paths (.null :: items) shown
  | cons {type : ComplexType} {paths : List (List String)} {r : Record} {items : List Value}
      {first : ProjectedRecord} {shown : List ProjectedRecord}
      (hfirst : RecordView model type type.ownNames paths r first)
      (hitems : ItemsView model type paths items shown) :
      ItemsView model type paths (.record r :: items) (first :: shown)

end

/-! ## Values -/

/-- The records that a value is or has among its elements. -/
def Value.ownRecords : Value → List Record
  | .record r => [r]
  | .collection items => items.filterMap fun
    | .record r => some r
    | _ => none
  | _ => []

/-- A record is shown as one of a type, whatever is followed from it. -/
def Shows (model : Model) (key : TypeKey) (r : Record) : Prop :=
  ∀ chains, (∀ chain ∈ chains, Leads model key chain) →
    ∃ type shown, model.complexType? key = some type ∧
      Projection.record model key .default (ExpandItem.ofChains chains) r = .ok shown ∧
      RecordView model type type.ownNames (ExpandItem.namesOf chains) r shown

/-- The records in a value are shown as those of its type. -/
def ShowsRecords (model : Model) (type : EdmType) (v : Value) : Prop :=
  ∀ key, type.complexKey? = some key → ∀ r ∈ v.ownRecords, Shows model key r

theorem ShowsRecords.tail {item : Value} {items : List Value}
    (h : ShowsRecords model type (.collection (item :: items))) :
    ShowsRecords model type (.collection items) := by
  intro key hkey r hr
  obtain ⟨found, hfound, hrecord⟩ := List.mem_filterMap.1 hr
  exact h key hkey r (List.mem_filterMap.2 ⟨found, List.mem_cons_of_mem _ hfound, hrecord⟩)

theorem ShowsRecords.head {items : List Value}
    (h : ShowsRecords model (.collection (.complex key)) (.collection (.record r :: items))) :
    Shows model key r := h key rfl r List.mem_cons_self

namespace Projection

variable {items : List Value} {property : Property}

theorem ownRecords_view (htype : model.complexType? key = some complexType)
    (hitems : ∀ item ∈ items, Holds model (.complex key) item)
    (hshows : ShowsRecords model (.collection (.complex key)) (.collection items)) :
    ∃ shown, ownRecords model key items = .ok shown ∧
      ItemsView model complexType [] items shown := by
  induction items with
  | nil => exact ⟨[], rfl, .nil⟩
  | cons item items ih =>
      obtain ⟨hitem, hrest⟩ := List.forall_mem_cons.1 hitems
      obtain ⟨shown, hshown, hview⟩ := ih hrest hshows.tail
      cases hitem with
      | null => exact ⟨shown, hshown, .gap hview⟩
      | complex =>
          obtain ⟨type, first, htype', hfirst, hrecord⟩ := hshows.head [] (by simp)
          obtain rfl := Option.some.inj (htype.symm.trans htype')
          refine ⟨first :: shown, ?_, .cons hrecord hview⟩
          rw [ExpandItem.ofChains, List.foldl_nil] at hfirst
          rw [ownRecords, hfirst, hshown]
          rfl

theorem expandedRecords_view (htype : model.complexType? key = some complexType)
    (hitems : ∀ item ∈ items, Holds model (.complex key) item)
    (hshows : ShowsRecords model (.collection (.complex key)) (.collection items))
    (hleads : ∀ chain ∈ chains, Leads model key chain) :
    ∃ shown, expandedRecords model property key (ExpandItem.ofChains chains) items = .ok shown ∧
      ItemsView model complexType (ExpandItem.namesOf chains) items shown := by
  induction items with
  | nil => exact ⟨[], rfl, .nil⟩
  | cons item items ih =>
      obtain ⟨hitem, hrest⟩ := List.forall_mem_cons.1 hitems
      obtain ⟨shown, hshown, hview⟩ := ih hrest hshows.tail
      cases hitem with
      | null => exact ⟨shown, hshown, .gap hview⟩
      | complex =>
          obtain ⟨type, first, htype', hfirst, hrecord⟩ := hshows.head chains hleads
          obtain rfl := Option.some.inj (htype.symm.trans htype')
          refine ⟨first :: shown, ?_, .cons hrecord hview⟩
          rw [expandedRecords, hfirst, hshown]
          rfl

/-- What is not expanded shows what it holds. -/
theorem ownValue_view (hdescribes : model.Describes type) (h : Holds model type v)
    (hshows : ShowsRecords model type v) :
    ∃ content, ownValue model type v = .ok content ∧ ValueView model [] type v content := by
  cases h with
  | null => exact ⟨_, rfl, .null⟩
  | primitive hkind =>
      refine ⟨.value v, ?_, .plain rfl⟩
      cases v <;> rfl
  | enumeration e => exact ⟨_, rfl, .plain rfl⟩
  | @complex key r hfields =>
      obtain ⟨type, shown, htype, hshown, hrecord⟩ :=
        hshows key rfl r (List.mem_singleton_self r) [] (by simp)
      refine ⟨.record shown, ?_, .record htype hrecord⟩
      rw [ExpandItem.ofChains, List.foldl_nil] at hshown
      rw [ownValue, hshown]
      rfl
  | @collection element items hitems =>
      cases element with
      | complex key =>
          obtain ⟨type, htype⟩ := Option.isSome_iff_exists.1 hdescribes
          obtain ⟨shown, hshown, hview⟩ := ownRecords_view htype hitems hshows
          refine ⟨.records shown, ?_, .records htype hview⟩
          rw [ownValue, hshown]
          rfl
      | primitive kind => exact ⟨_, rfl, .plain rfl⟩
      | collection inner => exact ⟨_, rfl, .plain rfl⟩
      | enumeration key => exact ⟨_, rfl, .plain rfl⟩

/-- What is expanded shows the records in it, and what is followed from them. -/
theorem expandedValue_view (hkey : type.complexKey? = some key)
    (htype : model.complexType? key = some complexType) (h : Holds model type v)
    (hshows : ShowsRecords model type v) (hleads : ∀ chain ∈ chains, Leads model key chain) :
    ∃ content, expandedValue model property key (ExpandItem.ofChains chains) v = .ok content ∧
      ValueView model (ExpandItem.namesOf chains) type v content := by
  rcases EdmType.complexKey?_eq_some_iff.1 hkey with rfl | rfl
  · cases h with
    | null => exact ⟨_, rfl, .null⟩
    | @complex _ r hfields =>
        obtain ⟨type, shown, htype, hshown, hrecord⟩ :=
          hshows key rfl r (List.mem_singleton_self r) chains hleads
        refine ⟨.record shown, ?_, .record htype hrecord⟩
        rw [expandedValue, hshown]
        rfl
  · cases h with
    | null => exact ⟨_, rfl, .null⟩
    | collection hitems =>
        obtain ⟨shown, hshown, hview⟩ := expandedRecords_view htype hitems hshows hleads
        refine ⟨.records shown, ?_, .records htype hview⟩
        rw [expandedValue, hshown]
        rfl

/-! ## Records -/

/-- What is left of chains behind a property leads on from the type of that property. -/
theorem leads_through (hordered : model.Ordered) (htype : model.complexType? key = some complexType)
    (hleads : ∀ chain ∈ chains, Leads model key chain) (hp : property ∈ complexType.properties)
    {next : TypeKey} (hnext : property.type.complexKey? = some next) :
    ∀ rest ∈ ExpandItem.through property.name chains, Leads model next rest := by
  intro rest hrest
  obtain ⟨p, hname, hchain⟩ := ExpandItem.mem_through.1 hrest
  cases hleads _ hchain with
  | cons htype' hp' hnavigable hnext' hrest =>
      obtain rfl := Option.some.inj (htype.symm.trans htype')
      obtain rfl := hordered.eq_of_name htype hp' hp hname
      obtain rfl := Option.some.inj (hnext.symm.trans hnext')
      exact hrest

/-- Chains begin with navigable properties of the type. -/
theorem exists_of_mem_heads (htype : model.complexType? key = some complexType)
    (hleads : ∀ chain ∈ chains, Leads model key chain) {name : String}
    (hname : name ∈ heads (ExpandItem.namesOf chains)) :
    ∃ p ∈ complexType.properties, p.name = name ∧ p.navigable = true := by
  obtain ⟨path, hpath, hhead⟩ := mem_heads.1 hname
  obtain ⟨chain, hchain, rfl⟩ := List.mem_map.1 hpath
  cases hleads chain hchain with
  | nil => cases hhead
  | cons htype' hp hnavigable =>
      obtain rfl := Option.some.inj (htype.symm.trans htype')
      exact ⟨_, hp, Option.some.inj hhead, hnavigable⟩

/-- A property that is not navigable is not followed. -/
theorem not_mem_heads (hordered : model.Ordered)
    (htype : model.complexType? key = some complexType)
    (hleads : ∀ chain ∈ chains, Leads model key chain) {p : Property}
    (hp : p ∈ complexType.properties) (hnavigable : p.navigable = false) :
    p.name ∉ heads (ExpandItem.namesOf chains) := by
  intro hmem
  obtain ⟨q, hq, hname, hfollowed⟩ := exists_of_mem_heads htype hleads hmem
  rw [hordered.eq_of_name htype hq hp hname, hnavigable] at hfollowed
  cases hfollowed

/-- A record is read through its fields. -/
theorem record_eq (model : Model) (key : TypeKey) (selection : Selection)
    (expand : List ExpandItem) (r : Record) : record model key selection expand r = do
      let type ← model.complexType key
      let own ← (selected type selection).mapM fun p : Property =>
        (ownValue model p.type (r.field p.name)).map (ProjectedField.mk p.name)
      let expanded ← expand.mapM fun item => do
        let element ← expandedKey item.property
        let content ←
          expandedValue model item.property element item.children (r.field item.property.name)
        return ProjectedField.mk item.property.name content
      return .mk (own ++ expanded) := by
  cases r
  rw [record]
  rfl

/-- Fields that can all be made stand in a record one after the other. -/
theorem exists_fields {α : Type} {make : α → Except QueryError ProjectedField} {label : α → String}
    {P : α → ProjectedValue → Prop} {as : List α}
    (h : ∀ a ∈ as, ∃ content, make a = .ok (.mk (label a) content) ∧ P a content) :
    ∃ fields, as.mapM make = .ok fields ∧ fields.map ProjectedField.name = as.map label ∧
      ∀ field ∈ fields, ∃ a ∈ as, field.name = label a ∧ P a field.content := by
  induction as with
  | nil => exact ⟨[], rfl, rfl, by simp⟩
  | cons a as ih =>
      obtain ⟨⟨content, hmake, hfirst⟩, hrest⟩ := List.forall_mem_cons.1 h
      obtain ⟨fields, hfields, hnames, hall⟩ := ih hrest
      refine ⟨.mk (label a) content :: fields, mapM_cons_eq_ok.2 ⟨_, _, hmake, hfields, rfl⟩, ?_,
        List.forall_mem_cons.2 ⟨⟨a, List.mem_cons_self, rfl, hfirst⟩, fun field hfield => ?_⟩⟩
      · rw [List.map_cons, List.map_cons, hnames, ProjectedField.name]
      · obtain ⟨b, hb, hfield⟩ := hall field hfield
        exact ⟨b, List.mem_cons_of_mem _ hb, hfield⟩

/-- The fields of properties that are not expanded. -/
theorem exists_ownFields {own : List Property}
    (hown : ∀ p ∈ own, model.Describes p.type ∧ Holds model p.type (r.field p.name) ∧
      ShowsRecords model p.type (r.field p.name)) :
    ∃ fields, (own.mapM fun p : Property => (ownValue model p.type (r.field p.name)).map
        (ProjectedField.mk p.name)) = .ok fields ∧
      fields.map ProjectedField.name = own.map Property.name ∧
      ∀ field ∈ fields, ∃ p ∈ own, field.name = p.name ∧
        ValueView model [] p.type (r.field p.name) field.content := by
  refine exists_fields fun p hp => ?_
  obtain ⟨hdescribes, hholds, hshows⟩ := hown p hp
  obtain ⟨content, hcontent, hview⟩ := ownValue_view hdescribes hholds hshows
  exact ⟨content, map_eq_ok.2 ⟨content, hcontent, rfl⟩, hview⟩

/-- The property of an item is the first of a chain, and its children are what is left behind it. -/
theorem exists_expandedField {item : ExpandItem} (hordered : model.Ordered)
    (hclosed : model.Closed) (htype : model.complexType? key = some complexType)
    (hfields : ∀ p ∈ complexType.properties,
      Holds model p.type (r.field p.name) ∧ ShowsRecords model p.type (r.field p.name))
    (hleads : ∀ chain ∈ chains, Leads model key chain) (hitem : item ∈ ExpandItem.ofChains chains) :
    ∃ content, (do
      let element ← expandedKey item.property
      let content ←
        expandedValue model item.property element item.children (r.field item.property.name)
      return ProjectedField.mk item.property.name content : Except QueryError ProjectedField)
        = .ok (.mk item.name content) ∧ item.property ∈ complexType.properties ∧
      ValueView model (behind item.name (ExpandItem.namesOf chains)) item.property.type
        (r.field item.property.name) content := by
  obtain ⟨hchildren, chain, hchain, hhead⟩ := (ExpandItem.ofChains_spec chains).2 item hitem
  obtain ⟨rest, rfl⟩ := List.head?_eq_some_iff.1 hhead
  cases hleads _ hchain with
  | @cons _ next type p rest htype' hp hnavigable hnext hrest =>
      obtain rfl := Option.some.inj (htype.symm.trans htype')
      obtain ⟨hholds, hshows⟩ := hfields _ hp
      have hknown := hclosed.properties complexType (List.mem_of_find?_eq_some htype) _ hp
      obtain ⟨nextType, hnextType⟩ : ∃ type, model.complexType? next = some type := by
        rcases EdmType.complexKey?_eq_some_iff.1 hnext with heq | heq <;> rw [heq] at hknown <;>
          exact Option.isSome_iff_exists.1 hknown
      obtain ⟨content, hcontent, hview⟩ : ∃ content, expandedValue model item.property next
          item.children (r.field item.property.name) = .ok content ∧
          ValueView model (behind item.name (ExpandItem.namesOf chains)) item.property.type
            (r.field item.property.name) content := by
        rw [hchildren, ← ExpandItem.namesOf_through]
        exact expandedValue_view hnext hnextType hholds hshows
          (leads_through hordered htype hleads hp hnext)
      refine ⟨content, ?_, hp, hview⟩
      rw [expandedKey, hnext, ok_bind, hcontent]
      rfl

/-- The fields of properties that are. -/
theorem exists_expandedFields (hordered : model.Ordered) (hclosed : model.Closed)
    (htype : model.complexType? key = some complexType)
    (hfields : ∀ p ∈ complexType.properties,
      Holds model p.type (r.field p.name) ∧ ShowsRecords model p.type (r.field p.name))
    (hleads : ∀ chain ∈ chains, Leads model key chain) :
    ∃ fields, ((ExpandItem.ofChains chains).mapM fun item => do
        let element ← expandedKey item.property
        let content ←
          expandedValue model item.property element item.children (r.field item.property.name)
        return ProjectedField.mk item.property.name content) = .ok fields ∧
      fields.map ProjectedField.name = heads (ExpandItem.namesOf chains) ∧
      ∀ field ∈ fields, ∃ p ∈ complexType.properties, field.name = p.name ∧
        ValueView model (behind p.name (ExpandItem.namesOf chains)) p.type (r.field p.name)
          field.content := by
  obtain ⟨fields, hmade, hlabels, hall⟩ :=
    exists_fields fun item => exists_expandedField hordered hclosed htype hfields hleads
  refine ⟨fields, hmade, hlabels.trans (ExpandItem.ofChains_spec chains).1, fun field hfield => ?_⟩
  obtain ⟨item, -, hname, hp, hview⟩ := hall field hfield
  exact ⟨item.property, hp, hname, hview⟩

/-- Fields of properties that are not followed and of those that are make a view together. -/
theorem recordView_append {own expanded : List ProjectedField} {properties : List Property}
    (hordered : model.Ordered) (htype : model.complexType? key = some complexType)
    (hnodup : (properties.map Property.name).Nodup)
    (hproperties : ∀ p ∈ properties, p ∈ complexType.properties ∧ p.navigable = false)
    (hleads : ∀ chain ∈ chains, Leads model key chain)
    (hown : own.map ProjectedField.name = properties.map Property.name)
    (hownView : ∀ field ∈ own, ∃ p ∈ properties, field.name = p.name ∧
      ValueView model [] p.type (r.field p.name) field.content)
    (hexpanded : expanded.map ProjectedField.name = heads (ExpandItem.namesOf chains))
    (hexpandedView : ∀ field ∈ expanded, ∃ p ∈ complexType.properties, field.name = p.name ∧
      ValueView model (behind p.name (ExpandItem.namesOf chains)) p.type (r.field p.name)
        field.content) :
    RecordView model complexType (properties.map Property.name) (ExpandItem.namesOf chains) r
      (.mk (own ++ expanded)) := by
  have hnames : (ProjectedRecord.mk (own ++ expanded)).names =
      properties.map Property.name ++ heads (ExpandItem.namesOf chains) := by
    rw [ProjectedRecord.names, ProjectedRecord.fields, List.map_append, hown, hexpanded]
  have hunfollowed : ∀ q ∈ properties, q.name ∉ heads (ExpandItem.namesOf chains) := fun q hq =>
    not_mem_heads hordered htype hleads (hproperties q hq).1 (hproperties q hq).2
  refine .intro hnames ?_ ?_ ?_ ?_
  · rw [hnames]
    refine hnodup.append (nodup_heads _) fun name hselected hfollowed => ?_
    obtain ⟨p, hp, rfl⟩ := List.mem_map.1 hselected
    exact hunfollowed p hp hfollowed
  · intro name hname
    rw [hnames] at hname
    rcases List.mem_append.1 hname with hmem | hmem
    · obtain ⟨p, hp, rfl⟩ := List.mem_map.1 hmem
      exact ⟨p, (hproperties p hp).1, rfl⟩
    · obtain ⟨p, hp, hname, -⟩ := exists_of_mem_heads htype hleads hmem
      exact ⟨p, hp, hname⟩
  · intro p hp hnavigable hname
    rw [hnames] at hname
    refine (List.mem_append.1 hname).resolve_left fun hmem => ?_
    obtain ⟨q, hq, hsame⟩ := List.mem_map.1 hmem
    obtain ⟨hmem, hnot⟩ := hproperties q hq
    rw [hordered.eq_of_name htype hmem hp hsame, hnavigable] at hnot
    cases hnot
  · intro field hfield p hp hname
    rcases List.mem_append.1 hfield with hmem | hmem
    · obtain ⟨q, hq, hlabel, hview⟩ := hownView field hmem
      obtain rfl := hordered.eq_of_name htype hp (hproperties q hq).1 (hname.trans hlabel)
      rw [behind_eq_nil (hunfollowed p hq)]
      exact hview
    · obtain ⟨q, hq, hlabel, hview⟩ := hexpandedView field hmem
      obtain rfl := hordered.eq_of_name htype hp hq (hname.trans hlabel)
      exact hview

/-- A record is projected if the records in its fields are. -/
theorem record_view (hordered : model.Ordered) (hclosed : model.Closed) {selection : Selection}
    (htype : model.complexType? key = some complexType)
    (hnodup : ((selected complexType selection).map Property.name).Nodup)
    (hown : ∀ p ∈ selected complexType selection,
      p ∈ complexType.properties ∧ p.navigable = false)
    (hfields : ∀ p ∈ complexType.properties,
      Holds model p.type (r.field p.name) ∧ ShowsRecords model p.type (r.field p.name))
    (hleads : ∀ chain ∈ chains, Leads model key chain) :
    ∃ shown, record model key selection (ExpandItem.ofChains chains) r = .ok shown ∧
      RecordView model complexType ((selected complexType selection).map Property.name)
        (ExpandItem.namesOf chains) r shown := by
  have hdescribes := hclosed.properties complexType (List.mem_of_find?_eq_some htype)
  have hready : ∀ p ∈ selected complexType selection, model.Describes p.type ∧
      Holds model p.type (r.field p.name) ∧ ShowsRecords model p.type (r.field p.name) :=
    fun p hp => ⟨hdescribes p (hown p hp).1, hfields p (hown p hp).1⟩
  obtain ⟨own, hownMade, hownNames, hownView⟩ := exists_ownFields hready
  obtain ⟨expanded, hexpanded, hexpandedNames, hexpandedView⟩ :=
    exists_expandedFields hordered hclosed htype hfields hleads
  refine ⟨.mk (own ++ expanded), ?_, recordView_append hordered htype hnodup hown hleads hownNames
    hownView hexpandedNames hexpandedView⟩
  rw [record_eq, Model.complexType, htype, ok_bind, hownMade, ok_bind, hexpanded]
  rfl

theorem nodup_ownNames (hordered : model.Ordered)
    (htype : model.complexType? key = some complexType) : complexType.ownNames.Nodup :=
  (hordered.nodup htype).sublist (List.filter_sublist.map Property.name)

theorem nodup_selectedNames (hordered : model.Ordered)
    (htype : model.complexType? key = some complexType) (select : Option String) :
    (complexType.selectedNames select).Nodup := by
  unfold ComplexType.selectedNames
  split
  · exact nodup_ownNames hordered htype
  · split
    · exact nodup_ownNames hordered htype
    · exact (nodup_eraseDups _).filter _

/-- The records in what is held are shown as those of their type. -/
theorem showsRecords_of_holds (hordered : model.Ordered) (hclosed : model.Closed)
    (hdescribes : model.Describes type) (h : Holds model type v) : ShowsRecords model type v := by
  induction h with
  | null => exact fun _ _ r hr => absurd hr List.not_mem_nil
  | primitive => exact fun _ hkey => nomatch hkey
  | enumeration => exact fun _ hkey => nomatch hkey
  | @complex key r hfields ih =>
      intro k hkey s hs chains hleads
      obtain rfl := Option.some.inj hkey
      obtain rfl := List.mem_singleton.1 hs
      obtain ⟨complexType, htype⟩ := Option.isSome_iff_exists.1 hdescribes
      have hknown := hclosed.properties complexType (List.mem_of_find?_eq_some htype)
      obtain ⟨hnames, hown⟩ : (selected complexType .default).map Property.name
          = complexType.ownNames ∧ ∀ p ∈ selected complexType .default,
            p ∈ complexType.properties ∧ p.navigable = false := Shape.selected_all (.inl rfl)
      obtain ⟨shown, hshown, hview⟩ := record_view hordered hclosed htype
        (hnames ▸ nodup_ownNames hordered htype) hown
        (fun p hp => ⟨hfields complexType htype p hp, ih complexType htype p hp (hknown p hp)⟩)
        hleads
      exact ⟨complexType, shown, htype, hshown, hnames ▸ hview⟩
  | @collection element items hitems ih =>
      intro k hkey s hs
      obtain rfl : element = .complex k := by
        rcases EdmType.complexKey?_eq_some_iff.1 hkey with heq | heq
        · cases heq
        · exact EdmType.collection.inj heq
      obtain ⟨item, hmem, hitem⟩ := List.mem_filterMap.1 hs
      cases item with
      | record r =>
          obtain rfl := Option.some.inj hitem
          exact ih _ hmem hdescribes k rfl _ (List.mem_singleton_self _)
      | _ => cases hitem

/-- A record is projected to what an accepted shape asks for. -/
theorem shaped_view (hordered : model.Ordered) (hclosed : model.Closed) {raw : RawOptions}
    {shape : Shape} (htype : model.complexType? key = some complexType)
    (hshape : Shape.parse model key raw = .ok shape)
    (hrecord : Holds model (.complex key) (.record r)) :
    ∃ shown, shaped model key shape r = .ok shown ∧
      RecordView model complexType (complexType.selectedNames (raw.value? .select))
        (shape.expand.map PropertyPath.names) r shown := by
  have hasks := Shape.asks_of_parse hordered htype hshape
  have hknown := hclosed.properties complexType (List.mem_of_find?_eq_some htype)
  have hnames : shape.expand.map PropertyPath.names =
      ExpandItem.namesOf (shape.expand.map PropertyPath.segments) := by
    rw [ExpandItem.namesOf, List.map_map]
    rfl
  have hleads : ∀ chain ∈ shape.expand.map PropertyPath.segments, Leads model key chain := by
    intro chain hchain
    obtain ⟨path, hpath, rfl⟩ := List.mem_map.1 hchain
    exact hasks.leads path hpath
  rw [shaped, Shape.items, ExpandItem.tree_eq_ofChains, ← hasks.selected, hnames]
  cases hrecord with
  | complex hfields =>
      refine record_view hordered hclosed htype ?_ hasks.own (fun p hp => ?_) hleads
      · rw [hasks.selected]
        exact nodup_selectedNames hordered htype _
      · have hfield := hfields complexType htype p hp
        exact ⟨hfield, showsRecords_of_holds hordered hclosed (hknown p hp) hfield⟩

end Projection

/-! ## Paths that ask for the same -/

section SamePaths

variable {own : List String} {paths others : List (List String)} {content : ProjectedValue}
  {shown : ProjectedRecord}

/-- Where no path leads on, it does not matter which paths end. -/
theorem RecordView.of_ends (hpaths : heads paths = []) (hothers : heads others = [])
    (h : RecordView model complexType own paths r shown) :
    RecordView model complexType own others r shown := by
  have hbehind (name : String) : behind name paths = behind name others := by
    rw [behind_eq_nil (hpaths ▸ List.not_mem_nil), behind_eq_nil (hothers ▸ List.not_mem_nil)]
  cases h with
  | intro hnames hnodup hknown hnavigable hvalues =>
      rw [hpaths, ← hothers] at hnames hnavigable
      exact .intro hnames hnodup hknown hnavigable fun field hfield p hp hname =>
        hbehind p.name ▸ hvalues field hfield p hp hname

theorem ItemsView.of_ends {items : List Value} {list : List ProjectedRecord}
    (hpaths : heads paths = []) (hothers : heads others = []) :
    ItemsView model complexType paths items list → ItemsView model complexType others items list
  | .nil => .nil
  | .gap hitems => .gap (hitems.of_ends hpaths hothers)
  | .cons hfirst hitems =>
    .cons (hfirst.of_ends hpaths hothers) (hitems.of_ends hpaths hothers)

theorem ValueView.of_ends (hpaths : heads paths = []) (hothers : heads others = [])
    (h : ValueView model paths type v content) : ValueView model others type v content := by
  cases h with
  | plain htype => exact .plain htype
  | null => exact .null
  | record htype hrecord => exact .record htype (hrecord.of_ends hpaths hothers)
  | records htype hitems => exact .records htype (hitems.of_ends hpaths hothers)

/-- Paths that begin with the same names, of which none leads further, show the same. -/
theorem RecordView.of_heads (hheads : heads paths = heads others)
    (hpaths : ∀ path ∈ paths, path.tail = []) (hothers : ∀ path ∈ others, path.tail = [])
    (h : RecordView model complexType own paths r shown) :
    RecordView model complexType own others r shown := by
  cases h with
  | intro hnames hnodup hknown hnavigable hvalues =>
      rw [hheads] at hnames hnavigable
      exact .intro hnames hnodup hknown hnavigable fun field hfield p hp hname =>
        (hvalues field hfield p hp hname).of_ends (heads_behind_eq_nil hpaths p.name)
          (heads_behind_eq_nil hothers p.name)

/-- What an accepted shape shows is what `$expand` asks for, if its star covers the items beside
it. -/
theorem RecordView.of_starCovers {raw : RawOptions} {shape : Shape} (hordered : model.Ordered)
    (htype : model.complexType? key = some complexType)
    (hshape : Shape.parse model key raw = .ok shape)
    (hcovers : complexType.StarCovers (raw.value? .expand))
    (h : RecordView model complexType own (shape.expand.map PropertyPath.names) r shown) :
    RecordView model complexType own (complexType.expandedPaths (raw.value? .expand)) r shown := by
  rcases Shape.names_of_parse hordered htype hshape with hnames | ⟨value, hvalue, hstar, hnames⟩
  · rwa [hnames] at h
  · obtain ⟨hheads, htails⟩ := hcovers value hvalue hstar
    rw [hnames] at h
    refine h.of_heads ?_ (by simp) htails
    rw [hheads, heads_singles (hheads ▸ nodup_heads _)]

end SamePaths

end EntityQuery
