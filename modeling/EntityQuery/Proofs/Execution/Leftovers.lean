import EntityQuery.Proofs.Execution.Answers
import EntityQuery.Proofs.Execution.Views
import EntityQuery.Proofs.Expression.Reading
import EntityQuery.Proofs.Options.Moves

/-!
# Records that are left as they are

Output has no form for a record that was not projected, so a projected record can be written exactly
if no such record is left in it.  Projecting looks into records, and into collections of records,
but not into the collections in a collection.  The records in those are the only ones that are left.
-/

namespace EntityQuery

/-! ## What is left -/

namespace Value

mutual

/-- The records in a value, at any depth of collections. -/
def recordsWithin : Value → List Record
  | .record r => [r]
  | .collection items => recordsWithinAll items
  | _ => []

/-- The records in the elements of a collection. -/
def recordsWithinAll : List Value → List Record
  | [] => []
  | item :: items => recordsWithin item ++ recordsWithinAll items

end

end Value

mutual

/-- The records that are left in the value of a field, each with the name of the field it is in. -/
def ProjectedValue.leftovers (name : String) : ProjectedValue → List (String × Record)
  | .value content => content.recordsWithin.map fun r => (name, r)
  | .record content => content.leftovers
  | .records items => ProjectedRecord.leftoversAll items

/-- The records that are left in a projected record. -/
def ProjectedRecord.leftovers : ProjectedRecord → List (String × Record)
  | .mk fields => ProjectedField.leftoversAll fields

/-- The records that are left in projected records. -/
def ProjectedRecord.leftoversAll : List ProjectedRecord → List (String × Record)
  | [] => []
  | record :: records => record.leftovers ++ ProjectedRecord.leftoversAll records

/-- The records that are left in a projected field. -/
def ProjectedField.leftovers : ProjectedField → List (String × Record)
  | .mk name content => content.leftovers name

/-- The records that are left in projected fields. -/
def ProjectedField.leftoversAll : List ProjectedField → List (String × Record)
  | [] => []
  | field :: fields => field.leftovers ++ ProjectedField.leftoversAll fields

end

/-! ## What can be written -/

mutual

/-- A value can be written if there is no record in it. -/
theorem Value.exists_toJson_iff :
    (v : Value) → ((∃ json, v.toJson = .ok json) ↔ v.recordsWithin = [])
  | .record r => by simp [toJson, recordsWithin]
  | .collection items => by
      rw [recordsWithin, ← exists_toJsonAll_iff items, toJson]
      exact exists_bind_pure_eq_ok
  | .null | .boolean _ | .byte _ | .sbyte _ | .int16 _ | .int32 _ | .int64 _ | .single _
  | .double _ | .decimal _ | .string _ | .binary _ | .date _ | .dateTimeOffset _ | .timeOfDay _
  | .duration _ | .guid _ | .enumeration _ => by simp [toJson, recordsWithin]

theorem Value.exists_toJsonAll_iff : (items : List Value) →
    ((∃ json, toJsonAll items = .ok json) ↔ recordsWithinAll items = [])
  | [] => by simp [toJsonAll, recordsWithinAll]
  | item :: items => by
      rw [recordsWithinAll, List.append_eq_nil_iff, ← exists_toJson_iff item,
        ← exists_toJsonAll_iff items, toJsonAll]
      exact exists_bind_bind_pure_eq_ok

end

mutual

theorem ProjectedValue.exists_toJson_iff (name : String) : (content : ProjectedValue) →
    ((∃ json, content.toJson = .ok json) ↔ content.leftovers name = [])
  | .value content => by
      rw [ProjectedValue.toJson, ProjectedValue.leftovers, List.map_eq_nil_iff,
        Value.exists_toJson_iff]
  | .record content => by
      rw [ProjectedValue.toJson, ProjectedValue.leftovers,
        ProjectedRecord.exists_toJson_iff content]
  | .records items => by
      rw [ProjectedValue.toJson, ProjectedValue.leftovers,
        ← ProjectedRecord.exists_toJsonAll_iff items]
      exact exists_bind_pure_eq_ok

/-- A projected record can be written if no record is left in it. -/
theorem ProjectedRecord.exists_toJson_iff : (record : ProjectedRecord) →
    ((∃ json, record.toJson = .ok json) ↔ record.leftovers = [])
  | .mk fields => by
      rw [ProjectedRecord.toJson, ProjectedRecord.leftovers,
        ← ProjectedField.exists_toJsonAll_iff fields]
      exact exists_bind_pure_eq_ok

theorem ProjectedRecord.exists_toJsonAll_iff : (records : List ProjectedRecord) →
    ((∃ json, ProjectedRecord.toJsonAll records = .ok json) ↔
      ProjectedRecord.leftoversAll records = [])
  | [] => by simp [ProjectedRecord.toJsonAll, ProjectedRecord.leftoversAll]
  | record :: records => by
      rw [ProjectedRecord.leftoversAll, List.append_eq_nil_iff,
        ← ProjectedRecord.exists_toJson_iff record, ← ProjectedRecord.exists_toJsonAll_iff records,
        ProjectedRecord.toJsonAll]
      exact exists_bind_bind_pure_eq_ok

theorem ProjectedField.exists_toJson_iff : (field : ProjectedField) →
    ((∃ json, field.toJson = .ok json) ↔ field.leftovers = [])
  | .mk name content => by
      rw [ProjectedField.toJson, ProjectedField.leftovers,
        ← ProjectedValue.exists_toJson_iff name content]
      exact exists_bind_pure_eq_ok

theorem ProjectedField.exists_toJsonAll_iff : (fields : List ProjectedField) →
    ((∃ json, ProjectedField.toJsonAll fields = .ok json) ↔
      ProjectedField.leftoversAll fields = [])
  | [] => by simp [ProjectedField.toJsonAll, ProjectedField.leftoversAll]
  | field :: fields => by
      rw [ProjectedField.leftoversAll, List.append_eq_nil_iff,
        ← ProjectedField.exists_toJson_iff field, ← ProjectedField.exists_toJsonAll_iff fields,
        ProjectedField.toJsonAll]
      exact exists_bind_bind_pure_eq_ok

end

/-! ## Where something is left -/

/-- A property of this name is a collection of collections. -/
def Model.Nests (model : Model) (name : String) : Prop :=
  ∃ type ∈ model.complexTypes, ∃ p ∈ type.properties, p.name = name ∧
    ∃ inner, p.type = .collection (.collection inner)

theorem ProjectedField.mem_leftoversAll {entry : String × Record} {fields : List ProjectedField} :
    entry ∈ ProjectedField.leftoversAll fields ↔
      ∃ field ∈ fields, entry ∈ field.content.leftovers field.name := by
  induction fields with
  | nil => simp [leftoversAll]
  | cons field fields ih =>
      have hfield : field.leftovers = field.content.leftovers field.name := by
        cases field
        rfl
      simp only [leftoversAll, List.mem_append, ih, hfield, List.mem_cons, exists_eq_or_imp]

theorem ProjectedRecord.leftovers_eq (record : ProjectedRecord) :
    record.leftovers = ProjectedField.leftoversAll record.fields := by
  cases record
  rfl

theorem Value.recordsWithinAll_eq_nil {items : List Value}
    (h : ∀ item ∈ items, item.recordsWithin = []) : recordsWithinAll items = [] := by
  induction items with
  | nil => rfl
  | cons item items ih =>
      obtain ⟨hfirst, hrest⟩ := List.forall_mem_cons.1 h
      rw [recordsWithinAll, hfirst, ih hrest, List.nil_append]

theorem recordsWithin_enumName (model : Model) (key : TypeKey) (value : Int64) :
    (Projection.enumName model key value).recordsWithin = [] := by
  unfold Projection.enumName
  split <;> rfl

/-- A scalar is no record. -/
theorem recordsWithin_of_primitive {model : Model} {kind : PrimitiveKind} {v : Value}
    (h : Holds model (.primitive kind) v) : v.recordsWithin = [] := by
  cases h with
  | null => rfl
  | primitive hkind =>
      cases v with
      | record r => cases hkind
      | collection items => cases hkind
      | _ => rfl

/-- There are no records in what is shown of a value that records have no part in. -/
theorem recordsWithin_named {model : Model} {type : EdmType} {v : Value} (h : Holds model type v)
    (hsimple : type.complexKey? = none) (hflat : ∀ inner, type ≠ .collection (.collection inner)) :
    (Projection.named model type v).recordsWithin = [] := by
  cases h with
  | null =>
      have hnull : Projection.named model type .null = .null := by
        unfold Projection.named
        split <;> trivial
      rw [hnull]
      rfl
  | primitive hkind =>
      have hheld : Holds model (.primitive _) v := .primitive hkind
      exact recordsWithin_of_primitive hheld
  | enumeration e => exact recordsWithin_enumName model e.type e.value
  | complex hfields => cases hsimple
  | @collection element items hitems =>
      cases element with
      | primitive kind =>
          exact Value.recordsWithinAll_eq_nil fun item hitem =>
            recordsWithin_of_primitive (hitems item hitem)
      | enumeration key =>
          refine Value.recordsWithinAll_eq_nil fun shown hshown => ?_
          obtain ⟨item, hitem, rfl⟩ := List.mem_map.1 hshown
          cases hitems item hitem with
          | null => rfl
          | enumeration e => exact recordsWithin_enumName model e.type e.value
      | complex key => cases hsimple
      | collection inner => exact absurd rfl (hflat inner)

section

variable {model : Model}

mutual

/-- Only in a collection of collections is a record left. -/
theorem RecordView.nests_of_mem_leftovers {key : TypeKey} {complexType : ComplexType}
    {own : List String} {paths : List (List String)} {r : Record} {shown : ProjectedRecord}
    (h : RecordView model complexType own paths r shown)
    (hknown : model.complexType? key = some complexType)
    (hfields : ∀ p ∈ complexType.properties, Holds model p.type (r.field p.name)) :
    ∀ entry ∈ shown.leftovers, model.Nests entry.1 :=
  match h with
  | .intro hnames hnodup hshown hnavigable hvalues => by
    intro entry hentry
    rw [ProjectedRecord.leftovers_eq] at hentry
    obtain ⟨field, hfield, hentry⟩ := ProjectedField.mem_leftoversAll.1 hentry
    obtain ⟨p, hp, hname⟩ := hshown field.name (List.mem_map_of_mem hfield)
    exact (hvalues field hfield p hp hname).nests_of_mem_leftovers hknown hp rfl (hfields p hp)
      entry
      (hname ▸ hentry)

theorem ValueView.nests_of_mem_leftovers {key : TypeKey} {complexType : ComplexType} {p : Property}
    {paths : List (List String)} {type : EdmType} {v : Value} {content : ProjectedValue}
    (h : ValueView model paths type v content)
    (hknown : model.complexType? key = some complexType) (hp : p ∈ complexType.properties)
    (htype : p.type = type) (hholds : Holds model type v) :
    ∀ entry ∈ content.leftovers p.name, model.Nests entry.1 :=
  match h with
  | .plain hsimple => by
    intro entry hentry
    obtain ⟨r, hr, rfl⟩ := List.mem_map.1 hentry
    by_contra hnests
    have hflat : ∀ inner, type ≠ .collection (.collection inner) := fun inner heq =>
      hnests ⟨complexType, List.mem_of_find?_eq_some hknown, p, hp, rfl, inner, htype.trans heq⟩
    rw [recordsWithin_named hholds hsimple hflat] at hr
    cases hr
  | .null => by
    intro entry hentry
    cases hentry
  | .record hnext hrecord => by
    cases hholds with
    | complex hfields => exact hrecord.nests_of_mem_leftovers hnext (hfields _ hnext)
  | .records hnext hitems => by
    cases hholds with
    | collection hall => exact hitems.nests_of_mem_leftovers hnext hall

theorem ItemsView.nests_of_mem_leftovers {key : TypeKey} {complexType : ComplexType}
    {paths : List (List String)} {items : List Value} {list : List ProjectedRecord}
    (h : ItemsView model complexType paths items list)
    (hknown : model.complexType? key = some complexType)
    (hall : ∀ item ∈ items, Holds model (.complex key) item) :
    ∀ entry ∈ ProjectedRecord.leftoversAll list, model.Nests entry.1 :=
  match h with
  | .nil => by
    intro entry hentry
    cases hentry
  | .gap hitems => hitems.nests_of_mem_leftovers hknown fun item hitem =>
      hall item (List.mem_cons_of_mem _ hitem)
  | .cons hfirst hitems => by
    obtain ⟨hhead, htail⟩ := List.forall_mem_cons.1 hall
    intro entry hentry
    cases hhead with
    | complex hfields =>
        rcases List.mem_append.1 hentry with hmem | hmem
        · exact hfirst.nests_of_mem_leftovers hknown (hfields _ hknown) entry hmem
        · exact hitems.nests_of_mem_leftovers hknown htail entry hmem

end

end

/-! ## Answers -/

namespace Projection

/-- In an accepted shape a record shows the selected properties and the paths of the shape at every
depth, and if no property is a collection of collections, no record is left in it.  The paths are
the ones that `$expand` asks for unless it has a star that does not cover the items beside it. -/
theorem shaped_shows {calls : List ModelBuilder.Call} {model : Model} {key : TypeKey}
    {type : ComplexType} {raw : RawOptions} {shape : Shape} {r : Record}
    (hbuild : (ModelBuilder.afterCalls calls).build = .ok model)
    (hflat : ∀ name, ¬ model.Nests name) (htype : model.complexType? key = some type)
    (hshape : Shape.parse model key raw = .ok shape)
    (hrecord : Holds model (.complex key) (.record r)) :
    model.Ordered ∧ ∃ shown, shaped model key shape r = .ok shown ∧ shown.leftovers = [] ∧
      RecordView model type (type.selectedNames (raw.value? .select))
        (shape.expand.map PropertyPath.names) r shown ∧
      (type.StarCovers (raw.value? .expand) →
        RecordView model type (type.selectedNames (raw.value? .select))
          (type.expandedPaths (raw.value? .expand)) r shown) := by
  have hordered := ModelBuilder.ordered_of_build hbuild
  obtain ⟨shown, hshown, hview⟩ := shaped_view hordered (ModelBuilder.closed_of_build hbuild) htype
    hshape hrecord
  refine ⟨hordered, shown, hshown, List.eq_nil_iff_forall_not_mem.2 fun entry hentry => ?_, hview,
    fun hcovers => hview.of_starCovers hordered htype hshape hcovers⟩
  cases hrecord with
  | complex hfields =>
      exact hflat _ (hview.nests_of_mem_leftovers htype (hfields type htype) entry hentry)

end Projection

namespace Sample

/-- A node with a leaf below it and a gap beside the leaf. -/
def root : Record :=
  .ofFields 1 nodeKey "root" [("Id", .int32 0), ("Kids", .collection [.record leaf, .null])]

theorem holds_root : Holds treeModel (.complex nodeKey) (.record root) := by
  refine .complex fun type htype p hp => ?_
  obtain rfl : nodeType = type := Option.some.inj htype
  rcases List.mem_pair.1 hp with rfl | rfl
  · exact .primitive rfl
  · refine .collection fun item hitem => ?_
    rcases List.mem_pair.1 hitem with rfl | rfl
    · exact leaf_conforms.holds
    · exact .null

/-- `$select=Id&$expand=Kids/Kids` -/
def kidsOptions : RawOptions := ⟨[(.select, "$select=Id"), (.expand, "$expand=Kids/Kids")]⟩

/-- `$select=Id&$expand=*,Kids/Kids` -/
def starOptions : RawOptions := ⟨[(.select, "$select=Id"), (.expand, "$expand=*,Kids/Kids")]⟩

theorem not_nests_tree (name : String) : ¬ treeModel.Nests name := by
  rintro ⟨type, htype, p, hp, -, inner, hinner⟩
  obtain rfl := List.mem_singleton.1 htype
  rcases List.mem_pair.1 hp with rfl | rfl
  · cases hinner
  · cases hinner

end Sample

open Sample in
/-- A node shows its number and the nodes below it, and those the nodes below them. -/
theorem Projection.shaped_shows_tree :
    RawOptions.parse "$select=Id&$expand=Kids/Kids" = .ok kidsOptions ∧
      treeModel.Ordered ∧ ∃ shape shown, Shape.parse treeModel nodeKey kidsOptions = .ok shape ∧
        Projection.shaped treeModel nodeKey shape root = .ok shown ∧ shown.leftovers = [] ∧
        RecordView treeModel nodeType ["Id"] [["Kids", "Kids"]] root shown := by
  have hbuild : (ModelBuilder.afterCalls
      [.register treeGraph "Nodes" (.named nodeKey) (some "Id") .none]).build = .ok treeModel := by
    have hafter : ModelBuilder.afterCalls
        [.register treeGraph "Nodes" (.named nodeKey) (some "Id") .none] = treeBuilder :=
      congrArg Prod.snd register_tree
    rw [hafter, build_tree]
  have hshape : Shape.parse treeModel nodeKey kidsOptions =
      .ok ⟨.properties [.single idProperty], [⟨kidsProperty, [kidsProperty]⟩]⟩ := rfl
  have hcovers : nodeType.StarCovers (kidsOptions.value? .expand) := by
    refine ComplexType.starCovers_of_alone (by decide) fun value hvalue hstar => ?_
    rw [← Option.some.inj hvalue] at hstar
    exact absurd hstar (by decide)
  obtain ⟨hordered, shown, hshown, hleft, -, hview⟩ :=
    shaped_shows hbuild not_nests_tree rfl hshape holds_root
  exact ⟨rfl, hordered, _, shown, hshape, hshown, hleft, hview hcovers⟩

open Sample in
/-- A path beside the star asks for the nodes below the nodes, which are not shown. -/
theorem Projection.not_shows_beside_star :
    RawOptions.parse "$select=Id&$expand=*,Kids/Kids" = .ok starOptions ∧
      nodeType.expandedPaths (starOptions.value? .expand) = [["Kids"], ["Kids", "Kids"]] ∧
      ∃ shape shown, Shape.parse treeModel nodeKey starOptions = .ok shape ∧
        Projection.shaped treeModel nodeKey shape root = .ok shown ∧
        ¬RecordView treeModel nodeType ["Id"] [["Kids"], ["Kids", "Kids"]] root shown := by
  have hshape : Shape.parse treeModel nodeKey starOptions =
      .ok ⟨.properties [.single idProperty], [⟨kidsProperty, []⟩]⟩ := rfl
  refine ⟨rfl, by decide, _, .mk [.mk "Id" (.value (.int32 0)),
    .mk "Kids" (.records [.mk [.mk "Id" (.value (.int32 1))]])], hshape, rfl, ?_⟩
  intro hview
  cases hview with
  | intro hnames hnodup hknown hnavigable hvalues =>
      cases hvalues _ (.tail _ (.head _)) kidsProperty (.tail _ (.head _)) rfl with
      | records htype hitems =>
          obtain rfl : nodeType = _ := Option.some.inj htype
          cases hitems with
          | cons hfirst hrest =>
              cases hfirst with
              | intro hnames => exact absurd hnames (by decide)

theorem ProjectedRecord.mem_leftoversAll {entry : String × Record}
    {records : List ProjectedRecord} :
    entry ∈ leftoversAll records ↔ ∃ record ∈ records, entry ∈ record.leftovers := by
  induction records with
  | nil => simp [leftoversAll]
  | cons record records ih =>
      simp only [leftoversAll, List.mem_append, ih, List.mem_cons, exists_eq_or_imp]

theorem Model.mem_sets {model : Model} {name : String} {set : EntitySet}
    (h : model.entitySet name = .ok set) : set ∈ model.sets := by
  unfold entitySet at h
  split at h
  · rename_i found hfound
    obtain rfl := Except.ok.inj h
    exact List.mem_of_find?_eq_some hfound
  · cases h

/-- The records that are left in an answer are in collections of collections, and the answer can be
written unless there are any. -/
theorem Query.nests_of_leftover {calls : List ModelBuilder.Call} {model : Model}
    {setName text : String} {query : Query} {recordType : TypeKey} {records : List Record}
    {page : Page} (hbuild : (ModelBuilder.afterCalls calls).build = .ok model)
    (hquery : Query.parse model setName text = .ok query)
    (hrecords : ∀ r ∈ records, Holds model (.complex recordType) (.record r))
    (hexecute : query.execute recordType records = .ok page) :
    (∀ entry ∈ ProjectedRecord.leftoversAll page.records, model.Nests entry.1) ∧
      ((∃ json, ProjectedRecord.toJsonAll page.records = .ok json) ↔
        ProjectedRecord.leftoversAll page.records = []) := by
  refine ⟨fun entry hentry => ?_, ProjectedRecord.exists_toJsonAll_iff page.records⟩
  have hclosed := ModelBuilder.closed_of_build hbuild
  obtain ⟨rfl, -, hset⟩ := Query.parse_eq_ok.1 hquery
  rw [execute_eq_answer_insertionSorter] at hexecute
  obtain ⟨found, hfound, hcut⟩ := ListProgram.answer_eq_ok hexecute
  obtain ⟨shape, skip, top, count, hshape, -, -, -, hpage, -, -⟩ := hcut.read
  obtain ⟨type, htype⟩ := Option.isSome_iff_exists.1
    (hclosed.sets query.set (Model.mem_sets hset))
  obtain rfl : query.set.entityType = recordType := hcut.type
  -- What is on the page is the view of one of the records.
  obtain ⟨shown, hshown, hentry⟩ := ProjectedRecord.mem_leftoversAll.1 hentry
  obtain ⟨r, hr, hshaped⟩ := exists_of_mem_mapM hpage hshown
  have hmem : r ∈ records :=
    (ListProgram.matching_subperm insertionSorter_isStable hfound).subset
      ((ListProgram.page_sublist _ _ _).subset hr)
  obtain ⟨other, hother, hview⟩ := Projection.shaped_view (ModelBuilder.ordered_of_build hbuild)
    hclosed htype hshape (hrecords r hmem)
  obtain rfl := Except.ok.inj (hshaped.symm.trans hother)
  cases hrecords r hmem with
  | complex hfields => exact hview.nests_of_mem_leftovers htype (hfields type htype) entry hentry

/-! ## Boards -/

namespace Sample

def boardKey : TypeKey := ⟨"Board"⟩

def cellKey : TypeKey := ⟨"Cell"⟩

/-- A board has rows of cells. -/
def boardGraph : HostGraph :=
  ⟨[(boardKey, .record ⟨"Sample", "Board", none,
      [⟨"Rows", .sequence (.sequence (.named cellKey)), false⟩]⟩),
    (cellKey, .record ⟨"Sample", "Cell", none, [⟨"Mark", .primitive .int32, true⟩]⟩)]⟩

def registerBoards : ModelBuilder.Call :=
  .register boardGraph "Boards" (.named boardKey) none .none

def rowsProperty : Property :=
  ⟨"Rows", boardKey, .collection (.collection (.complex cellKey)), true, false⟩

def markProperty : Property := ⟨"Mark", cellKey, .primitive .int32, false, false⟩

def boardType : ComplexType := ⟨boardKey, "Sample", "Board", none, [rowsProperty]⟩

def cellType : ComplexType := ⟨cellKey, "Sample", "Cell", none, [markProperty]⟩

def boards : EntitySet := ⟨"Boards", boardKey, none, .none⟩

def boardModel : Model :=
  ⟨[boards], [boardType, cellType], [],
    [("Sample.Board", boardKey), ("Sample.Cell", cellKey)]⟩

theorem build_boards : (ModelBuilder.afterCalls [registerBoards]).build = .ok boardModel := by
  cbv

def cell : Record := .ofFields 1 cellKey "cell" [("Mark", .int32 1)]

/-- A board with a single cell. -/
def board : Record :=
  .ofFields 0 boardKey "board" [("Rows", .collection [.collection [.record cell]])]

theorem board_conforms : Conforms boardModel boardKey board := by
  have hcell : Conforms boardModel cellKey cell := by
    intro type htype p hp
    obtain rfl : cellType = type := Option.some.inj htype
    obtain rfl := List.mem_singleton.1 hp
    exact .inr (.primitive rfl)
  intro type htype p hp
  obtain rfl : boardType = type := Option.some.inj htype
  obtain rfl := List.mem_singleton.1 hp
  refine .inr (.collection fun row hrow => ?_)
  obtain rfl := List.mem_singleton.1 hrow
  refine .collection fun item hitem => ?_
  obtain rfl := List.mem_singleton.1 hitem
  exact hasType_record_iff.2 hcell

/-- All boards, without further options. -/
def boardQuery : Query := ⟨boardModel, boards, .empty⟩

end Sample

open Sample in
/-- What is left of an answer with boards is in their rows. -/
theorem Query.nests_of_leftover_boards :
    ∃ page, boardQuery.execute boardKey [board] = .ok page ∧
      (∀ entry ∈ ProjectedRecord.leftoversAll page.records, boardModel.Nests entry.1) ∧
      ((∃ json, ProjectedRecord.toJsonAll page.records = .ok json) ↔
        ProjectedRecord.leftoversAll page.records = []) := by
  have hquery : Query.parse boardModel "Boards" "" = .ok boardQuery := rfl
  have hrecords : ∀ r ∈ [board], Holds boardModel (.complex boardKey) (.record r) := by
    intro r hr
    obtain rfl := List.mem_singleton.1 hr
    exact board_conforms.holds
  obtain ⟨page, hpage⟩ : ∃ page, boardQuery.execute boardKey [board] = .ok page := by
    rw [execute_eq_answer_insertionSorter]
    exact ⟨_, rfl⟩
  exact ⟨page, hpage, nests_of_leftover build_boards hquery hrecords hpage⟩

open Sample in
/-- The cell in a row of a board is left, so boards are found but cannot be written. -/
theorem Query.execute_boards :
    (ModelBuilder.afterCalls [registerBoards]).build = .ok boardModel ∧
      Query.parse boardModel "Boards" "" = .ok boardQuery ∧
      Conforms boardModel boardKey board ∧
      ∃ page, boardQuery.execute boardKey [board] = .ok page ∧
        ProjectedRecord.leftoversAll page.records = [("Rows", cell)] ∧
        ProjectedRecord.toJsonAll page.records = .error ⟨cellKey⟩ := by
  refine ⟨build_boards, rfl, board_conforms, ?_⟩
  rw [execute_eq_answer_insertionSorter]
  exact ⟨_, rfl, rfl, rfl⟩

end EntityQuery
