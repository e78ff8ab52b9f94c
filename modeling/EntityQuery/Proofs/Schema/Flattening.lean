import EntityQuery.Proofs.Schema.PropertyOrder
import EntityQuery.Proofs.Schema.Tracing

/-!
# Inherited properties

The properties of a finished record type are those that it and the types it extends declare by their
shapes.  A name that is declared more than once stands for the declaration of the nearest type, and
there for the first one (`declaration?`).  Two sorts by name and the merging of the levels leave
this as it is: the sorts are stable, and merging keeps what comes first.

A record whose fields could not be resolved has none of them in the model, so a call that has failed
leaves gaps in the properties.  If no call has failed there are none.
-/

namespace EntityQuery

/-! ## What the shapes declare -/

/-- The field that declares a name in a shape. -/
def RecordShape.field? (shape : RecordShape) (name : String) : Option FieldShape :=
  shape.fields.find? fun field => field.name == name

/-- The declaration of a name in a chain of types, nearest first, with the type it is in. -/
def declaration? (chain : List (TypeKey × RecordShape)) (name : String) :
    Option (TypeKey × FieldShape) :=
  chain.findSome? fun entry => (entry.2.field? name).map fun field => (entry.1, field)

/-- A record type and the types that it extends by their shapes, up to the last. -/
inductive HostGraph.Descent (graph : HostGraph) : TypeKey → List (TypeKey × RecordShape) → Prop
  | last {key : TypeKey} {shape : RecordShape} (hshape : graph.shape key = .record shape)
      (hbase : graph.baseKey? shape = some none) : Descent graph key [(key, shape)]
  | step {key base : TypeKey} {shape : RecordShape} {rest : List (TypeKey × RecordShape)}
      (hshape : graph.shape key = .record shape) (hbase : graph.baseKey? shape = some (some base))
      (hrest : Descent graph base rest) : Descent graph key ((key, shape) :: rest)

/-- A type has one such chain. -/
theorem HostGraph.Descent.unique {graph : HostGraph} {key : TypeKey}
    {chain other : List (TypeKey × RecordShape)} (h : graph.Descent key chain)
    (h' : graph.Descent key other) : chain = other := by
  induction h generalizing other with
  | last hshape hbase =>
      cases h' with
      | last hshape' => rw [NamedShape.record.inj (hshape.symm.trans hshape')]
      | step hshape' hbase' =>
          obtain rfl := NamedShape.record.inj (hshape.symm.trans hshape')
          cases Option.some.inj (hbase.symm.trans hbase')
  | step hshape hbase _ ih =>
      cases h' with
      | last hshape' hbase' =>
          obtain rfl := NamedShape.record.inj (hshape.symm.trans hshape')
          cases Option.some.inj (hbase.symm.trans hbase')
      | step hshape' hbase' hrest' =>
          obtain rfl := NamedShape.record.inj (hshape.symm.trans hshape')
          obtain rfl := Option.some.inj (Option.some.inj (hbase.symm.trans hbase'))
          rw [ih hrest']

/-- A field of a type may be null: its host type is optional, by the declaration or by the shape of
its own, or it becomes a collection, or it becomes a text, a string of bytes or a record and is not
required. -/
def FieldShape.MayBeNull (graph : HostGraph) (field : FieldShape) (type : EdmType) : Prop :=
  (∃ inner, field.type = .optional inner ∨
      ∃ key, field.type = .named key ∧ graph.shape key = .plain (.optional inner)) ∨
    (∃ element, type = .collection element) ∨
    field.required = false ∧
      (type = .primitive .string ∨ type = .primitive .binary ∨ ∃ key, type = .complex key)

/-- The properties of a record type are what a chain of shapes declares. -/
structure ComplexType.Flattens (type : ComplexType) (graph : HostGraph)
    (chain : List (TypeKey × RecordShape)) : Prop where
  names : ∀ name, name ∈ type.names ↔ ∃ entry ∈ chain, ∃ field ∈ entry.2.fields, field.name = name
  properties : ∀ p ∈ type.properties, ∃ field,
    declaration? chain p.name = some (p.declaringType, field) ∧
      graph.edmType? field.type = some p.type ∧ (p.nullable = true ↔ field.MayBeNull graph p.type)

/-- Is the type a record type that declares no property in the model? -/
def Model.isBare (model : Model) (key : TypeKey) : Bool :=
  (model.complexType? key).any fun type => type.declaredProperties.isEmpty

theorem HostGraph.isOptional_iff {graph : HostGraph} {type : HostType} :
    graph.isOptional type = true ↔ ∃ inner, type = .optional inner ∨
      ∃ key, type = .named key ∧ graph.shape key = .plain (.optional inner) := by
  cases type with
  | named key =>
      simp only [isOptional, reduceCtorEq, false_or, HostType.named.injEq, exists_eq_left']
      split <;> simp_all
  | _ => simp [isOptional]

theorem FieldShape.allowsNull_iff {graph : HostGraph} {field : FieldShape} {type : EdmType} :
    field.allowsNull graph type = true ↔ field.MayBeNull graph type := by
  unfold allowsNull MayBeNull
  rw [← HostGraph.isOptional_iff]
  cases type with
  | primitive kind => cases kind <;> simp [EdmType.isCollection, PrimitiveKind.isReference]
  | complex key => simp [EdmType.isCollection]
  | enumeration key => simp [EdmType.isCollection]
  | collection element => simp [EdmType.isCollection]

theorem isSome_declaration? {chain : List (TypeKey × RecordShape)} {name : String} :
    (declaration? chain name).isSome = true ↔
      ∃ entry ∈ chain, ∃ field ∈ entry.2.fields, field.name = name := by
  simp [declaration?, RecordShape.field?, List.findSome?_isSome_iff, List.find?_isSome]

/-- Types without fields declare nothing. -/
theorem declaration?_filter {chain : List (TypeKey × RecordShape)}
    {keep : TypeKey × RecordShape → Bool}
    (h : ∀ entry ∈ chain, keep entry = false → entry.2.fields = []) (name : String) :
    declaration? (chain.filter keep) name = declaration? chain name := by
  induction chain with
  | nil => rfl
  | cons entry chain ih =>
      obtain ⟨hentry, hrest⟩ := List.forall_mem_cons.1 h
      have ih := ih hrest
      unfold declaration? at ih ⊢
      cases hkeep : keep entry with
      | true => rw [List.filter_cons_of_pos hkeep, List.findSome?_cons, List.findSome?_cons, ih]
      | false =>
          rw [List.filter_cons_of_neg (by simp [hkeep]), ih, List.findSome?_cons,
            RecordShape.field?, hentry hkeep]
          rfl

theorem ComplexType.Flattens.of_filter {type : ComplexType} {graph : HostGraph}
    {chain : List (TypeKey × RecordShape)} {keep : TypeKey × RecordShape → Bool}
    (h : type.Flattens graph (chain.filter keep))
    (hdropped : ∀ entry ∈ chain, keep entry = false → entry.2.fields = []) :
    type.Flattens graph chain where
  names name := by
    rw [h.names, ← isSome_declaration?, declaration?_filter hdropped, isSome_declaration?]
  properties p hp := by
    rw [← declaration?_filter hdropped]
    exact h.properties p hp

/-! ## Drafts of shapes -/

variable {graph : HostGraph} {shape : RecordShape} {draft : RecordDraft}

theorem find?_mapM_fieldDraft? {fields : List FieldShape} {drafts : List PropertyDraft}
    (h : fields.mapM graph.fieldDraft? = some drafts) (name : String) :
    (fields.find? fun field => field.name == name).map graph.fieldDraft?
      = (drafts.find? fun p => p.name == name).map some := by
  induction fields generalizing drafts with
  | nil =>
      obtain rfl := Option.some.inj h
      rfl
  | cons field fields ih =>
      rw [List.mapM_cons] at h
      obtain ⟨p, hp, h⟩ := Option.bind_eq_some_iff.1 h
      obtain ⟨rest, hrest, h⟩ := Option.bind_eq_some_iff.1 h
      obtain rfl := Option.some.inj h
      have hname : p.name = field.name := by
        obtain ⟨type, -, hdraft⟩ := Option.bind_eq_some_iff.1 hp
        rw [← Option.some.inj hdraft]
      rw [List.find?_cons, List.find?_cons, hname]
      cases field.name == name with
      | true => exact congrArg some hp
      | false => exact ih hrest

/-- A draft has a property for each name that its shape declares. -/
theorem find?_draft (h : graph.draft? shape = some draft) (name : String) :
    (shape.field? name).map graph.fieldDraft?
      = (draft.properties.find? fun p => p.name == name).map some := by
  obtain ⟨base, properties, -, hproperties, rfl⟩ := HostGraph.draft?_eq_some.1 h
  rw [find?_mergeSort_name PropertyDraft.name]
  exact find?_mapM_fieldDraft? hproperties name

/-- A type of a chain, once as it has been collected and once by its shape. -/
def Draws (graph : HostGraph) (drawn : TypeKey × RecordDraft) (entry : TypeKey × RecordShape) :
    Prop :=
  drawn.1 = entry.1 ∧ graph.Sketches entry.2 drawn.2

/-- What has been collected of a chain declares what the shapes of those of its types declare that
have properties. -/
theorem map_declaration?_eq {drawn : List (TypeKey × RecordDraft)}
    {chain : List (TypeKey × RecordShape)} {bare : TypeKey → Bool}
    (h : List.Forall₂ (Draws graph) drawn chain)
    (hbare : ∀ entry ∈ drawn, bare entry.1 = entry.2.properties.isEmpty)
    (finish : TypeKey → PropertyDraft → Property) (name : String) :
    (declaration? (chain.filter fun entry => !bare entry.1) name).map
        (fun entry => (graph.fieldDraft? entry.2).map (finish entry.1))
      = (drawn.findSome? fun entry =>
          (entry.2.properties.find? fun p => p.name == name).map (finish entry.1)).map some := by
  induction h with
  | nil => rfl
  | @cons first entry drawn chain hdraws _ ih =>
      obtain ⟨hfirst, hrest⟩ := List.forall_mem_cons.1 hbare
      have ih := ih hrest
      obtain ⟨hkey, hsketch⟩ := hdraws
      rw [hkey] at hfirst
      by_cases hempty : first.2.properties = []
      · rw [List.filter_cons_of_neg (by simp [hfirst, hempty]), ih, List.findSome?_cons, hempty]
        rfl
      · have hdraft : graph.draft? entry.2 = some first.2 :=
          hsketch.resolve_right fun h => hempty h.2
        have hfind := find?_draft hdraft name
        rw [List.filter_cons_of_pos (by simp [hfirst, hempty])]
        unfold declaration? at ih ⊢
        rw [List.findSome?_cons, List.findSome?_cons, hkey]
        -- The type declares the name, or the rest of the chain decides.
        cases hfield : entry.2.field? name with
        | none =>
            rw [hfield] at hfind
            rw [Option.map_eq_none_iff.1 hfind.symm]
            exact ih
        | some field =>
            rw [hfield] at hfind
            obtain ⟨p, hp, hdrafted⟩ := Option.map_eq_some_iff.1 hfind.symm
            rw [hp, Option.map_some, Option.map_some, Option.map_some, Option.map_some, ← hdrafted]
            rfl

namespace ModelBuilder

variable {builder : ModelBuilder} {calls : List Call} {key : TypeKey} {model : Model}
  {present more : List Property} {lists : List (List Property)} {name : String}
  {drawn : List (TypeKey × RecordDraft)}

/-! ## Merging levels -/

theorem find?_addMissing :
    (addMissing present more).find? (fun p => p.name == name)
      = (present ++ more).find? fun p => p.name == name := by
  induction more generalizing present with
  | nil => rw [List.append_nil]; rfl
  | cons q more ih =>
      rw [addMissing, List.foldl_cons]
      refine ih.trans ?_
      split
      · rename_i hany
        obtain ⟨other, hother, hsame⟩ := List.any_eq_true.1 hany
        rw [List.find?_append, List.find?_append, List.find?_cons]
        cases hq : q.name == name with
        | false => rfl
        | true =>
            have hfound : (present.find? fun p => p.name == name).isSome = true := by
              refine List.find?_isSome.2 ⟨other, hother, ?_⟩
              rw [beq_iff_eq.1 hsame, hq]
            obtain ⟨p, hp⟩ := Option.isSome_iff_exists.1 hfound
            rw [hp]
            rfl
      · rw [List.append_assoc, List.singleton_append]

theorem find?_foldl_addMissing :
    (lists.foldl addMissing present).find? (fun p => p.name == name)
      = (present ++ lists.flatten).find? fun p => p.name == name := by
  induction lists generalizing present with
  | nil => rw [List.flatten_nil, List.append_nil]; rfl
  | cons list lists ih =>
      rw [List.foldl_cons, ih, List.find?_append, find?_addMissing, ← List.find?_append,
        List.append_assoc, List.flatten_cons]

/-- The property of a name is that of the nearest type that has one. -/
theorem find?_allProperties (hdrawn : builder.resolver.Ancestry key drawn) (name : String) :
    (builder.allProperties key).find? (fun p => p.name == name)
      = drawn.findSome? fun entry =>
          (entry.2.properties.find? fun p => p.name == name).map
            (builder.finishProperty entry.1) := by
  unfold allProperties
  rw [find?_mergeSort_name Property.name, find?_foldl_addMissing, List.nil_append,
    List.find?_flatten, lineage_eq hdrawn hdrawn.length_le, List.findSome?_map]
  congr 1
  funext entry
  exact List.find?_map

/-- A property of a type is the one that is found by its name. -/
theorem find?_name_of_mem {p : Property} (h : p ∈ builder.allProperties key) :
    (builder.allProperties key).find? (fun q => q.name == p.name) = some p := by
  refine (find?_eq_some_iff_mem ((pairwise_allProperties builder key).imp fun hlt => ?_)).2 ⟨h, rfl⟩
  rintro rfl
  exact String.lt_irrefl _ hlt

/-! ## Chains of shapes -/

/-- What has been collected of a chain of types goes back to a chain of shapes. -/
theorem exists_descent (htraced : builder.resolver.Traced graph)
    (h : builder.resolver.Ancestry key drawn) :
    ∃ chain, graph.Descent key chain ∧ List.Forall₂ (Draws graph) drawn chain := by
  induction h with
  | last hkey hbase =>
      obtain ⟨shape, hshape, hsketch⟩ := htraced.records _ _ hkey
      exact ⟨_, .last hshape (hbase ▸ hsketch.base), .cons ⟨rfl, hsketch⟩ .nil⟩
  | step hkey hbase _ ih =>
      obtain ⟨shape, hshape, hsketch⟩ := htraced.records _ _ hkey
      obtain ⟨rest, hrest, hdraws⟩ := ih
      exact ⟨_, .step hshape (hbase ▸ hsketch.base) hrest, .cons ⟨rfl, hsketch⟩ hdraws⟩

/-- A type is bare in the model if its draft has no properties. -/
theorem isBare_eq (hbuild : builder.build = .ok model)
    (hdraft : builder.resolver.record? key = some draft) :
    model.isBare key = draft.properties.isEmpty := by
  rw [Model.isBare, complexType?_build hbuild hdraft, Option.any_some, Bool.eq_iff_iff,
    List.isEmpty_iff, List.isEmpty_iff, ComplexType.declaredProperties, List.filter_eq_nil_iff]
  constructor
  · intro hnone
    refine List.eq_nil_iff_forall_not_mem.2 fun d hd => ?_
    obtain ⟨p, hp, -, hdeclaring⟩ := exists_property_of_draft hdraft hd
    exact hnone p hp (beq_iff_eq.2 hdeclaring)
  · rintro hempty p hp hdeclaring
    obtain ⟨k, other, hother, d, hd, rfl⟩ := exists_draft_of_mem hp
    obtain rfl : k = key := beq_iff_eq.1 hdeclaring
    obtain rfl := Option.some.inj (hdraft.symm.trans hother)
    rw [hempty] at hd
    cases hd

/-- A type has what the chain of its shapes declares, without the types that are bare. -/
theorem flattens_filter (hbuild : builder.build = .ok model)
    (hdrawn : builder.resolver.Ancestry key drawn) {chain : List (TypeKey × RecordShape)}
    (hdraws : List.Forall₂ (Draws graph) drawn chain) :
    (builder.finishRecord key draft).Flattens graph
      (chain.filter fun entry => !model.isBare entry.1) := by
  have hrecord (entry : TypeKey × RecordDraft) (hentry : entry ∈ drawn) :
      builder.resolver.record? entry.1 = some entry.2 :=
    record?_of_mem_lineage (lineage_eq hdrawn hdrawn.length_le ▸ hentry)
  have hfind (name : String) := map_declaration?_eq hdraws
    (fun entry hentry => isBare_eq hbuild (hrecord entry hentry)) builder.finishProperty name
  simp only [← find?_allProperties hdrawn] at hfind
  constructor
  · intro name
    rw [← isSome_declaration?, ← Option.isSome_map, hfind, Option.isSome_map, List.find?_isSome]
    simp [ComplexType.names, finishRecord]
  · intro p hp
    have hfound := hfind p.name
    rw [find?_name_of_mem hp] at hfound
    obtain ⟨entry, hentry, hfinish⟩ := Option.map_eq_some_iff.1 hfound
    obtain ⟨d, hd, rfl⟩ := Option.map_eq_some_iff.1 hfinish
    obtain ⟨type, htype, hd⟩ := Option.bind_eq_some_iff.1 hd
    obtain rfl := Option.some.inj hd
    exact ⟨entry.2, hentry, htype, FieldShape.allowsNull_iff⟩

/-- If all calls have succeeded, only types that declare nothing are bare. -/
theorem fields_eq_nil_of_isBare (hgraph : ∀ call ∈ calls, call.graph = graph)
    (hcalls : Call.runAll .empty calls = .ok builder) (hbuild : builder.build = .ok model)
    (hshape : graph.shape key = .record shape) (hbare : model.isBare key = true) :
    shape.fields = [] := by
  obtain ⟨hcomplete, -, -⟩ := complete_of_runAll hgraph hcalls fun key hkey => absurd rfl hkey
  obtain ⟨type, htype, -⟩ := (Option.any_eq_true _ _).1 hbare
  obtain rfl := afterCalls_of_runAll hcalls
  obtain ⟨draft, hdraft, -⟩ := exists_draft_of_complexType? hbuild htype
  have hknown : (afterCalls calls).resolver.known? key ≠ none := fun hnone => by
    rw [(Resolver.known?_eq_none_iff.1 hnone).1] at hdraft
    cases hdraft
  obtain ⟨⟨other, hother, hfields⟩, -⟩ := hcomplete key hknown id shape hshape
  obtain rfl := Option.some.inj (hdraft.symm.trans hother)
  rw [isBare_eq hbuild hdraft, List.isEmpty_iff] at hbare
  refine List.eq_nil_iff_forall_not_mem.2 fun field hfield => ?_
  obtain ⟨p, hp, -⟩ := hfields field hfield
  rw [hbare] at hp
  cases hp

theorem shape_of_descent {chain : List (TypeKey × RecordShape)} (h : graph.Descent key chain) :
    ∀ entry ∈ chain, graph.shape entry.1 = .record entry.2 := by
  induction h with
  | last hshape _ => simpa using hshape
  | step hshape _ _ ih => exact List.forall_mem_cons.2 ⟨hshape, ih⟩

/-- A record type of a model has its properties in ascending order of their names, and they are what
its shape and the shapes of the types it extends declare.  Calls that have failed may leave types
without properties, which count as types that declare nothing; if all calls have succeeded, every
type of the chain counts. -/
theorem flattens_of_build (hgraph : ∀ call ∈ calls, call.graph = graph)
    (hbuild : (afterCalls calls).build = .ok model) :
    ∀ type ∈ model.complexTypes, type.names.Pairwise (· < ·) ∧
      ∃ chain, graph.Descent type.key chain ∧
        type.Flattens graph (chain.filter fun entry => !model.isBare entry.1) ∧
        ∀ after, Call.runAll .empty calls = .ok after → type.Flattens graph chain := by
  intro type htype
  rw [(build_eq_ok hbuild).1] at htype
  obtain ⟨⟨key, draft⟩, hentry, rfl⟩ := List.mem_map.1 htype
  refine ⟨pairwise_allProperties _ key, ?_⟩
  obtain ⟨drawn, hdrawn⟩ := (sound_afterCalls calls).grounded key
    (Resolver.isSome_record?_of_mem hentry)
  obtain ⟨chain, hchain, hdraws⟩ := exists_descent (traced_afterCalls hgraph) hdrawn
  have hflattens : ((afterCalls calls).finishRecord key draft).Flattens graph
      (chain.filter fun entry => !model.isBare entry.1) := flattens_filter hbuild hdrawn hdraws
  refine ⟨chain, hchain, hflattens, fun after hcalls => ?_⟩
  obtain rfl := afterCalls_of_runAll hcalls
  refine hflattens.of_filter fun entry hmem hdropped => ?_
  exact fields_eq_nil_of_isBare hgraph hcalls hbuild (shape_of_descent hchain entry hmem)
    (by simpa using hdropped)

/-- The dogs are registered, and what they extend with them. -/
def dogCalls : List Call :=
  [.register Sample.pedigreeGraph "Dogs" (.named Sample.dogKey) none .none]

/-- A dog has the rival of an animal, declared by the animal. -/
theorem flattens_of_build_pedigree :
    ∃ model type, (afterCalls dogCalls).build = .ok model ∧
      model.complexType? Sample.dogKey = some type ∧
        type.names.Pairwise (· < ·) ∧ (∀ name, name ∈ type.names ↔ name = "Age" ∨ name = "Rival") ∧
        ∃ p ∈ type.properties, p.name = "Rival" ∧ p.declaringType = Sample.animalKey ∧
          p.type = .complex Sample.dogKey ∧ p.nullable = true := by
  obtain ⟨model, hbuild⟩ : ∃ model, (afterCalls dogCalls).build = .ok model := ⟨_, rfl⟩
  obtain ⟨draft, hdraft⟩ : ∃ draft, (afterCalls dogCalls).resolver.record? Sample.dogKey
      = some draft := ⟨_, rfl⟩
  have htype := complexType?_build hbuild hdraft
  have hgraph : ∀ call ∈ dogCalls, call.graph = Sample.pedigreeGraph := by
    simp [dogCalls, Call.graph]
  obtain ⟨hascending, chain, hchain, -, hflattens⟩ :=
    flattens_of_build hgraph hbuild _ (List.mem_of_find?_eq_some htype)
  obtain ⟨hnames, hproperties⟩ := hflattens _ rfl
  obtain rfl := hchain.unique (.step rfl rfl (.last rfl rfl))
  have hall (name : String) :
      name ∈ ((afterCalls dogCalls).finishRecord Sample.dogKey draft).names ↔
        name = "Age" ∨ name = "Rival" := by
    rw [hnames]
    simp [eq_comm]
  refine ⟨model, _, hbuild, htype, hascending, hall, ?_⟩
  obtain ⟨p, hp, hname⟩ := List.mem_map.1 ((hall "Rival").2 (.inr rfl))
  obtain ⟨field, hdeclaration, hedm, hnull⟩ := hproperties p hp
  rw [hname] at hdeclaration
  obtain ⟨hdeclaring, rfl⟩ := Prod.mk.inj (Option.some.inj hdeclaration)
  exact ⟨p, hp, hname, hdeclaring.symm, (Option.some.inj hedm).symm,
    hnull.2 (.inl ⟨_, .inl rfl⟩)⟩

/-- An order and its state, which has the name of the order. -/
def orderGraph : HostGraph :=
  ⟨[(⟨"Order"⟩, .record ⟨"Sample", "Order", none,
      [⟨"Id", .primitive .int32, true⟩, ⟨"State", .named ⟨"State"⟩, true⟩]⟩),
    (⟨"State"⟩, .enumeration ⟨"Sample", "Order", false, [("Open", 0)]⟩)]⟩

/-- The order stays in the model when its state is refused, without the number that it declares. -/
theorem not_flattens_orderGraph :
    ((Call.registerType orderGraph (.named ⟨"Order"⟩)).run .empty).1
        = .error (.failed (.configuration (.nameClash "Sample.Order" ⟨"Order"⟩ ⟨"State"⟩))) ∧
      ∃ model type, (afterCalls [.registerType orderGraph (.named ⟨"Order"⟩)]).build = .ok model ∧
        model.complexType? ⟨"Order"⟩ = some type ∧ type.properties = [] ∧
          ∀ chain, orderGraph.Descent ⟨"Order"⟩ chain → ¬type.Flattens orderGraph chain := by
  obtain ⟨model, hbuild⟩ : ∃ model, (afterCalls [.registerType orderGraph
      (.named ⟨"Order"⟩)]).build = .ok model := ⟨_, rfl⟩
  have hdraft : (afterCalls [.registerType orderGraph (.named ⟨"Order"⟩)]).resolver.record?
      ⟨"Order"⟩ = some ⟨"Sample", "Order", none, []⟩ := rfl
  obtain ⟨type, htype, hnone⟩ : ∃ type, model.complexType? ⟨"Order"⟩ = some type ∧
      type.properties = [] := ⟨_, complexType?_build hbuild hdraft, List.mergeSort_nil⟩
  refine ⟨rfl, model, type, hbuild, htype, hnone, fun chain hchain hflattens => ?_⟩
  obtain rfl := hchain.unique (.last rfl rfl)
  obtain ⟨p, hp, -⟩ := List.mem_map.1 ((hflattens.names "Id").2
    ⟨_, List.mem_cons_self, ⟨"Id", .primitive .int32, true⟩, List.mem_cons_self, rfl⟩)
  rw [hnone] at hp
  cases hp

end ModelBuilder

end EntityQuery
