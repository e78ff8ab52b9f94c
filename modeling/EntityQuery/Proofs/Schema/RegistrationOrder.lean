import EntityQuery.Proofs.Schema.Acceptance

/-!
# The order of registration

A model is built when all entity sets are known, from types that have been collected as their shapes
say.  So it makes no difference in which order sets and types were registered: two orders of the
same calls both fail, or both lead to models that hold the same (`buildAll_perm`).  In particular a
property is navigable if its type is registered as an entity set anywhere, also after the type of
the property itself.

What differs between two such models is the order of their lists, which nothing that is found by a
name or a key depends on.  This supposes that the names of sets are told apart by the case of ASCII
letters in the same way as by their small forms, as they are if they consist of ASCII characters.
-/

namespace EntityQuery

/-! ## ASCII names -/

namespace Text

/-- The text consists of ASCII characters. -/
def IsAscii (text : String) : Prop := ∀ c ∈ text.toList, c.val < 128

theorem lowerFrom_of_ascii (before : List Char) {cs : List Char} (h : ∀ c ∈ cs, c.val < 128) :
    lowerFrom before cs = cs.map asciiLower := by
  induction cs generalizing before with
  | nil => rfl
  | cons c cs ih =>
      obtain ⟨hc, hcs⟩ := List.forall_mem_cons.1 h
      have hsigma : (c.val == 0x3A3) = false := by
        refine beq_false_of_ne fun heq => ?_
        rw [heq] at hc
        exact absurd hc (by decide)
      rw [lowerFrom, hsigma, lowerChar, if_pos hc, ih (c :: before) hcs]
      rfl

theorem toLower_of_ascii {text : String} (h : IsAscii text) :
    toLower text = String.ofList (text.toList.map asciiLower) := by
  rw [toLower, lowerFrom_of_ascii [] h]

end Text

/-- On ASCII names the two notions of case agree. -/
theorem Model.sameSetName_of_ascii {s t : String} (hs : Text.IsAscii s) (ht : Text.IsAscii t) :
    Model.sameSetName s t = Text.eqIgnoringAsciiCase s t := by
  rw [Model.sameSetName, Text.eqIgnoringAsciiCase, Text.toLower_of_ascii hs,
    Text.toLower_of_ascii ht, Bool.eq_iff_iff, beq_iff_eq, beq_iff_eq, String.ofList_inj]

/-- Two models hold the same, and so the same is found in them. -/
structure Model.Agrees (a b : Model) : Prop where
  sets : a.sets.Perm b.sets
  complexTypes : a.complexTypes.Perm b.complexTypes
  enumTypes : a.enumTypes.Perm b.enumTypes
  names : a.names.Perm b.names
  entitySet : ∀ name, a.entitySet name = b.entitySet name
  complexType? : ∀ key, a.complexType? key = b.complexType? key
  enumType? : ∀ key, a.enumType? key = b.enumType? key
  lookup : ∀ fullName, a.names.lookup fullName = b.names.lookup fullName

namespace ModelBuilder

variable {graph : HostGraph} {within : TypeKey → Prop} {a b builder : ModelBuilder}
  {calls others : List Call} {model : Model} {key : TypeKey}

/-! ## Builders that hold the same -/

theorem isEntityType_eq (hsets : a.sets.Perm b.sets) (key : TypeKey) :
    a.isEntityType key = b.isEntityType key := by
  rw [Bool.eq_iff_iff, isEntityType, isEntityType, List.any_eq_true, List.any_eq_true]
  simp only [hsets.mem_iff]

theorem nodup_complexTypes (ha : a.resolver.Collects graph within) :
    (a.complexTypes.map ComplexType.key).Nodup := by
  rw [complexTypes, List.map_map]
  exact ha.uniqueRecords

section Builders

variable (ha : a.resolver.Collects graph within) (hb : b.resolver.Collects graph within)
  (hsets : a.sets.Perm b.sets)

include ha hb

theorem record?_eq (key : TypeKey) : a.resolver.record? key = b.resolver.record? key :=
  lookup_perm (ha.perm hb).1 ha.uniqueRecords key

theorem lineage_eq_lineage (depth : Nat) (key : TypeKey) :
    a.lineage depth key = b.lineage depth key := by
  induction depth generalizing key with
  | zero => rfl
  | succ depth ih =>
      simp only [lineage, record?_eq ha hb, ih]

include hsets

theorem allProperties_eq (key : TypeKey) : a.allProperties key = b.allProperties key := by
  have hfinish : a.finishProperty = b.finishProperty := by
    funext declaring draft
    rw [finishProperty, finishProperty, funext (isEntityType_eq hsets)]
  rw [allProperties, allProperties, (ha.perm hb).1.length_eq, lineage_eq_lineage ha hb, hfinish]

theorem complexTypes_perm : a.complexTypes.Perm b.complexTypes := by
  have hfinish : a.finishRecord = b.finishRecord := by
    funext key draft
    rw [finishRecord, finishRecord, allProperties_eq ha hb hsets]
  rw [complexTypes, complexTypes, hfinish]
  exact (ha.perm hb).1.map _

theorem finishSet_eq (draft : EntitySetDraft) :
    finishSet a.complexTypes draft = finishSet b.complexTypes draft := by
  unfold finishSet
  rw [find?_perm (complexTypes_perm ha hb hsets) (nodup_complexTypes ha)]

/-- Builders that hold the same build models that hold the same, if the names of the sets differ. -/
theorem build_agrees (hsound : Sound b)
    (hnames : (a.sets.map EntitySetDraft.name).Pairwise fun s t => Model.sameSetName s t = false)
    (hmodel : a.build = .ok model) : ∃ other, b.build = .ok other ∧ model.Agrees other := by
  obtain ⟨sets, hfinish, hmodel⟩ := bind_eq_ok.1 (assemble_of_build hmodel)
  obtain rfl := pure_eq_ok.1 hmodel
  obtain ⟨results, hresults, hperm⟩ := mapM_perm hsets hfinish
  have hother : b.sets.mapM (finishSet b.complexTypes) = .ok results := by
    rw [← funext (finishSet_eq ha hb hsets)]
    exact hresults
  -- The names of the finished sets differ too, so no set takes the place of another.
  have hdistinct : sets.Pairwise fun s t => Model.sameSetName s.name t.name = false := by
    rwa [← map_eq_of_mapM (fun _ _ => name_of_finishSet) hfinish, List.pairwise_map] at hnames
  have hsmall : (sets.map fun set => Text.toLower set.name).Nodup := by
    rw [List.Nodup, List.pairwise_map]
    exact hdistinct.imp fun hne => beq_eq_false_iff_ne.1 hne
  have hkept : sets.foldl putSet [] = sets := foldl_putSet_of_pairwise hdistinct
  have hkeptOther : results.foldl putSet [] = results := by
    refine foldl_putSet_of_pairwise (hperm.pairwise hdistinct fun hne => ?_)
    rwa [Model.sameSetName, BEq.comm]
  have htypes := complexTypes_perm ha hb hsets
  obtain ⟨-, henums, hfullNames⟩ := ha.perm hb
  refine ⟨_, hsound.build_eq.trans (bind_eq_ok.2 ⟨results, hother, rfl⟩), ?_⟩
  rw [hkept, hkeptOther]
  exact {
    sets := hperm
    complexTypes := htypes
    enumTypes := henums
    names := hfullNames
    entitySet := fun name => by
      unfold Model.entitySet Model.sameSetName
      dsimp only
      rw [find?_perm hperm hsmall]
    complexType? := fun key => find?_perm htypes (nodup_complexTypes ha) key
    enumType? := fun key => find?_perm henums ha.uniqueEnums key
    lookup := fun fullName => lookup_perm hfullNames ha.uniqueNames fullName }

end Builders

/-! ## Navigable properties -/

/-- The record type that a call registers as an entity set. -/
def Call.entityType? : Call → Option TypeKey
  | register graph _ type _ _ => graph.key? type
  | registerType _ _ => none

theorem Call.entityType?_eq (call : Call) :
    call.entityType? = call.draft?.map EntitySetDraft.entityType := by
  cases call with
  | registerType => rfl
  | register graph name type key capabilities =>
      rw [entityType?, draft?, Option.map_map]
      exact Option.map_id'.symm

/-- A property leads somewhere if its type is, or is a collection of, one that is registered as an
entity set. -/
theorem navigable_iff (hcalls : Call.runAll .empty calls = .ok builder)
    (hbuild : builder.build = .ok model) {type : ComplexType} (htype : type ∈ model.complexTypes)
    {p : Property} (hp : p ∈ type.properties) :
    p.navigable = true ↔ ∃ call ∈ calls, ∃ key, call.entityType? = some key ∧
      (p.type = .complex key ∨ p.type = .collection (.complex key)) := by
  rw [(build_eq_ok hbuild).1] at htype
  obtain ⟨entry, -, rfl⟩ := List.mem_map.1 htype
  obtain ⟨k, draft, -, d, -, rfl⟩ := exists_draft_of_mem hp
  have hsets : builder.sets = calls.filterMap Call.draft? := (sets_of_runAll hcalls).1
  have hentity (key : TypeKey) : builder.isEntityType key = true ↔
      ∃ call ∈ calls, call.entityType? = some key := by
    simp only [isEntityType, hsets, List.any_eq_true, List.mem_filterMap, beq_iff_eq,
      Call.entityType?_eq, Option.map_eq_some_iff]
    constructor
    · rintro ⟨set, ⟨call, hcall, hset⟩, hkey⟩
      exact ⟨call, hcall, set, hset, hkey⟩
    · rintro ⟨call, hcall, set, hset, hkey⟩
      exact ⟨set, ⟨call, hcall, hset⟩, hkey⟩
  simp only [finishProperty, Option.any_eq_true, EdmType.complexKey?_eq_some_iff, hentity]
  constructor
  · rintro ⟨key, htype, call, hcall, hkey⟩
    exact ⟨call, hcall, key, hkey, htype⟩
  · rintro ⟨call, hcall, key, hkey, htype⟩
    exact ⟨key, htype, call, hcall, hkey⟩

/-! ## Calls in another order -/

/-- The model that calls lead to, if all of them succeed and it can be built. -/
def Call.buildAll (calls : List Call) : Except Resolver.Stop Model := do
  (← Call.runAll .empty calls).build.mapError .failed

theorem buildAll_eq_ok : Call.buildAll calls = .ok model ↔
    ∃ builder, Call.runAll .empty calls = .ok builder ∧ builder.build = .ok model := by
  simp only [Call.buildAll, bind_eq_ok, mapError_eq_ok]

theorem distinct_perm (hperm : calls.Perm others) (hnames : (calls.filterMap Call.name?).Pairwise
    fun s t => Text.eqIgnoringAsciiCase s t = false) :
    (others.filterMap Call.name?).Pairwise fun s t => Text.eqIgnoringAsciiCase s t = false := by
  refine (hperm.filterMap _).pairwise hnames fun hne => ?_
  rwa [Text.eqIgnoringAsciiCase, BEq.comm]

theorem reached_perm (hperm : calls.Perm others) :
    Call.Reached graph calls = Call.Reached graph others := by
  funext key
  simp only [Call.Reached, hperm.mem_iff]

/-- If calls lead to a model, they do so in any other order, and the models hold the same. -/
theorem buildAll_agrees (hgraph : ∀ call ∈ calls, call.graph = graph)
    (hascii : ∀ name ∈ calls.filterMap Call.name?, Text.IsAscii name)
    (hnames : (calls.filterMap Call.name?).Pairwise
      fun s t => Text.eqIgnoringAsciiCase s t = false)
    (hperm : calls.Perm others) (hmodel : Call.buildAll calls = .ok model) :
    ∃ other, Call.buildAll others = .ok other ∧ model.Agrees other := by
  have hgraphOthers : ∀ call ∈ others, call.graph = graph :=
    fun call hcall => hgraph call (hperm.mem_iff.2 hcall)
  have hnamesOthers := distinct_perm hperm hnames
  obtain ⟨builder, hrun, hbuild⟩ := buildAll_eq_ok.1 hmodel
  obtain ⟨after, hafter⟩ : ∃ after, Call.runAll .empty others = .ok after := by
    have haccepted := (runAll_iff hgraph hnames).1 ⟨builder, hrun⟩
    rw [runAll_iff hgraphOthers hnamesOthers, ← reached_perm hperm]
    exact ⟨fun call hcall => haccepted.1 call (hperm.mem_iff.2 hcall), haccepted.2⟩
  have hcollects := collects_of_runAll hgraph hnames hrun
  have hcollectsOthers := collects_of_runAll hgraphOthers hnamesOthers hafter
  rw [← reached_perm hperm] at hcollectsOthers
  have hsets : builder.sets.Perm after.sets := by
    rw [(sets_of_runAll hrun).1, (sets_of_runAll hafter).1]
    exact hperm.filterMap _
  have hdistinct : (builder.sets.map EntitySetDraft.name).Pairwise
      fun s t => Model.sameSetName s t = false := by
    rw [names_of_runAll hrun]
    refine hnames.imp_of_mem fun hs ht hne => ?_
    rwa [Model.sameSetName_of_ascii (hascii _ hs) (hascii _ ht)]
  obtain ⟨other, hother, hagrees⟩ :=
    build_agrees hcollects hcollectsOthers hsets (afterCalls_of_runAll hafter ▸ sound_afterCalls _)
      hdistinct hbuild
  exact ⟨other, buildAll_eq_ok.2 ⟨after, hafter, hother⟩, hagrees⟩

/-- The order of registration makes no difference.

Calls over one graph, for entity sets whose names consist of ASCII characters and differ by more
than their case, either lead to no model in any order, or they lead in every order to models that
hold the same.  A property is then navigable exactly if its type is, or is a collection of, a record
type that one of the calls registers as an entity set. -/
theorem buildAll_perm (graph : HostGraph) (calls others : List Call)
    (hgraph : ∀ call ∈ calls, call.graph = graph)
    (hascii : ∀ name ∈ calls.filterMap Call.name?, Text.IsAscii name)
    (hnames : (calls.filterMap Call.name?).Pairwise
      fun s t => Text.eqIgnoringAsciiCase s t = false)
    (hperm : calls.Perm others) :
    (∃ e e', Call.buildAll calls = .error e ∧ Call.buildAll others = .error e') ∨
    ∃ model other, Call.buildAll calls = .ok model ∧ Call.buildAll others = .ok other ∧
      model.Agrees other ∧
      ∀ type ∈ model.complexTypes, ∀ p ∈ type.properties,
        (p.navigable = true ↔ ∃ call ∈ calls, ∃ key, call.entityType? = some key ∧
          (p.type = .complex key ∨ p.type = .collection (.complex key))) := by
  cases hmodel : Call.buildAll calls with
  | ok model =>
      obtain ⟨other, hother, hagrees⟩ :=
        buildAll_agrees hgraph hascii hnames hperm hmodel
      obtain ⟨builder, hrun, hbuild⟩ := buildAll_eq_ok.1 hmodel
      exact .inr ⟨model, other, rfl, hother, hagrees,
        fun type htype p hp => navigable_iff hrun hbuild htype hp⟩
  | error e =>
      cases hother : Call.buildAll others with
      | error e' => exact .inl ⟨e, e', rfl, rfl⟩
      | ok other =>
          -- The other order would have to fail as well.
          obtain ⟨model, hagain, -⟩ := buildAll_agrees
            (fun call hcall => hgraph call (hperm.mem_iff.2 hcall))
            (fun name hname => hascii name ((hperm.filterMap _).mem_iff.2 hname))
            (distinct_perm hperm hnames) hperm.symm hother
          cases hmodel.symm.trans hagain

/-- An animal refers to dogs, and a dog is an animal. -/
theorem buildAll_perm_pedigree :
    ∃ animals dogs model other,
      animals = Call.register Sample.pedigreeGraph "Animals" (.named Sample.animalKey) none .none ∧
      dogs = Call.register Sample.pedigreeGraph "Dogs" (.named Sample.dogKey) none .none ∧
      Call.buildAll [animals, dogs] = .ok model ∧ Call.buildAll [dogs, animals] = .ok other ∧
      model.Agrees other := by
  let animals := Call.register Sample.pedigreeGraph "Animals" (.named Sample.animalKey) none .none
  let dogs := Call.register Sample.pedigreeGraph "Dogs" (.named Sample.dogKey) none .none
  obtain ⟨first, hfirst⟩ : ∃ model, Call.buildAll [animals, dogs] = .ok model := ⟨_, rfl⟩
  obtain ⟨e, e', herror, -⟩ | ⟨model, other, hmodel, hother, hagrees, -⟩ :=
    buildAll_perm Sample.pedigreeGraph [animals, dogs] [dogs, animals]
      (by simp [animals, dogs, Call.graph])
      (by simp [animals, dogs, Call.name?, Text.IsAscii])
      (List.pairwise_pair.2 (by decide)) (.swap _ _ _)
  · cases hfirst.symm.trans herror
  · exact ⟨animals, dogs, model, other, rfl, rfl, hmodel, hother, hagrees⟩

end ModelBuilder

end EntityQuery
