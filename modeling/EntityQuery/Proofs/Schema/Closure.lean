import EntityQuery.Catalog.Shapes
import EntityQuery.Proofs.Schema.Completeness
import EntityQuery.Proofs.Schema.Registration

/-!
# Finished models are closed

Whatever calls came before, the types that a model speaks of are in the model: every draft is made
of what has been collected, and the model is made of the drafts.  If all calls have succeeded, the
record types that can be reached from the registered ones are there as well, with a property for
every field.

That the calls come to an end is another matter.  They do over a graph in which no type needs itself
before anything is entered for it, and only there (`build_complete`).  It is not enough that no type
is its own ancestor (`endless_packGraph`): a record that extends a sequence of itself would be
refused for its base, and a sequence of itself stands for nothing, but neither is ever found out.
The types of the catalog are not of this kind.
-/

namespace EntityQuery

/-! ## What a model and a graph speak of -/

/-- The types that a type refers to are in the model. -/
def Model.Describes (model : Model) : EdmType → Prop
  | .primitive _ => True
  | .complex key => (model.complexType? key).isSome = true
  | .enumeration key => (model.enumType? key).isSome = true
  | .collection element => model.Describes element

/-- The types that a model speaks of are in it. -/
structure Model.Closed (model : Model) : Prop where
  properties : ∀ type ∈ model.complexTypes, ∀ p ∈ type.properties, model.Describes p.type
  bases : ∀ type ∈ model.complexTypes, ∀ base ∈ type.base,
    (model.complexType? base).isSome = true
  sets : ∀ set ∈ model.sets, (model.complexType? set.entityType).isSome = true

/-! ## Drafts -/

namespace Resolver

variable {graph : HostGraph} {writable : TypeKey → Prop} {r r' named : Resolver} {key : TypeKey}
  {draft : RecordDraft}

/-- The types that drafts speak of have been collected. -/
def DraftsClosed (r : Resolver) : Prop :=
  ∀ entry ∈ r.records, (∀ p ∈ entry.2.properties, r.Collected p.type) ∧
    ∀ base, entry.2.base = some base → (r.record? base).isSome = true

theorem mem_records (h : r.record? key = some draft) : (key, draft) ∈ r.records := by
  obtain ⟨front, back, hrecords, -⟩ := List.lookup_eq_some_iff.1 h
  rw [hrecords]
  exact List.mem_append_right _ List.mem_cons_self

theorem DraftsClosed.mono (h : DraftsClosed r) (hkeeps : Keeps r r')
    (hnew : ∀ entry ∈ r'.records, entry ∈ r.records ∨
      (∀ p ∈ entry.2.properties, r.Collected p.type) ∧
        ∀ base, entry.2.base = some base → (r.record? base).isSome = true) :
    DraftsClosed r' := by
  intro entry hentry
  have hclosed := (hnew entry hentry).elim (h entry) id
  exact ⟨fun p hp => hkeeps.collected (hclosed.1 p hp),
    fun base hbase => hkeeps.records base (hclosed.2 base hbase)⟩

theorem DraftsClosed.step (h : DraftsClosed r) (hstep : Step graph writable r r') :
    DraftsClosed r' := by
  have hput {named : Resolver} {key : TypeKey} {draft : RecordDraft}
      {entry : TypeKey × RecordDraft} (hrecords : named.records = r.records)
      (hentry : entry ∈ (named.putRecord key draft).records) :
      entry = (key, draft) ∨ entry ∈ r.records := by
    rw [putRecord, hrecords] at hentry
    exact (List.mem_cons.1 hentry).imp_right fun hmem => (List.mem_filter.1 hmem).1
  refine h.mono hstep.keeps fun entry hentry => ?_
  cases hstep with
  | enumeration hshape hwritable hclaim =>
      obtain ⟨hrecords, -, -⟩ := claim_eq_ok hclaim
      rw [putEnum, hrecords] at hentry
      exact .inl hentry
  | enter hshape hwritable hbase hknown hclaim =>
      obtain ⟨hrecords, -, -⟩ := claim_eq_ok hclaim
      rcases hput hrecords hentry with rfl | hmem
      · exact .inr ⟨by simp, hknown⟩
      · exact .inl hmem
  | complete hshape hwritable hbase hknown hentered hproperties =>
      rcases hput rfl hentry with rfl | hmem
      · exact .inr ⟨hproperties, hknown⟩
      · exact .inl hmem

theorem DraftsClosed.steps (h : DraftsClosed r) (hsteps : Steps graph writable r r') :
    DraftsClosed r' := by
  induction hsteps with
  | refl => exact h
  | tail _ hstep ih => exact ih.step hstep

end Resolver

namespace ModelBuilder

/-- The builder behind calls, if all of them succeed. -/
def Call.runAll (builder : ModelBuilder) : List Call → Except Resolver.Stop ModelBuilder
  | [] => .ok builder
  | call :: calls =>
    match call.run builder with
    | (.ok _, after) => runAll after calls
    | (.error e, _) => .error e

variable {builder after : ModelBuilder} {call : Call} {calls : List Call} {graph : HostGraph}
  {key : TypeKey} {draft : RecordDraft} {model : Model} {p : Property}

theorem draftsClosed_afterCalls (calls : List Call) :
    (afterCalls calls).resolver.DraftsClosed := by
  refine afterCalls_induction (P := fun builder => builder.resolver.DraftsClosed)
    (fun entry hentry => by cases hentry) fun builder h call _ => ?_
  obtain ⟨r, hsteps, hcases⟩ := call.run_cases builder
  rcases hcases with heq | ⟨-, set, -, heq⟩
  · rw [heq]
    exact h.steps hsteps
  · rw [heq]
    exact h.steps hsteps

/-! ## Properties of the finished model -/

variable {present more : List Property} {lists : List (List Property)}

theorem mem_addMissing_of_mem (h : p ∈ present) : p ∈ addMissing present more := by
  induction more generalizing present with
  | nil => exact h
  | cons q more ih =>
      rw [addMissing, List.foldl_cons]
      apply ih
      split
      · exact h
      · exact List.mem_append_left _ h

theorem mem_of_mem_addMissing (h : p ∈ addMissing present more) : p ∈ present ∨ p ∈ more := by
  induction more generalizing present with
  | nil => exact .inl h
  | cons q more ih =>
      rw [addMissing, List.foldl_cons] at h
      rcases ih h with hmem | hmem
      · split at hmem
        · exact .inl hmem
        · rcases List.mem_append.1 hmem with hmem | hmem
          · exact .inl hmem
          · exact .inr (List.mem_cons.2 (.inl (List.mem_singleton.1 hmem)))
      · exact .inr (List.mem_cons_of_mem _ hmem)

/-- Every name that is to be added is there in the end. -/
theorem exists_mem_addMissing (h : p ∈ more) : ∃ q ∈ addMissing present more, q.name = p.name := by
  induction more generalizing present with
  | nil => cases h
  | cons first more ih =>
      rw [addMissing, List.foldl_cons]
      rcases List.mem_cons.1 h with rfl | hmem
      · split
        · rename_i hany
          obtain ⟨q, hq, hname⟩ := List.any_eq_true.1 hany
          exact ⟨q, mem_addMissing_of_mem hq, beq_iff_eq.1 hname⟩
        · exact ⟨p, mem_addMissing_of_mem (List.mem_append_right _ List.mem_cons_self), rfl⟩
      · exact ih hmem

theorem mem_foldl_addMissing_of_mem (h : p ∈ present) : p ∈ lists.foldl addMissing present := by
  induction lists generalizing present with
  | nil => exact h
  | cons list lists ih => exact ih (mem_addMissing_of_mem h)

theorem mem_of_mem_foldl_addMissing (h : p ∈ lists.foldl addMissing present) :
    p ∈ present ∨ ∃ list ∈ lists, p ∈ list := by
  induction lists generalizing present with
  | nil => exact .inl h
  | cons list lists ih =>
      rcases ih h with hmem | ⟨other, hother, hmem⟩
      · rcases mem_of_mem_addMissing hmem with hmem | hmem
        · exact .inl hmem
        · exact .inr ⟨list, List.mem_cons_self, hmem⟩
      · exact .inr ⟨other, List.mem_cons_of_mem _ hother, hmem⟩

theorem record?_of_mem_lineage {depth : Nat} {entry : TypeKey × RecordDraft}
    (h : entry ∈ builder.lineage depth key) :
    builder.resolver.record? entry.1 = some entry.2 := by
  induction depth generalizing key with
  | zero => cases h
  | succ depth ih =>
      rw [lineage] at h
      split at h
      · cases h
      · rename_i draft hdraft
        rcases List.mem_cons.1 h with rfl | hmem
        · exact hdraft
        · split at hmem
          · cases hmem
          · exact ih hmem

/-- A property of a record type comes from a draft. -/
theorem exists_draft_of_mem (h : p ∈ builder.allProperties key) :
    ∃ k draft, builder.resolver.record? k = some draft ∧
      ∃ d ∈ draft.properties, p = builder.finishProperty k d := by
  unfold allProperties at h
  rcases mem_of_mem_foldl_addMissing (List.mem_mergeSort.1 h) with hmem | ⟨list, hlist, hmem⟩
  · cases hmem
  · obtain ⟨entry, hentry, rfl⟩ := List.mem_map.1 hlist
    obtain ⟨d, hd, rfl⟩ := List.mem_map.1 hmem
    exact ⟨entry.1, entry.2, record?_of_mem_lineage hentry, d, hd, rfl⟩

/-- A record type has a property of its own for each one in its draft. -/
theorem exists_property_of_draft (hdraft : builder.resolver.record? key = some draft)
    {d : PropertyDraft} (hd : d ∈ draft.properties) :
    ∃ p ∈ builder.allProperties key, p.name = d.name ∧ p.declaringType = key := by
  obtain ⟨depth, hdepth⟩ : ∃ depth, builder.resolver.records.length = depth + 1 := by
    refine Nat.exists_eq_succ_of_ne_zero fun hzero => ?_
    rw [Resolver.record?, List.length_eq_zero_iff.1 hzero] at hdraft
    cases hdraft
  obtain ⟨q, hq, hname⟩ : ∃ q ∈ addMissing [] (draft.properties.map (builder.finishProperty key)),
      q.name = d.name := exists_mem_addMissing (List.mem_map_of_mem hd)
  refine ⟨q, ?_, hname, ?_⟩
  · unfold allProperties
    rw [hdepth, lineage, hdraft]
    dsimp only
    rw [List.map_cons, List.foldl_cons]
    exact List.mem_mergeSort.2 (mem_foldl_addMissing_of_mem hq)
  · rcases mem_of_mem_addMissing hq with hmem | hmem
    · cases hmem
    · obtain ⟨d', -, rfl⟩ := List.mem_map.1 hmem
      rfl

/-! ## Closed models -/

theorem assemble_of_build (h : builder.build = .ok model) : builder.assemble = .ok model := by
  unfold build at h
  split at h
  · cases h
  · exact h

theorem build_eq_ok (h : builder.build = .ok model) :
    model.complexTypes = builder.complexTypes ∧ model.enumTypes = builder.resolver.enums ∧
      ∃ sets, builder.sets.mapM (finishSet builder.complexTypes) = .ok sets ∧
        model.sets = sets.foldl putSet [] := by
  obtain ⟨sets, hsets, h⟩ := bind_eq_ok.1 (assemble_of_build h)
  obtain rfl := pure_eq_ok.1 h
  exact ⟨rfl, rfl, sets, hsets, rfl⟩

theorem complexType?_build (h : builder.build = .ok model)
    (hdraft : builder.resolver.record? key = some draft) :
    model.complexType? key = some (builder.finishRecord key draft) := by
  rw [Model.complexType?, (build_eq_ok h).1, complexTypes]
  obtain ⟨front, back, hrecords, hfront⟩ := List.lookup_eq_some_iff.1 hdraft
  have hnone : (front.map fun entry => builder.finishRecord entry.1 entry.2).find?
      (fun type => type.key == key) = none := by
    rw [List.find?_eq_none]
    intro type htype
    obtain ⟨entry, hentry, rfl⟩ := List.mem_map.1 htype
    have hne := bne_iff_ne.1 (hfront entry hentry)
    simpa [finishRecord] using hne.symm
  rw [hrecords, List.map_append, List.find?_append, hnone, List.map_cons]
  simp [finishRecord]

theorem describes_of_collected (h : builder.build = .ok model) {type : EdmType}
    (hcollected : builder.resolver.Collected type) : model.Describes type := by
  induction type with
  | primitive => trivial
  | complex key =>
      obtain ⟨draft, hdraft⟩ := Option.isSome_iff_exists.1 hcollected
      rw [Model.Describes, complexType?_build h hdraft]
      rfl
  | enumeration key =>
      obtain ⟨type, htype, hkey⟩ := List.any_eq_true.1 hcollected
      rw [Model.Describes, Model.enumType?, (build_eq_ok h).2.1, List.find?_isSome]
      exact ⟨type, htype, hkey⟩
  | collection element ih => exact ih hcollected

theorem mem_of_mem_putSet {set : EntitySet} {sets present : List EntitySet}
    (h : set ∈ sets.foldl putSet present) : set ∈ present ∨ set ∈ sets := by
  induction sets generalizing present with
  | nil => exact .inl h
  | cons first sets ih =>
      rcases ih h with hmem | hmem
      · rcases List.mem_append.1 hmem with hmem | hmem
        · exact .inl (List.mem_filter.1 hmem).1
        · exact .inr (List.mem_cons.2 (.inl (List.mem_singleton.1 hmem)))
      · exact .inr (List.mem_cons_of_mem _ hmem)

theorem entityType_of_finishSet {types : List ComplexType} {draft : EntitySetDraft}
    {set : EntitySet} (h : finishSet types draft = .ok set) :
    set.entityType = draft.entityType := by
  unfold finishSet at h
  split at h
  · rw [← Except.ok.inj h]
  · split at h
    · rw [← Except.ok.inj h]
    · cases h

/-- A model that is built after any calls speaks of nothing that is not in it. -/
theorem closed_of_build (h : (afterCalls calls).build = .ok model) : model.Closed := by
  have hdrafts := draftsClosed_afterCalls calls
  obtain ⟨htypes, -, sets, hsets, hmodelSets⟩ := build_eq_ok h
  have hdescribes (k : TypeKey)
      (hk : (afterCalls calls).resolver.Collected (.complex k)) :
      model.Describes (.complex k) := describes_of_collected h hk
  refine ⟨fun type htype p hp => ?_, fun type htype base hbase => ?_, fun set hset => ?_⟩
  · rw [htypes] at htype
    obtain ⟨entry, -, rfl⟩ := List.mem_map.1 htype
    obtain ⟨k, draft, hdraft, d, hd, rfl⟩ := exists_draft_of_mem hp
    exact describes_of_collected h ((hdrafts _ (Resolver.mem_records hdraft)).1 d hd)
  · rw [htypes] at htype
    obtain ⟨entry, hentry, rfl⟩ := List.mem_map.1 htype
    exact hdescribes base ((hdrafts entry hentry).2 base hbase)
  · rw [hmodelSets] at hset
    rcases mem_of_mem_putSet hset with hmem | hmem
    · cases hmem
    · obtain ⟨draft, hdraft, hfinish⟩ := exists_of_mem_mapM hsets hmem
      rw [entityType_of_finishSet hfinish]
      exact hdescribes _ ((sound_afterCalls calls).sets draft hdraft)

/-! ## Calls that succeed -/

theorem runAll_cons (h : Call.runAll builder (call :: calls) = .ok after) :
    ∃ u next, call.run builder = (.ok u, next) ∧ Call.runAll next calls = .ok after := by
  rw [Call.runAll] at h
  cases hrun : call.run builder with
  | mk result next =>
      rw [hrun] at h
      cases result with
      | error e => cases h
      | ok u => exact ⟨u, next, rfl, h⟩

theorem afterCalls_of_runAll (h : Call.runAll .empty calls = .ok after) :
    after = afterCalls calls := by
  unfold afterCalls
  generalize empty = builder at h ⊢
  induction calls generalizing builder with
  | nil => exact (Except.ok.inj h).symm
  | cons call calls ih =>
      obtain ⟨u, next, hrun, hrest⟩ := runAll_cons h
      rw [List.foldl_cons, hrun]
      exact ih next hrest

/-- A call is refused for its name, or resolves its type and is answered by what comes of that. -/
theorem Call.run_resolves (call : Call) (builder : ModelBuilder) :
    (∃ name, (call.run builder).1 = .error (.failed (.configuration (.duplicateSet name)))) ∨
      ∃ result, (Resolver.resolve call.graph call.type).run.run builder.resolver
          = (result, (call.run builder).2.resolver) ∧
        ((∃ e, result = .error e ∧ (call.run builder).1 = .error e) ∨
          ∃ type, result = .ok type ∧ ((call.run builder).1 = .ok () ∨
            ∃ name, (call.run builder).1
              = .error (.failed (.configuration (.setNotRecord name type))))) := by
  cases call with
  | registerType graph type =>
      refine .inr ⟨((Resolver.resolve graph type).run.run builder.resolver).1, rfl, ?_⟩
      unfold run ModelBuilder.registerType
      dsimp only [Call.graph, Call.type]
      cases hrun : (Resolver.resolve graph type).run.run builder.resolver with
      | mk result r =>
          cases result with
          | error e => exact .inl ⟨e, rfl, rfl⟩
          | ok result => exact .inr ⟨result, rfl, .inl rfl⟩
  | register graph name type key capabilities =>
      unfold run ModelBuilder.register ModelBuilder.registerType
      dsimp only [Call.graph, Call.type]
      split
      · exact .inl ⟨name, rfl⟩
      · right
        cases hrun : (Resolver.resolve graph type).run.run builder.resolver with
        | mk result r =>
            cases result with
            | error e => exact ⟨_, rfl, .inl ⟨e, rfl, rfl⟩⟩
            | ok result =>
                cases result with
                | complex entityType => exact ⟨_, rfl, .inr ⟨_, rfl, .inl rfl⟩⟩
                | _ => exact ⟨_, rfl, .inr ⟨_, rfl, .inr ⟨name, rfl⟩⟩⟩

/-- A call that succeeds has resolved its type. -/
theorem Call.resolve_of_ok {u : Unit} (h : call.run builder = (.ok u, after)) :
    ∃ type, (Resolver.resolve call.graph call.type).run.run builder.resolver
      = (.ok type, after.resolver) := by
  have hcases := call.run_resolves builder
  rw [h] at hcases
  obtain ⟨name, herror⟩ | ⟨result, hresolve, ⟨e, -, herror⟩ | ⟨type, rfl, -⟩⟩ := hcases
  · cases herror
  · cases herror
  · exact ⟨type, hresolve⟩

/-- Calls that succeed leave no type waiting, and have settled the types they were made about. -/
theorem complete_of_runAll (hgraph : ∀ call ∈ calls, call.graph = graph)
    (h : Call.runAll builder calls = .ok after)
    (hcomplete : builder.resolver.CompleteBut graph fun _ => False) :
    (after.resolver.CompleteBut graph fun _ => False) ∧
      builder.resolver.Keeps after.resolver ∧
      ∀ call ∈ calls, ∀ k, call.type.named? = some k →
        Resolver.Settled graph after.resolver k := by
  induction calls generalizing builder with
  | nil =>
      obtain rfl := Except.ok.inj h
      exact ⟨hcomplete, .refl _, by simp⟩
  | cons call calls ih =>
      obtain ⟨u, next, hrun, hrest⟩ := runAll_cons h
      obtain ⟨hfirst, hothers⟩ := List.forall_mem_cons.1 hgraph
      obtain ⟨type, hresolve⟩ := call.resolve_of_ok hrun
      rw [hfirst] at hresolve
      obtain ⟨hkeeps, hnext, hsettled⟩ := Resolver.typeOf_ensures (Resolver.resolveNamed_ensures _)
        hcomplete call.type type next.resolver hresolve
      obtain ⟨hlast, hmore, hcalls⟩ := ih hothers hrest hnext
      exact ⟨hlast, hkeeps.trans hmore,
        List.forall_mem_cons.2 ⟨fun k hk => (hsettled k hk).mono hmore, hcalls⟩⟩

/-- A type that is reached from types that are settled is settled. -/
theorem settled_of_refers {r : Resolver} {start : TypeKey}
    (hcomplete : r.CompleteBut graph fun _ => False) (hstart : r.Settled graph start)
    (h : Relation.ReflTransGen graph.Refers start key) : r.Settled graph key := by
  induction h with
  | refl => exact hstart
  | @tail key k _ hrefers ih =>
      cases hshape : graph.shape key with
      | record shape =>
          have hknown := (ih key .refl).resolve_right (by simp [hshape])
          exact (hcomplete key hknown id shape hshape).2 k hrefers
      | enumeration shape =>
          obtain ⟨type, htype, -⟩ := hrefers
          rw [HostGraph.declarations, hshape] at htype
          cases htype
      | plain plain =>
          obtain ⟨type, htype, hk⟩ := hrefers
          rw [HostGraph.declarations, hshape] at htype
          obtain rfl := List.mem_singleton.1 htype
          exact ih.of_wraps ⟨plain, hshape, hk⟩

/-- A call has no end only if resolving its type has none. -/
theorem Call.resolve_endless (h : (call.run builder).1 = .error .endless) :
    ((Resolver.resolve call.graph call.type).run.run builder.resolver).1 = .error .endless := by
  obtain ⟨name, heq⟩ | ⟨result, hresolve, ⟨e, rfl, heq⟩ | ⟨type, -, heq | ⟨name, heq⟩⟩⟩ :=
    call.run_resolves builder
  · cases heq.symm.trans h
  · obtain rfl := Except.error.inj (heq.symm.trans h)
    rw [hresolve]
  · cases heq.symm.trans h
  · cases heq.symm.trans h

/-- Calls come to an end exactly if no type needs itself. -/
theorem Call.ends_iff (graph : HostGraph) :
    (∀ (builder : ModelBuilder) (call : Call), call.graph = graph →
      (call.run builder).1 ≠ .error .endless) ↔
    ∀ key, ¬Relation.TransGen graph.Needs key key := by
  constructor
  · intro hends key hcycle
    refine hends .empty (.registerType graph (.named key)) rfl ?_
    have hrun : (Resolver.resolve graph (.named key)).run.run .empty = (.error .endless, .empty) :=
      Resolver.resolveNamed_empty_endless hcycle _
    unfold run ModelBuilder.registerType ModelBuilder.empty
    dsimp only
    rw [hrun]
    rfl
  · rintro hcycles builder call rfl hendless
    have hall : call.graph.Encloses fun _ => True := fun _ _ _ _ => trivial
    obtain ⟨key, -, hcycle⟩ := (Resolver.resolve_agree hall (fun _ _ => trivial) builder.resolver
      (Nat.le_refl _)).ends (Call.resolve_endless hendless)
    exact hcycles key hcycle

/-- Resolving types leads to a model in which nothing is missing, and comes to an end if no type
needs itself.

The limit that is set for resolving a type is of no account: any larger one gives the same, also
where there is no result.  Every call about a graph comes to an end, in any state, exactly if no
type of the graph needs itself before anything is entered for it.  A model that is built after calls
that all succeed has the types it speaks of in it, and each record type that can be reached from the
type of a call, with a property of its own for every field. -/
theorem build_complete (graph : HostGraph) :
    (∀ (type : HostType) (r : Resolver) (depth : Nat), Resolver.maxDepth graph ≤ depth →
      (Resolver.typeOf (Resolver.resolveNamed graph depth) type).run.run r
        = (Resolver.resolve graph type).run.run r) ∧
    ((∀ (builder : ModelBuilder) (call : Call), call.graph = graph →
        (call.run builder).1 ≠ .error .endless) ↔
      ∀ key, ¬Relation.TransGen graph.Needs key key) ∧
    ∀ (calls : List Call) (builder : ModelBuilder) (model : Model),
      (∀ call ∈ calls, call.graph = graph) → Call.runAll .empty calls = .ok builder →
      builder.build = .ok model →
      model.Closed ∧ ∀ call ∈ calls, ∀ key, graph.Reaches call.type key →
        ∀ shape, graph.shape key = .record shape →
          ∃ type, model.complexType? key = some type ∧
            ∀ field ∈ shape.fields, ∃ p ∈ type.properties,
              p.name = field.name ∧ p.declaringType = key := by
  refine ⟨fun type r depth hdepth => ?_, Call.ends_iff graph,
    fun calls builder model hgraph hcalls hbuild => ?_⟩
  · have hall : graph.Encloses fun _ => True := fun _ _ _ _ => trivial
    exact (Resolver.resolve_agree hall (fun _ _ => trivial) r hdepth).same.symm
  · obtain ⟨hcomplete, -, hsettled⟩ := complete_of_runAll hgraph hcalls
      (fun key hkey => absurd rfl hkey)
    obtain rfl := afterCalls_of_runAll hcalls
    refine ⟨closed_of_build hbuild, fun call hcall key hreaches shape hshape => ?_⟩
    obtain ⟨start, hstart, hpath⟩ := hreaches
    have hkey := (settled_of_refers hcomplete (hsettled call hcall start hstart) hpath key
      .refl).resolve_right (by simp [hshape])
    obtain ⟨⟨draft, hdraft, hfields⟩, -⟩ := hcomplete key hkey id shape hshape
    refine ⟨_, complexType?_build hbuild hdraft, fun field hfield => ?_⟩
    obtain ⟨d, hd, hname⟩ := hfields field hfield
    obtain ⟨p, hp, hsame, hdeclared⟩ := exists_property_of_draft hdraft hd
    exact ⟨p, hp, hsame.trans hname, hdeclared⟩

/-- The base of the registered type refers back to it. -/
theorem build_complete_pedigree :
    (∀ builder call, Call.graph call = Sample.pedigreeGraph →
      (call.run builder).1 ≠ .error .endless) ∧
    ∃ builder model,
      Call.runAll .empty
          [.register Sample.pedigreeGraph "Dogs" (.named Sample.dogKey) none .none] = .ok builder ∧
        builder.build = .ok model ∧ model.Closed ∧
        ∃ type, model.complexType? Sample.animalKey = some type ∧
          ∃ p ∈ type.properties, p.name = "Rival" ∧ p.declaringType = Sample.animalKey := by
  obtain ⟨-, hends, hcomplete⟩ := build_complete Sample.pedigreeGraph
  -- What a dog extends is an animal, which extends nothing.
  have hcycles := Sample.pedigreeGraph.not_cycle_of_rank
    (fun key => if key = Sample.dogKey then 1 else 0) (by decide)
  obtain ⟨builder, hcalls⟩ : ∃ builder, Call.runAll .empty
      [.register Sample.pedigreeGraph "Dogs" (.named Sample.dogKey) none .none] = .ok builder :=
    ⟨_, rfl⟩
  obtain ⟨model, hbuild⟩ : ∃ model, builder.build = .ok model := by
    obtain rfl := Except.ok.inj hcalls
    exact ⟨_, rfl⟩
  obtain ⟨hclosed, hreached⟩ := hcomplete _ builder model (by simp [Call.graph]) hcalls hbuild
  have hreaches : Sample.pedigreeGraph.Reaches (.named Sample.dogKey) Sample.animalKey :=
    ⟨Sample.dogKey, rfl, .single (HostGraph.refers_of_base rfl rfl rfl)⟩
  obtain ⟨type, htype, hfields⟩ :=
    hreached _ List.mem_cons_self Sample.animalKey hreaches _ rfl
  exact ⟨hends.2 hcycles, builder, model, hcalls, hbuild, hclosed, type, htype,
    hfields _ List.mem_cons_self⟩

def packKey : TypeKey := ⟨"Pack"⟩

def forestKey : TypeKey := ⟨"Forest"⟩

/-- A pack extends a sequence of packs, and a forest is a sequence of forests. -/
def packGraph : HostGraph :=
  ⟨[(packKey, .record ⟨"Sample", "Pack", some (.sequence (.named packKey)), []⟩),
    (forestKey, .plain (.sequence (.named forestKey)))]⟩

/-- No type is its own ancestor, and yet neither a pack nor a forest is ever resolved, however deep
one goes. -/
theorem endless_packGraph :
    packGraph.Acyclic ∧
      (∀ key, key = packKey ∨ key = forestKey → ∀ depth,
        (Resolver.typeOf (Resolver.resolveNamed packGraph depth) (.named key)).run.run .empty
          = (.error .endless, .empty)) ∧
      (Call.register packGraph "Packs" (.named packKey) none .none).run .empty
        = (.error .endless, .empty) := by
  have hbase (key : TypeKey) : packGraph.base? key = none := by
    by_cases hpack : key = packKey
    · rw [hpack]
      rfl
    · by_cases hforest : key = forestKey
      · rw [hforest]
        rfl
      · have hnone : packGraph.entries.lookup key = none := by
          rw [packGraph, List.lookup_cons, beq_false_of_ne hpack, List.lookup_cons,
            beq_false_of_ne hforest, List.lookup_nil]
        rw [HostGraph.base?, HostGraph.shape, hnone]
        rfl
  refine ⟨fun key hcycle => ?_, ?_, rfl⟩
  · obtain ⟨parent, hparent, -⟩ := Relation.TransGen.head'_iff.1 hcycle
    rw [hbase] at hparent
    cases hparent
  · rintro key (rfl | rfl) depth
    · exact Resolver.resolveNamed_empty_endless
        (.single (HostGraph.needs_of_base rfl rfl rfl)) depth
    · exact Resolver.resolveNamed_empty_endless
        (.single (HostGraph.needs_of_wraps ⟨_, rfl, rfl⟩)) depth

end ModelBuilder

namespace Catalog

/-- What needs another type first is an employee, and a person needs none. -/
theorem not_needs_itself (key : TypeKey) : ¬Relation.TransGen graph.Needs key key :=
  graph.not_cycle_of_rank (fun key => if key = employeeKey then 1 else 0) (by decide) key

/-- Registering types of the catalog comes to an end. -/
theorem registerAll_ne_endless (builder : ModelBuilder)
    (sets : List (String × TypeKey × Capabilities)) :
    registerAll builder sets ≠ .error .endless := by
  induction sets generalizing builder with
  | nil => exact fun h => by cases h
  | cons set sets ih =>
      obtain ⟨name, key, capabilities⟩ := set
      have hends := (ModelBuilder.Call.ends_iff graph).2 not_needs_itself builder
        (.register graph name (.named key) (some "Id") capabilities) rfl
      rw [ModelBuilder.Call.run] at hends
      rw [registerAll]
      cases hrun : builder.register graph name (.named key) (some "Id") capabilities with
      | mk result next =>
          rw [hrun] at hends
          cases result with
          | ok u => exact ih next
          | error e => exact fun h => hends (congrArg Except.error (Except.error.inj h))

end Catalog

end EntityQuery
