import EntityQuery.Proofs.Result
import EntityQuery.Proofs.Sample
import EntityQuery.Proofs.Schema.Lineage

/-!
# Registering types

A call that fails changes no entity set and nothing about the types that have been collected, so the
model loses nothing by it.  But what the call collected until it failed stays, and the record whose
field could not be resolved stays without properties.  The same call is then answered by what it
left, and succeeds.
-/

namespace EntityQuery

namespace ModelBuilder

/-- A call that registers an entity set or a type. -/
inductive Call
  | register (graph : HostGraph) (name : String) (type : HostType) (key : Option String)
      (capabilities : Capabilities)
  | registerType (graph : HostGraph) (type : HostType)

/-- The types that a call is made about. -/
def Call.graph : Call → HostGraph
  | register graph _ _ _ _ | registerType graph _ => graph

/-- The declaration that a call resolves. -/
def Call.type : Call → HostType
  | register _ _ type _ _ | registerType _ type => type

/-- The outcome of a call, and the builder behind it. -/
def Call.run (builder : ModelBuilder) : Call → Except Resolver.Stop Unit × ModelBuilder
  | register graph name type key capabilities =>
    builder.register graph name type key capabilities
  | registerType graph type =>
    ((builder.registerType graph type).1.map fun _ => (), (builder.registerType graph type).2)

/-- The builder behind calls, whatever comes of them. -/
def afterCalls (calls : List Call) : ModelBuilder :=
  calls.foldl (fun builder call => (call.run builder).2) .empty

variable {builder after : ModelBuilder} {call : Call} {r : Resolver} {graph : HostGraph}
  {key : TypeKey} {e : Resolver.Stop}

/-! ## What a call does -/

/-- A builder whose records have an end to the types they extend and whose entity sets are of
collected records. -/
structure Sound (builder : ModelBuilder) : Prop where
  grounded : builder.resolver.Grounded
  sets : ∀ set ∈ builder.sets, (builder.resolver.record? set.entityType).isSome = true

/-- A call resolves a type, after which it may add an entity set and succeed. -/
theorem Call.run_cases (builder : ModelBuilder) (call : Call) :
    ∃ r, Resolver.Steps call.graph (fun key => builder.resolver.known? key = none)
        builder.resolver r ∧
      ((call.run builder).2 = { builder with resolver := r } ∨
        (call.run builder).1 = .ok () ∧ ∃ set : EntitySetDraft,
          (r.record? set.entityType).isSome = true ∧
            (call.run builder).2 = ⟨r, builder.sets ++ [set]⟩) := by
  cases call with
  | registerType graph type =>
      exact ⟨_, (Resolver.resolve_leads graph type builder.resolver).1, .inl rfl⟩
  | register graph name type key capabilities =>
      obtain ⟨hsteps, hresult⟩ := Resolver.resolve_leads graph type builder.resolver
      unfold run ModelBuilder.register
      dsimp only
      split
      · exact ⟨builder.resolver, .refl, .inl rfl⟩
      · refine ⟨_, hsteps, ?_⟩
        unfold ModelBuilder.registerType
        cases hrun : (Resolver.resolve graph type).run.run builder.resolver with
        | mk result r =>
            rw [hrun] at hresult
            cases result with
            | error e => exact .inl rfl
            | ok result =>
                cases result with
                | complex entityType =>
                    exact .inr ⟨rfl, ⟨name, entityType, key, capabilities⟩, (hresult _ rfl).1, rfl⟩
                | _ => exact .inl rfl

theorem Sound.run (h : Sound builder) (call : Call) : Sound (call.run builder).2 := by
  obtain ⟨r, hsteps, hcases⟩ := call.run_cases builder
  have hground : r.Grounded := (hsteps.grounded h.grounded).1
  have hsets : ∀ set ∈ builder.sets, (r.record? set.entityType).isSome = true :=
    fun set hset => hsteps.keeps.records _ (h.sets set hset)
  rcases hcases with heq | ⟨-, set, hset, heq⟩
  · rw [heq]
    exact ⟨hground, hsets⟩
  · rw [heq]
    refine ⟨hground, fun other hother => ?_⟩
    rcases List.mem_append.1 hother with hmem | hmem
    · exact hsets other hmem
    · obtain rfl := List.mem_singleton.1 hmem
      exact hset

theorem sound_empty : Sound .empty where
  grounded _ h := by cases h
  sets _ h := by cases h

/-- What holds of an empty builder and stays so under each call holds after the calls. -/
theorem afterCalls_induction {P : ModelBuilder → Prop} {calls : List Call} (hempty : P .empty)
    (hrun : ∀ builder, P builder → ∀ call ∈ calls, P (call.run builder).2) :
    P (afterCalls calls) := List.foldlRecOn calls _ hempty hrun

theorem sound_afterCalls (calls : List Call) : Sound (afterCalls calls) :=
  afterCalls_induction sound_empty fun _ h call _ => h.run call

/-! ## Building -/

/-- The builder looks far enough up a chain of types. -/
theorem lineage_eq {chain : List (TypeKey × RecordDraft)}
    (h : builder.resolver.Ancestry key chain) {depth : Nat} (hdepth : chain.length ≤ depth) :
    builder.lineage depth key = chain := by
  induction h generalizing depth with
  | last hkey hbase =>
      rw [List.length_singleton] at hdepth
      obtain ⟨depth, rfl⟩ : ∃ d, depth = d + 1 := ⟨depth - 1, by omega⟩
      rw [lineage, hkey]
      simp [hbase]
  | step hkey hbase _ ih =>
      rw [List.length_cons] at hdepth
      obtain ⟨depth, rfl⟩ : ∃ d, depth = d + 1 := ⟨depth - 1, by omega⟩
      rw [lineage, hkey]
      simp only [hbase]
      rw [ih (by omega)]

/-- No record type inherits from itself, so that the model can be put together. -/
theorem Sound.build_eq (h : Sound builder) : builder.build = builder.assemble := by
  have hnone : builder.resolver.records.find? (fun entry => builder.inheritsFromItself entry.1)
      = none := by
    rw [List.find?_eq_none]
    intro entry hentry
    obtain ⟨chain, hchain⟩ := h.grounded entry.1 (Resolver.isSome_record?_of_mem hentry)
    have hlength := hchain.length_le
    rw [inheritsFromItself, lineage_eq hchain (Nat.le_succ_of_le hlength)]
    simpa using hlength
  rw [build, hnone]

/-! ## Models with further types -/

/-- Further types change nothing about a record that was there. -/
theorem allProperties_extends (h : Sound builder) (hextends : builder.resolver.Extends r)
    (hkey : (builder.resolver.record? key).isSome = true) :
    ({ builder with resolver := r } : ModelBuilder).allProperties key
      = builder.allProperties key := by
  obtain ⟨chain, hchain⟩ := h.grounded key hkey
  have hbefore := lineage_eq hchain hchain.length_le
  have hlater := hchain.mono hextends
  have hafter : ({ builder with resolver := r } : ModelBuilder).lineage r.records.length key
      = chain := lineage_eq hlater hlater.length_le
  unfold allProperties
  rw [hbefore, hafter]
  rfl

theorem complexTypes_extends (h : Sound builder) (hextends : builder.resolver.Extends r) :
    ∃ types, (∀ type ∈ types, builder.resolver.known? type.key = none) ∧
      ({ builder with resolver := r } : ModelBuilder).complexTypes
        = types ++ builder.complexTypes := by
  obtain ⟨new, hnew, hunknown⟩ := hextends.records
  refine ⟨new.map fun entry =>
    ({ builder with resolver := r } : ModelBuilder).finishRecord entry.1 entry.2, ?_, ?_⟩
  · intro type htype
    obtain ⟨entry, hentry, rfl⟩ := List.mem_map.1 htype
    exact hunknown entry hentry
  · rw [complexTypes, hnew, List.map_append, complexTypes]
    congr 1
    refine List.map_congr_left fun entry hentry => ?_
    simp only [finishRecord,
      allProperties_extends h hextends (Resolver.isSome_record?_of_mem hentry)]

/-- The key of an entity set is looked up among the types that were there. -/
theorem finishSet_append {types more : List ComplexType} {draft : EntitySetDraft}
    (hmore : ∀ type ∈ more, type.key ≠ draft.entityType) :
    finishSet (more ++ types) draft = finishSet types draft := by
  have hnone : more.find? (fun type => type.key == draft.entityType) = none := by
    rw [List.find?_eq_none]
    intro type htype
    simpa using hmore type htype
  unfold finishSet
  rw [List.find?_append, hnone, Option.none_or]

/-- Further types come to the model, which is the same otherwise. -/
theorem build_extends (h : Sound builder) (hextends : builder.resolver.Extends r)
    (hafter : Sound { builder with resolver := r }) :
    ∃ types enums names, (∀ type ∈ types, builder.resolver.known? type.key = none) ∧
      (∀ type ∈ enums, builder.resolver.known? type.key = none) ∧
      ({ builder with resolver := r } : ModelBuilder).build = builder.build.map fun model =>
        ⟨model.sets, types ++ model.complexTypes, model.enumTypes ++ enums,
          model.names ++ names⟩ := by
  obtain ⟨types, hunknown, htypes⟩ := complexTypes_extends h hextends
  obtain ⟨enums, henums, hunknownEnums⟩ := hextends.enums
  obtain ⟨names, hnames⟩ := hextends.names
  refine ⟨types, enums, names, hunknown, hunknownEnums, ?_⟩
  have hsets : builder.sets.mapM (finishSet (types ++ builder.complexTypes))
      = builder.sets.mapM (finishSet builder.complexTypes) := by
    refine mapM_congr fun set hset => finishSet_append fun type htype heq => ?_
    have hnone := (Resolver.known?_eq_none_iff.1 (hunknown type htype)).1
    have hsome := h.sets set hset
    rw [← heq, hnone] at hsome
    cases hsome
  rw [h.build_eq, hafter.build_eq]
  unfold assemble
  dsimp only
  rw [htypes, hsets, henums, ← hnames]
  cases builder.sets.mapM (finishSet builder.complexTypes) <;> rfl

/-! ## Calls that fail -/

/-- A failed call resolves types and does nothing else. -/
theorem Call.steps_of_error (h : call.run builder = (.error e, after)) :
    ∃ r, Resolver.Steps call.graph (fun key => builder.resolver.known? key = none)
      builder.resolver r ∧ after = { builder with resolver := r } := by
  obtain ⟨r, hsteps, hcases⟩ := call.run_cases builder
  rw [h] at hcases
  rcases hcases with hafter | ⟨hok, -⟩
  · exact ⟨r, hsteps, hafter⟩
  · cases hok

/-- A failed call adds types and names at most, to the builder and to the model.  If there are no
new types, the builder is the same as before. -/
theorem run_error (calls : List Call) (h : call.run (afterCalls calls) = (.error e, after)) :
    after.sets = (afterCalls calls).sets ∧
      (afterCalls calls).resolver.Extends after.resolver ∧
      ((∀ key, (afterCalls calls).resolver.known? key = none → after.resolver.known? key = none) →
        after = afterCalls calls) ∧
      ∃ types enums names,
        (∀ type ∈ types, (afterCalls calls).resolver.known? type.key = none) ∧
        (∀ type ∈ enums, (afterCalls calls).resolver.known? type.key = none) ∧
        after.build = (afterCalls calls).build.map fun model =>
          ⟨model.sets, types ++ model.complexTypes, model.enumTypes ++ enums,
            model.names ++ names⟩ := by
  have hsound := (sound_afterCalls calls).run call
  rw [h] at hsound
  obtain ⟨r, hsteps, rfl⟩ := Call.steps_of_error h
  have hextends := hsteps.extends
  refine ⟨rfl, hextends, fun hsilent => ?_,
    build_extends (sound_afterCalls calls) hextends hsound⟩
  rcases hextends.fresh with rfl | ⟨key, hunknown, hknown⟩
  · rfl
  · exact absurd (hsilent key hunknown) hknown

/-- A call that fails at the second field of a record. -/
theorem run_error_broken :
    ∃ after types enums names,
      (Call.register Sample.brokenGraph "Broken" (.named Sample.brokenKey) none .none).run
          (afterCalls [])
        = (.error (.failed (.configuration
            (.unsupportedGeneric "HashMap" 2 "HashMap<i32, i32>"))), after) ∧
      after.sets = [] ∧
      after.build = (afterCalls []).build.map fun model =>
        ⟨model.sets, types ++ model.complexTypes, model.enumTypes ++ enums,
          model.names ++ names⟩ := by
  have hrun : (Call.register Sample.brokenGraph "Broken" (.named Sample.brokenKey) none .none).run
      (afterCalls []) = (.error (.failed (.configuration
        (.unsupportedGeneric "HashMap" 2 "HashMap<i32, i32>"))),
          (Sample.registerBroken .empty).2) := rfl
  obtain ⟨hsets, -, -, types, enums, names, -, -, hbuild⟩ := run_error [] hrun
  exact ⟨_, types, enums, names, hrun, hsets, hbuild⟩

/-- A record is registered without a look at its fields if it has been collected. -/
theorem register_of_known {shape : RecordShape} {name : String} {keyName : Option String}
    {capabilities : Capabilities}
    (hfree : (builder.sets.any fun set => Text.eqIgnoringAsciiCase set.name name) = false)
    (hshape : graph.shape key = .record shape)
    (hknown : (builder.resolver.record? key).isSome = true) :
    (builder.register graph name (.named key) keyName capabilities).1 = .ok () := by
  have hfound : builder.resolver.known? key = some (.complex key) := by
    rw [Resolver.known?, if_pos hknown]
  have hresolve : (Resolver.resolve graph (.named key)).run.run builder.resolver
      = (.ok (.complex key), builder.resolver) := by
    unfold Resolver.resolve Resolver.typeOf Resolver.maxDepth Resolver.resolveNamed
    rw [hshape]
    dsimp only
    rw [Resolver.reuse, Resolver.run_bind, Resolver.run_get]
    dsimp only
    rw [hfound]
    rfl
  rw [register, if_neg (by simp [hfree]), registerType, hresolve]

/-- A record that a failed call has left behind is accepted when the call is made again. -/
theorem register_again {name : String} {keyName : Option String} {capabilities : Capabilities}
    (h : builder.register graph name (.named key) keyName capabilities = (.error e, after))
    (hunknown : builder.resolver.known? key = none)
    (hleft : (after.resolver.record? key).isSome = true) :
    (after.register graph name (.named key) keyName capabilities).1 = .ok () := by
  have hcall : (Call.register graph name (.named key) keyName capabilities).run builder
      = (.error e, after) := h
  obtain ⟨r, hsteps, rfl⟩ := Call.steps_of_error hcall
  have hnone := (Resolver.known?_eq_none_iff.1 hunknown).1
  obtain ⟨shape, hshape⟩ := hsteps.exists_shape hnone hleft
  refine register_of_known ?_ hshape hleft
  unfold register at h
  split at h
  · -- A call for a name that is taken leaves nothing behind.
    obtain rfl : builder.resolver = r := congrArg resolver (Prod.mk.inj h).2
    rw [hnone] at hleft
    cases hleft
  · rename_i hfree
    simpa using hfree

/-- A type that the model has no counterpart for is refused the first time and accepted the second,
as a record without properties. -/
theorem retry_broken :
    (Sample.registerBroken .empty).1
        = .error (.failed (.configuration
            (.unsupportedGeneric "HashMap" 2 "HashMap<i32, i32>"))) ∧
      (Sample.registerBroken (Sample.registerBroken .empty).2).1 = .ok () ∧
      (Sample.registerBroken .empty).2.resolver.record? Sample.brokenKey
        = some ⟨"Sample", "Broken", none, []⟩ := ⟨rfl, rfl, rfl⟩

end ModelBuilder

end EntityQuery
