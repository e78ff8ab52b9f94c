import EntityQuery.Proofs.Schema.Mapping

/-!
# What failed calls leave behind

Resolving may fail with records on the way, and what it has collected stays.  Still nothing in it is
made up: a record is there as its shape says, or it is one that has been entered and has no
properties, as when one of its fields turned out to have no counterpart (`Traced`).  This holds
after any calls about one graph, whatever came of them (`traced_afterCalls`).
-/

namespace EntityQuery

namespace HostGraph

/-- A draft of a shape, which has all its properties or is still without any. -/
def Sketches (graph : HostGraph) (shape : RecordShape) (draft : RecordDraft) : Prop :=
  graph.draft? shape = some draft ∨
    graph.baseKey? shape = some draft.base ∧ draft.properties = []

theorem draft?_eq_some {graph : HostGraph} {shape : RecordShape} {draft : RecordDraft} :
    graph.draft? shape = some draft ↔ ∃ base properties, graph.baseKey? shape = some base ∧
      shape.fields.mapM graph.fieldDraft? = some properties ∧
        draft = ⟨shape.space, shape.name, base,
          properties.mergeSort fun a b => decide (a.name ≤ b.name)⟩ := by
  simp only [draft?, Option.bind_eq_some_iff, Option.some.injEq]
  constructor
  · rintro ⟨base, hbase, properties, hproperties, hdraft⟩
    exact ⟨base, properties, hbase, hproperties, hdraft.symm⟩
  · rintro ⟨base, properties, hbase, hproperties, hdraft⟩
    exact ⟨base, hbase, properties, hproperties, hdraft.symm⟩

theorem Sketches.base {graph : HostGraph} {shape : RecordShape} {draft : RecordDraft}
    (h : graph.Sketches shape draft) : graph.baseKey? shape = some draft.base := by
  rcases h with hdraft | ⟨hbase, -⟩
  · obtain ⟨base, properties, hbase, -, rfl⟩ := draft?_eq_some.1 hdraft
    exact hbase
  · exact hbase

end HostGraph

namespace Resolver

variable {graph : HostGraph} {r r' named : Resolver} {key : TypeKey} {fullName : String}
  {shape : RecordShape} {draft : RecordDraft}

/-- Everything that has been collected goes back to a shape. -/
structure Traced (graph : HostGraph) (r : Resolver) : Prop where
  records : ∀ key draft, r.record? key = some draft →
    ∃ shape, graph.shape key = .record shape ∧ graph.Sketches shape draft
  enums : ∀ type ∈ r.enums, ∃ shape, graph.shape type.key = .enumeration shape

theorem traced_empty : Traced graph .empty where
  records _ _ h := by cases h
  enums _ h := by cases h

/-- A type that has been collected is what its shape says. -/
theorem Traced.of_known (h : Traced graph r) {type : EdmType} (hknown : r.known? key = some type) :
    graph.namedType? key = some type := by
  obtain ⟨hcollected, rfl | rfl⟩ := known?_eq_some hknown
  · obtain ⟨draft, hdraft⟩ := Option.isSome_iff_exists.1 hcollected
    obtain ⟨shape, hshape, -⟩ := h.records key draft hdraft
    exact HostGraph.namedType?_record hshape
  · obtain ⟨type, htype, hkey⟩ := List.any_eq_true.1 hcollected
    obtain rfl := beq_iff_eq.1 hkey
    obtain ⟨shape, hshape⟩ := h.enums type htype
    exact HostGraph.namedType?_enumeration hshape

theorem Traced.putRecord (h : Traced graph r) (hrecords : named.records = r.records)
    (henums : named.enums = r.enums) (hshape : graph.shape key = .record shape)
    (hdraft : graph.Sketches shape draft) : Traced graph (named.putRecord key draft) where
  records k other hother := by
    rw [record?_putRecord] at hother
    split at hother
    · rename_i heq
      rw [heq, ← Option.some.inj hother]
      exact ⟨shape, hshape, hdraft⟩
    · rw [record?, hrecords] at hother
      exact h.records k other hother
  enums type htype := h.enums type (henums ▸ htype)

theorem Traced.putEnum (h : Traced graph r) (hrecords : named.records = r.records)
    (henums : named.enums = r.enums) {shape : EnumShape}
    (hshape : graph.shape key = .enumeration shape) :
    Traced graph (named.putEnum (shape.toEnumType key)) where
  records k draft hdraft := by
    rw [Resolver.putEnum, record?, hrecords] at hdraft
    exact h.records k draft hdraft
  enums type htype := by
    rw [Resolver.putEnum, henums] at htype
    rcases List.mem_append.1 htype with hmem | hmem
    · exact h.enums type hmem
    · obtain rfl := List.mem_singleton.1 hmem
      exact ⟨shape, hshape⟩

/-! ## Computations -/

/-- A computation follows the shapes: whatever comes of it, what has been collected goes back to
them, and if it succeeds then with a value that they give. -/
def Follows (graph : HostGraph) {α : Type} (r : Resolver) (x : ResolverM α)
    (value : Option α) : Prop :=
  Traced graph (x.run.run r).2 ∧ ∀ a, (x.run.run r).1 = .ok a → value = some a

namespace Follows

variable {α β : Type} {a : α} {x : ResolverM α} {f : α → ResolverM β} {value : Option α}
  {g : α → Option β} {result : Option β}

theorem pure (h : Traced graph r) : Follows graph r (Pure.pure a) (some a) :=
  ⟨h, fun _ hb => congrArg some (Except.ok.inj hb)⟩

theorem throw (h : Traced graph r) (e : Stop) :
    Follows graph r (MonadExcept.throw e : ResolverM α) value :=
  ⟨h, fun _ hb => by cases hb⟩

theorem bind (h : Follows graph r x value)
    (hf : ∀ a r', value = some a → Traced graph r' → Follows graph r' (f a) (g a)) :
    Follows graph r (x >>= f) (value.bind g) := by
  obtain ⟨htraced, hvalue⟩ := h
  unfold Follows
  rw [run_bind]
  cases hrun : x.run.run r with
  | mk result r' =>
      rw [hrun] at htraced hvalue
      cases result with
      | error e => exact ⟨htraced, fun b hb => by cases hb⟩
      | ok a =>
          obtain rfl := hvalue a rfl
          exact hf a r' rfl htraced

/-- Reading the state. -/
theorem get_bind {f : Resolver → ResolverM β} (h : Follows graph r (f r) result) :
    Follows graph r (get >>= f) result := h

/-- Writing the state. -/
theorem modify_bind {change : Resolver → Resolver} {f : Unit → ResolverM β}
    (h : Follows graph (change r) (f ()) result) :
    Follows graph r (modify change >>= f) result := h

/-- Taking a name, which changes no record and no enum type. -/
theorem claim_bind {f : Unit → ResolverM β} (hr : Traced graph r)
    (h : ∀ named, named.records = r.records → named.enums = r.enums →
      Follows graph named (f ()) result) :
    Follows graph r (claimName fullName key >>= f) result := by
  unfold Follows
  rw [run_bind, run_claimName]
  cases hclaim : r.claim fullName key with
  | error e => exact ⟨hr, fun b hb => by cases hb⟩
  | ok named =>
      obtain ⟨hrecords, henums, -⟩ := claim_eq_ok hclaim
      exact h named hrecords henums

/-- A list of computations follows the shapes if each of them does. -/
theorem mapM {f : α → ResolverM β} {g : α → Option β} {as : List α} (hr : Traced graph r)
    (h : ∀ a r', Traced graph r' → Follows graph r' (f a) (g a)) :
    Follows graph r (as.mapM f) (as.mapM g) := by
  induction as generalizing r with
  | nil => exact .pure hr
  | cons a as ih =>
      rw [List.mapM_cons, List.mapM_cons]
      exact (h a r hr).bind fun b r' _ hr' => (ih hr').bind fun bs r'' _ hr'' => .pure hr''

/-- A value that is the only one there can be. -/
theorem of_unique (h : Follows graph r x value) (hvalue : ∀ b, value = some b → b = a) :
    Follows graph r x (some a) :=
  ⟨h.1, fun b hb => congrArg some (hvalue b (h.2 b hb)).symm⟩

end Follows

/-! ## Resolving -/

variable {inner : TypeKey → ResolverM EdmType}

/-- Resolving named types follows their shapes. -/
def NamedFollows (graph : HostGraph) (inner : TypeKey → ResolverM EdmType) : Prop :=
  ∀ key r, Traced graph r → Follows graph r (inner key) (graph.namedType? key)

theorem typeOf_follows (hinner : NamedFollows graph inner) (hr : Traced graph r)
    (type : HostType) : Follows graph r (typeOf inner type) (graph.edmType? type) := by
  induction type with
  | primitive kind => exact .pure hr
  | named key => exact hinner key r hr
  | optional type ih => exact ih
  | sequence type ih => exact ih.bind fun element r' _ hr' => .pure hr'
  | generic => exact .throw hr _

theorem fieldDraft_follows (hinner : NamedFollows graph inner) (hr : Traced graph r)
    (field : FieldShape) :
    Follows graph r (fieldDraft graph inner field) (graph.fieldDraft? field) :=
  (typeOf_follows hinner hr field.type).bind fun _ _ _ hr' => .pure hr'

theorem baseKey_follows (hinner : NamedFollows graph inner) (hr : Traced graph r)
    (shape : RecordShape) :
    Follows graph r (baseKey inner shape) (graph.baseKey? shape) := by
  unfold baseKey HostGraph.baseKey?
  cases shape.base with
  | none => exact .pure hr
  | some base =>
      refine (typeOf_follows hinner hr base).bind fun type r' _ hr' => ?_
      cases type with
      | complex parent => exact .pure hr'
      | _ => exact .throw hr' _

/-- If a field fails, the record stays as it was entered. -/
theorem resolveRecord_follows (hinner : NamedFollows graph inner) (hr : Traced graph r)
    (hshape : graph.shape key = .record shape) :
    Follows graph r (resolveRecord graph inner key shape) (some (.complex key)) := by
  have hwhole : Follows graph r (resolveRecord graph inner key shape)
      ((graph.baseKey? shape).bind fun _ => (shape.fields.mapM graph.fieldDraft?).bind fun _ =>
        some (.complex key)) := by
    refine (baseKey_follows hinner hr shape).bind fun base r₁ hbase hr₁ => ?_
    refine .claim_bind hr₁ fun named hrecords henums => .modify_bind ?_
    have hentered : Traced graph (named.putRecord key ⟨shape.space, shape.name, base, []⟩) :=
      hr₁.putRecord hrecords henums hshape (.inr ⟨hbase, rfl⟩)
    refine (Follows.mapM hentered fun field r' hr' => fieldDraft_follows hinner hr' field).bind
      fun properties r₂ hproperties hr₂ => .modify_bind (.pure ?_)
    exact hr₂.putRecord rfl rfl hshape
      (.inl (HostGraph.draft?_eq_some.2 ⟨base, properties, hbase, hproperties, rfl⟩))
  refine hwhole.of_unique fun type htype => ?_
  obtain ⟨base, -, htype⟩ := Option.bind_eq_some_iff.1 htype
  obtain ⟨properties, -, htype⟩ := Option.bind_eq_some_iff.1 htype
  exact (Option.some.inj htype).symm

/-- A type that has been collected is what its shape says. -/
theorem reuse_follows {resolve : ResolverM EdmType} (hr : Traced graph r)
    (hresolve : Follows graph r resolve (graph.namedType? key)) :
    Follows graph r (reuse key resolve) (graph.namedType? key) := by
  unfold reuse
  refine .get_bind ?_
  cases hknown : r.known? key with
  | none => exact hresolve
  | some type =>
      rw [hr.of_known hknown]
      exact .pure hr

theorem resolveNamed_follows (depth : Nat) : NamedFollows graph (resolveNamed graph depth) := by
  induction depth with
  | zero => exact fun _ _ hr => .throw hr _
  | succ depth ih =>
      intro key r hr
      unfold resolveNamed
      cases hshape : graph.shape key with
      | record shape =>
          refine reuse_follows hr ?_
          rw [HostGraph.namedType?_record hshape]
          exact resolveRecord_follows ih hr hshape
      | enumeration shape =>
          refine reuse_follows hr ?_
          rw [HostGraph.namedType?_enumeration hshape]
          exact .claim_bind hr fun named hrecords henums =>
            .modify_bind (.pure (hr.putEnum hrecords henums hshape))
      | plain plain =>
          rw [HostGraph.namedType?_plain hshape]
          exact typeOf_follows ih hr (plain.type key)

theorem resolve_follows (hr : Traced graph r) (type : HostType) :
    Follows graph r (resolve graph type) (graph.edmType? type) :=
  typeOf_follows (resolveNamed_follows _) hr type

end Resolver

namespace ModelBuilder

variable {builder : ModelBuilder} {calls : List Call} {graph : HostGraph}

/-- A call leaves what has been collected as it is, or resolves its type. -/
theorem Call.resolver_run (call : Call) (builder : ModelBuilder) :
    (call.run builder).2.resolver = builder.resolver ∨
      (call.run builder).2.resolver
        = ((Resolver.resolve call.graph call.type).run.run builder.resolver).2 := by
  cases call with
  | registerType graph type => exact .inr rfl
  | register graph name type key capabilities =>
      unfold run ModelBuilder.register ModelBuilder.registerType
      dsimp only [Call.graph, Call.type]
      split
      · exact .inl rfl
      · right
        rcases (Resolver.resolve graph type).run.run builder.resolver with ⟨_ | result, r⟩
        · rfl
        · cases result <;> rfl

/-- After any calls about one graph, all that has been collected goes back to its shapes. -/
theorem traced_afterCalls (hgraph : ∀ call ∈ calls, call.graph = graph) :
    (afterCalls calls).resolver.Traced graph := by
  refine afterCalls_induction (P := fun builder => builder.resolver.Traced graph)
    Resolver.traced_empty fun builder h call hcall => ?_
  rcases call.resolver_run builder with heq | heq
  · rwa [heq]
  · rw [heq, hgraph call hcall]
    exact (Resolver.resolve_follows h call.type).1

end ModelBuilder

end EntityQuery
