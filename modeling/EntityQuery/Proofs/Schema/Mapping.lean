import EntityQuery.Proofs.Schema.Closure

/-!
# The resolver as a memo

What a record becomes in the model can be read off the shapes: one has to know what the types that
it refers to stand for, and nothing about their own fields, to write down its draft
(`HostGraph.draft?`).  The resolver does not work like this.  It goes through the types in the order
in which they refer to each other, and looks up what it has come across.

The two agree (`resolve_renders`).  What has been collected is at any time what the shapes say,
except for the records that wait for their fields.  Resolving fails only if a type that can be
reached has no counterpart, or if two of them have one full name, and otherwise it ends with what
the shapes say or not at all.  So what comes of it does not depend on where it began.
-/

namespace EntityQuery

/-- The full name of what a key stands for, if it has one in the model. -/
def NamedShape.fullName? : NamedShape → Option String
  | .record shape => some (shape.space ++ "." ++ shape.name)
  | .enumeration shape => some (shape.space ++ "." ++ shape.name)
  | .plain _ => none

/-- If there are values for all members of a list, there is one for each of them. -/
theorem exists_some_of_mapM {α β : Type} {f : α → Option β} {as : List α} {bs : List β} {a : α}
    (h : as.mapM f = some bs) (ha : a ∈ as) : ∃ b, f a = some b := by
  induction as generalizing bs with
  | nil => cases ha
  | cons first as ih =>
      rw [List.mapM_cons] at h
      obtain ⟨b, hb, h⟩ := Option.bind_eq_some_iff.1 h
      obtain ⟨rest, hrest, -⟩ := Option.bind_eq_some_iff.1 h
      rcases List.mem_cons.1 ha with rfl | ha
      · exact ⟨b, hb⟩
      · exact ih hrest ha

namespace HostGraph

/-! ## What the shapes say -/

/-- The full name of a type, if it has one. -/
def fullName? (graph : HostGraph) (key : TypeKey) : Option String := (graph.shape key).fullName?

/-- The draft of a field, if its type has a counterpart. -/
def fieldDraft? (graph : HostGraph) (field : FieldShape) : Option PropertyDraft :=
  (graph.edmType? field.type).bind fun type =>
    some ⟨field.name, type, field.allowsNull graph type⟩

/-- What a record extends, if that is nothing or a record. -/
def baseKey? (graph : HostGraph) (shape : RecordShape) : Option (Option TypeKey) :=
  match shape.base with
  | none => some none
  | some base => (graph.edmType? base).bind fun
    | .complex parent => some (some parent)
    | _ => none

/-- The draft of a record, if its base and its fields have counterparts. -/
def draft? (graph : HostGraph) (shape : RecordShape) : Option RecordDraft :=
  (graph.baseKey? shape).bind fun base =>
    (shape.fields.mapM graph.fieldDraft?).bind fun properties =>
      some ⟨shape.space, shape.name, base,
        properties.mergeSort fun a b => decide (a.name ≤ b.name)⟩

/-- The types of a set have counterparts and names of their own, and none of them needs itself. -/
structure Regular (graph : HostGraph) (within : TypeKey → Prop) : Prop where
  drafts : ∀ key shape, within key → graph.shape key = .record shape → graph.draft? shape ≠ none
  names : ∀ key k name, within key → within k → graph.fullName? key = some name →
    graph.fullName? k = some name → key = k
  ends : ∀ key, within key → ¬Relation.TransGen graph.Needs key key

end HostGraph

namespace Resolver

variable {graph : HostGraph} {within waiting later : TypeKey → Prop} {r r' named : Resolver}
  {key k : TypeKey} {fullName : String}

/-! ## What has been collected -/

/-- Types of a set have been collected as the shapes say, except that some records that have been
entered wait for their fields. -/
structure Faithful (graph : HostGraph) (within waiting : TypeKey → Prop) (r : Resolver) : Prop where
  records : ∀ key draft, r.record? key = some draft → within key ∧
    ∃ shape, graph.shape key = .record shape ∧ (¬waiting key → graph.draft? shape = some draft)
  enums : ∀ type ∈ r.enums, within type.key ∧
    ∃ shape, graph.shape type.key = .enumeration shape ∧ type = shape.toEnumType type.key
  names : ∀ name key, (name, key) ∈ r.names ↔
    r.known? key ≠ none ∧ graph.fullName? key = some name
  entered : ∀ key, waiting key → r.known? key ≠ none
  uniqueRecords : (r.records.map Prod.fst).Nodup
  uniqueEnums : (r.enums.map EnumType.key).Nodup
  uniqueNames : (r.names.map Prod.fst).Nodup

theorem faithful_empty : Faithful graph within (fun _ => False) .empty where
  records key draft h := by cases h
  enums type h := by cases h
  names name key := by simp [empty, known?, record?]
  entered key h := h.elim
  uniqueRecords := .nil
  uniqueEnums := .nil
  uniqueNames := .nil

/-- A type that has been collected is in the set, and what its shape says. -/
theorem Faithful.of_known (h : Faithful graph within waiting r) {type : EdmType}
    (hknown : r.known? key = some type) : within key ∧ graph.namedType? key = some type := by
  obtain ⟨hcollected, rfl | rfl⟩ := known?_eq_some hknown
  · obtain ⟨draft, hdraft⟩ := Option.isSome_iff_exists.1 hcollected
    obtain ⟨hwithin, shape, hshape, -⟩ := h.records key draft hdraft
    exact ⟨hwithin, HostGraph.namedType?_record hshape⟩
  · obtain ⟨type, htype, hkey⟩ := List.any_eq_true.1 hcollected
    obtain rfl := beq_iff_eq.1 hkey
    obtain ⟨hwithin, shape, hshape, -⟩ := h.enums type htype
    exact ⟨hwithin, HostGraph.namedType?_enumeration hshape⟩

theorem known?_putRecord_iff {draft : RecordDraft} (hrecords : named.records = r.records)
    (henums : named.enums = r.enums) :
    (named.putRecord key draft).known? k ≠ none ↔ k = key ∨ r.known? k ≠ none := by
  by_cases heq : k = key
  · subst heq
    simp [known?_putRecord]
  · have hrecord : (named.putRecord key draft).record? k = r.record? k := by
      rw [record?_putRecord, if_neg heq, record?, hrecords, record?]
    rw [known?_congr hrecord henums]
    simp [heq]

theorem known?_putEnum_iff {type : EnumType} (hrecords : named.records = r.records)
    (henums : named.enums = r.enums) :
    (named.putEnum type).known? k ≠ none ↔ k = type.key ∨ r.known? k ≠ none := by
  have hrecord : (named.putEnum type).record? k = r.record? k := by
    rw [putEnum, record?, hrecords, record?]
  have hany : ((named.putEnum type).enums.any fun other => other.key == k)
      = ((r.enums.any fun other => other.key == k) || type.key == k) := by
    rw [putEnum, henums, List.any_append]
    simp
  rw [Ne, Ne, known?_eq_none_iff, known?_eq_none_iff, hrecord, hany]
  by_cases heq : k = type.key
  · simp [heq]
  · simp [heq, beq_false_of_ne (Ne.symm heq)]

/-! ## Entering types -/

/-- A type has its name, and nothing else has changed. -/
structure Named (graph : HostGraph) (key : TypeKey) (r named : Resolver) : Prop where
  records : named.records = r.records
  enums : named.enums = r.enums
  names : ∀ name k, (name, k) ∈ named.names ↔
    (k = key ∨ r.known? k ≠ none) ∧ graph.fullName? k = some name
  unique : (named.names.map Prod.fst).Nodup

/-- A type that has been collected has its name. -/
theorem Faithful.named_self (h : Faithful graph within waiting r) (hknown : r.known? key ≠ none) :
    Named graph key r r where
  records := rfl
  enums := rfl
  names name k := by
    rw [h.names, or_iff_right_of_imp]
    rintro rfl
    exact hknown
  unique := h.uniqueNames

/-- A type gets its name, unless another one has been collected that has it too. -/
theorem Faithful.claim_cases (h : Faithful graph within waiting r)
    (hname : graph.fullName? key = some fullName) :
    (∃ named, r.claim fullName key = .ok named ∧ Named graph key r named) ∨
      ∃ e k, r.claim fullName key = .error e ∧ k ≠ key ∧ r.known? k ≠ none ∧
        graph.fullName? k = some fullName := by
  unfold claim
  cases howner : r.names.lookup fullName with
  | none =>
      have hfree : ∀ entry ∈ r.names, entry.1 ≠ fullName := fun entry hentry =>
        (bne_iff_ne.1 (List.lookup_eq_none_iff.1 howner entry hentry)).symm
      refine .inl ⟨_, rfl, rfl, rfl, fun name k => ?_, ?_⟩
      · rw [List.mem_append, h.names, List.mem_singleton, Prod.mk.injEq]
        constructor
        · rintro (⟨hknown, hsame⟩ | ⟨rfl, rfl⟩)
          · exact ⟨.inr hknown, hsame⟩
          · exact ⟨.inl rfl, hname⟩
        · rintro ⟨rfl | hknown, hsame⟩
          · exact .inr ⟨Option.some.inj (hsame.symm.trans hname), rfl⟩
          · exact .inl ⟨hknown, hsame⟩
      · rw [List.map_append, List.nodup_append]
        refine ⟨h.uniqueNames, List.nodup_singleton _, fun name hmem other hother => ?_⟩
        obtain ⟨entry, hentry, rfl⟩ := List.mem_map.1 hmem
        obtain rfl := List.mem_singleton.1 hother
        exact hfree entry hentry
  | some owner =>
      obtain ⟨front, back, hsplit, -⟩ := List.lookup_eq_some_iff.1 howner
      have hmem : (fullName, owner) ∈ r.names := by
        rw [hsplit]
        exact List.mem_append_right _ List.mem_cons_self
      obtain ⟨hknown, hsame⟩ := (h.names _ _).1 hmem
      by_cases heq : owner = key
      · subst heq
        refine .inl ⟨r, by simp, h.named_self hknown⟩
      · refine .inr ⟨.configuration (.nameClash fullName owner key), owner, ?_, heq, hknown, hsame⟩
        dsimp only
        rw [if_neg (by simpa using heq)]

theorem nodup_putRecord {draft : RecordDraft} (h : (r.records.map Prod.fst).Nodup) :
    ((r.putRecord key draft).records.map Prod.fst).Nodup := by
  unfold putRecord
  dsimp only
  rw [List.map_cons, List.nodup_cons]
  refine ⟨fun hmem => ?_, (List.filter_sublist.map Prod.fst).nodup h⟩
  obtain ⟨entry, hentry, rfl⟩ := List.mem_map.1 hmem
  simpa using (List.mem_filter.1 hentry).2

/-- A record is entered, with its properties or to wait for them. -/
theorem Faithful.putRecord (h : Faithful graph within waiting r) (hnamed : Named graph key r named)
    (hwithin : within key) {shape : RecordShape} (hshape : graph.shape key = .record shape)
    {draft : RecordDraft} (hothers : ∀ k, k ≠ key → (later k ↔ waiting k))
    (hdraft : ¬later key → graph.draft? shape = some draft) :
    Faithful graph within later (named.putRecord key draft) where
  records k other hother := by
    rw [record?_putRecord] at hother
    split at hother
    · rename_i heq
      subst heq
      obtain rfl := Option.some.inj hother
      exact ⟨hwithin, shape, hshape, hdraft⟩
    · rename_i hne
      rw [record?, hnamed.records] at hother
      obtain ⟨hk, other, hrecord, hread⟩ := h.records k _ hother
      exact ⟨hk, other, hrecord, fun hlater => hread (mt (hothers k hne).2 hlater)⟩
  enums type htype := h.enums type (hnamed.enums ▸ htype)
  names name k := by
    rw [known?_putRecord_iff hnamed.records hnamed.enums]
    exact hnamed.names name k
  entered k hk := by
    rw [known?_putRecord_iff hnamed.records hnamed.enums]
    exact or_iff_not_imp_left.2 fun hne => h.entered k ((hothers k hne).1 hk)
  uniqueRecords := nodup_putRecord (hnamed.records ▸ h.uniqueRecords)
  uniqueEnums := by
    rw [Resolver.putRecord, hnamed.enums]
    exact h.uniqueEnums
  uniqueNames := hnamed.unique

theorem Faithful.putEnum (h : Faithful graph within waiting r) (hnamed : Named graph key r named)
    (hwithin : within key) {shape : EnumShape} (hshape : graph.shape key = .enumeration shape)
    (hunknown : r.known? key = none) :
    Faithful graph within waiting (named.putEnum (shape.toEnumType key)) where
  records k draft hdraft := by
    rw [Resolver.putEnum, record?, hnamed.records] at hdraft
    exact h.records k draft hdraft
  enums type htype := by
    rw [Resolver.putEnum, hnamed.enums] at htype
    rcases List.mem_append.1 htype with hmem | hmem
    · exact h.enums type hmem
    · obtain rfl := List.mem_singleton.1 hmem
      exact ⟨hwithin, shape, hshape, rfl⟩
  names name k := by
    rw [known?_putEnum_iff hnamed.records hnamed.enums]
    exact hnamed.names name k
  entered k hk := by
    rw [known?_putEnum_iff hnamed.records hnamed.enums]
    exact .inr (h.entered k hk)
  uniqueRecords := by
    rw [Resolver.putEnum, hnamed.records]
    exact h.uniqueRecords
  uniqueEnums := by
    rw [Resolver.putEnum, hnamed.enums, List.map_append, List.nodup_append]
    refine ⟨h.uniqueEnums, List.nodup_singleton _, fun k hk other hother => ?_⟩
    obtain ⟨type, htype, rfl⟩ := List.mem_map.1 hk
    obtain rfl := List.mem_singleton.1 hother
    rintro heq
    have hany := (known?_eq_none_iff.1 hunknown).2
    rw [List.any_eq_false] at hany
    exact hany type htype (beq_iff_eq.2 heq)
  uniqueNames := hnamed.unique

/-! ## Computations -/

/-- A computation renders a value: if it succeeds then with this value, and what has been collected
is faithful.  It fails if there is no value, or over types that are not regular, or it has no end.
-/
def Renders (graph : HostGraph) (within waiting : TypeKey → Prop) {α : Type} (r : Resolver)
    (x : ResolverM α) (value : Option α) : Prop :=
  match x.run.run r with
  | (.ok a, r') => value = some a ∧ Faithful graph within waiting r'
  | (.error e, _) => value = none ∨ ¬graph.Regular within ∨ e = .endless

namespace Renders

variable {α β : Type} {a : α} {x : ResolverM α} {f : α → ResolverM β} {value : Option α}
  {g : α → Option β} {result : Option β}

theorem pure (h : Faithful graph within waiting r) :
    Renders graph within waiting r (Pure.pure a) (some a) := ⟨rfl, h⟩

theorem throw (e : Stop) :
    Renders graph within waiting r (MonadExcept.throw e : ResolverM α) none := .inl rfl

theorem bind (h : Renders graph within waiting r x value)
    (hf : ∀ a r', value = some a → Faithful graph within waiting r' →
      Renders graph within later r' (f a) (g a)) :
    Renders graph within later r (x >>= f) (value.bind g) := by
  unfold Renders at h ⊢
  rw [run_bind]
  cases hrun : x.run.run r with
  | mk result r' =>
      rw [hrun] at h
      cases result with
      | ok a =>
          obtain ⟨rfl, hfaithful⟩ := h
          exact hf a r' rfl hfaithful
      | error e =>
          refine h.imp_left ?_
          rintro rfl
          rfl

/-- Reading the state. -/
theorem get_bind {f : Resolver → ResolverM β} (h : Renders graph within waiting r (f r) result) :
    Renders graph within waiting r (get >>= f) result := h

/-- Writing the state. -/
theorem modify_bind {change : Resolver → Resolver} {f : Unit → ResolverM β}
    (h : Renders graph within waiting (change r) (f ()) result) :
    Renders graph within waiting r (modify change >>= f) result := h

/-- Taking the name of a type, which nothing else in a regular set has. -/
theorem claim_bind {f : Unit → ResolverM β} (hr : Faithful graph within waiting r)
    (hwithin : within key) (hname : graph.fullName? key = some fullName)
    (h : ∀ named, Named graph key r named → Renders graph within later named (f ()) result) :
    Renders graph within later r (claimName fullName key >>= f) result := by
  unfold Renders
  rw [run_bind, run_claimName]
  obtain ⟨named, hclaim, hnamed⟩ | ⟨e, k, hclaim, hne, hknown, hsame⟩ := hr.claim_cases hname
  · rw [hclaim]
    exact h named hnamed
  · rw [hclaim]
    obtain ⟨type, htype⟩ := Option.ne_none_iff_exists'.1 hknown
    exact .inr (.inl fun hregular =>
      hne (hregular.names k key fullName (hr.of_known htype).1 hwithin hsame hname))

/-- A list of computations renders the list of values. -/
theorem mapM {f : α → ResolverM β} {g : α → Option β} {as : List α}
    (hr : Faithful graph within waiting r)
    (h : ∀ a ∈ as, ∀ r', Faithful graph within waiting r' →
      Renders graph within waiting r' (f a) (g a)) :
    Renders graph within waiting r (as.mapM f) (as.mapM g) := by
  induction as generalizing r with
  | nil => exact .pure hr
  | cons a as ih =>
      rw [List.mapM_cons, List.mapM_cons]
      refine (h a List.mem_cons_self r hr).bind fun b r' _ hr' => ?_
      refine (ih hr' fun a' ha' => h a' (List.mem_cons_of_mem _ ha')).bind fun bs r'' _ hr'' => ?_
      exact .pure hr''

/-- Over regular types the value is known. -/
theorem of_regular (h : Renders graph within waiting r x value)
    (hvalue : ∀ b, value = some b → b = a) (hregular : graph.Regular within → value ≠ none) :
    Renders graph within waiting r x (some a) := by
  unfold Renders at h ⊢
  cases hrun : x.run.run r with
  | mk result r' =>
      rw [hrun] at h
      cases result with
      | ok b => exact ⟨congrArg some (hvalue b h.1).symm, h.2⟩
      | error e =>
          rcases h with hnone | hflaw
          · exact .inr (.inl fun hr => hregular hr hnone)
          · exact .inr hflaw

end Renders

/-! ## Resolving -/

variable {inner : TypeKey → ResolverM EdmType}

/-- Resolving named types of a set renders what their shapes say. -/
def NamedRenders (graph : HostGraph) (within : TypeKey → Prop)
    (inner : TypeKey → ResolverM EdmType) : Prop :=
  ∀ (waiting : TypeKey → Prop) (key : TypeKey) (r : Resolver), within key →
    Faithful graph within waiting r →
    Renders graph within waiting r (inner key) (graph.namedType? key)

theorem typeOf_renders (hinner : NamedRenders graph within inner)
    (hr : Faithful graph within waiting r) {type : HostType}
    (hwithin : ∀ k, type.named? = some k → within k) :
    Renders graph within waiting r (typeOf inner type) (graph.edmType? type) := by
  induction type with
  | primitive kind => exact .pure hr
  | named key => exact hinner waiting key r (hwithin key rfl) hr
  | optional type ih => exact ih hwithin
  | sequence type ih => exact (ih hwithin).bind fun element r' _ hr' => .pure hr'
  | generic => exact .throw _

theorem fieldDraft_renders (hinner : NamedRenders graph within inner)
    (hr : Faithful graph within waiting r) {field : FieldShape}
    (hwithin : ∀ k, field.type.named? = some k → within k) :
    Renders graph within waiting r (fieldDraft graph inner field) (graph.fieldDraft? field) :=
  (typeOf_renders hinner hr hwithin).bind fun _ _ _ hr' => .pure hr'

theorem baseKey_renders (hinner : NamedRenders graph within inner)
    (hr : Faithful graph within waiting r) {shape : RecordShape}
    (hwithin : ∀ base ∈ shape.base, ∀ k, base.named? = some k → within k) :
    Renders graph within waiting r (baseKey inner shape) (graph.baseKey? shape) := by
  unfold baseKey HostGraph.baseKey?
  cases hbase : shape.base with
  | none => exact .pure hr
  | some base =>
      refine (typeOf_renders hinner hr (hwithin base hbase)).bind fun type r' _ hr' => ?_
      cases type with
      | complex parent => exact .pure hr'
      | _ => exact .throw _

/-- A record is entered to wait for its fields, and then with its properties. -/
theorem resolveRecord_renders (hencloses : graph.Encloses within)
    (hinner : NamedRenders graph within inner) (hr : Faithful graph within waiting r)
    (hwithin : within key) {shape : RecordShape} (hshape : graph.shape key = .record shape) :
    Renders graph within waiting r (resolveRecord graph inner key shape) (some (.complex key)) := by
  have hname : graph.fullName? key = some (shape.space ++ "." ++ shape.name) := by
    rw [HostGraph.fullName?, hshape, NamedShape.fullName?]
  have hwhole : Renders graph within waiting r (resolveRecord graph inner key shape)
      ((graph.baseKey? shape).bind fun _ => (shape.fields.mapM graph.fieldDraft?).bind fun _ =>
        some (.complex key)) := by
    refine (baseKey_renders hinner hr fun base hbase k hk => hencloses key k hwithin
      (HostGraph.refers_of_base hshape hbase hk)).bind fun base r₁ hbase hr₁ => ?_
    refine .claim_bind hr₁ hwithin hname fun named hnamed => .modify_bind ?_
    have hwaits : Faithful graph within (fun k => waiting k ∨ k = key)
        (named.putRecord key ⟨shape.space, shape.name, base, []⟩) :=
      hr₁.putRecord hnamed hwithin hshape (fun k hne => or_iff_left hne)
        fun hnot => absurd (.inr rfl) hnot
    refine (Renders.mapM hwaits fun field hfield r' hr' => fieldDraft_renders hinner hr' ?_).bind
      fun properties r₂ hproperties hr₂ => .modify_bind (.pure ?_)
    · exact fun k hk => hencloses key k hwithin (HostGraph.refers_of_field hshape hfield hk)
    · refine hr₂.putRecord (hr₂.named_self (hr₂.entered key (.inr rfl))) hwithin hshape
        (fun k hne => (or_iff_left hne).symm) fun _ => ?_
      rw [HostGraph.draft?, hbase, Option.bind_some, hproperties, Option.bind_some]
  have hvalue : ((graph.baseKey? shape).bind fun _ =>
      (shape.fields.mapM graph.fieldDraft?).bind fun _ => some (EdmType.complex key))
        = (graph.draft? shape).map fun _ => .complex key := by
    simp only [HostGraph.draft?, Option.map_bind, Function.comp_def, Option.map_some]
  rw [hvalue] at hwhole
  refine hwhole.of_regular (fun type htype => ?_) fun hregular => ?_
  · obtain ⟨draft, -, rfl⟩ := Option.map_eq_some_iff.1 htype
    rfl
  · exact mt Option.map_eq_none_iff.1 (hregular.drafts key shape hwithin hshape)

/-- A type that has been collected is what its shape says. -/
theorem reuse_renders {resolve : ResolverM EdmType} (hr : Faithful graph within waiting r)
    (hresolve : r.known? key = none →
      Renders graph within waiting r resolve (graph.namedType? key)) :
    Renders graph within waiting r (reuse key resolve) (graph.namedType? key) := by
  unfold reuse
  refine .get_bind ?_
  cases hknown : r.known? key with
  | none => exact hresolve hknown
  | some type =>
      rw [(hr.of_known hknown).2]
      exact .pure hr

theorem resolveNamed_renders (hencloses : graph.Encloses within) (depth : Nat) :
    NamedRenders graph within (resolveNamed graph depth) := by
  induction depth with
  | zero => exact fun _ _ _ _ _ => .inr (.inr rfl)
  | succ depth ih =>
      intro waiting key r hwithin hr
      unfold resolveNamed
      cases hshape : graph.shape key with
      | record shape =>
          refine reuse_renders hr fun _ => ?_
          rw [HostGraph.namedType?_record hshape]
          exact resolveRecord_renders hencloses ih hr hwithin hshape
      | enumeration shape =>
          refine reuse_renders hr fun hunknown => ?_
          rw [HostGraph.namedType?_enumeration hshape]
          refine .claim_bind hr hwithin ?_ fun named hnamed => .modify_bind (.pure ?_)
          · rw [HostGraph.fullName?, hshape, NamedShape.fullName?]
          · exact hr.putEnum hnamed hwithin hshape hunknown
      | plain plain =>
          rw [HostGraph.namedType?_plain hshape]
          exact typeOf_renders ih hr fun k hk =>
            hencloses key k hwithin (HostGraph.refers_of_wraps ⟨plain, hshape, hk⟩)

/-- Resolving a declaration gives its model type, and leaves what has been collected faithful. -/
theorem resolve_renders (hencloses : graph.Encloses within) (hr : Faithful graph within waiting r)
    {type : HostType} (hwithin : ∀ k, type.named? = some k → within k) :
    Renders graph within waiting r (resolve graph type) (graph.edmType? type) :=
  typeOf_renders (resolveNamed_renders hencloses _) hr hwithin

end Resolver

end EntityQuery
