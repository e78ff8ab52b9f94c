import EntityQuery.Proofs.Schema.Declarations
import EntityQuery.Schema.Resolver

/-!
# What resolving a type does

Resolving a type changes what has been collected step by step: an enum type or a record type enters,
or a record type is completed.  `Step` says all there is to know about one of them, and `Leads` that
a computation consists of such steps, whether it succeeds or fails.  Resolving any type does
(`resolve_leads`), and so what had been collected before stays as it was (`Steps.extends`).

Only types that were not there in the beginning are written.  It does not follow that a step writes
only what was not there right before it: a record that a field of its own base leads to is entered
again by the outer call.
-/

namespace EntityQuery

namespace Resolver

variable {graph : HostGraph} {writable : TypeKey → Prop} {r r' r'' named : Resolver}
  {key k : TypeKey} {draft : RecordDraft} {type : EdmType} {fullName : String}

/-! ## What has been collected -/

/-- The types that a type refers to have been collected. -/
def Collected (r : Resolver) : EdmType → Prop
  | .primitive _ => True
  | .complex key => (r.record? key).isSome = true
  | .enumeration key => (r.enums.any fun type => type.key == key) = true
  | .collection element => r.Collected element

theorem known?_eq_none_iff : r.known? key = none ↔
    r.record? key = none ∧ (r.enums.any fun type => type.key == key) = false := by
  unfold known?
  split
  · rename_i hrecord
    simp [Option.isSome_iff_ne_none.1 hrecord]
  · split <;> simp_all

theorem known?_eq_some (h : r.known? key = some type) :
    r.Collected type ∧ (type = .complex key ∨ type = .enumeration key) := by
  unfold known? at h
  split at h
  · obtain rfl := Option.some.inj h
    exact ⟨‹_›, .inl rfl⟩
  · split at h
    · obtain rfl := Option.some.inj h
      exact ⟨‹_›, .inr rfl⟩
    · cases h

theorem isSome_record?_of_mem {entry : TypeKey × RecordDraft} (h : entry ∈ r.records) :
    (r.record? entry.1).isSome = true := by
  rw [Option.isSome_iff_ne_none]
  intro hnone
  have hne := List.lookup_eq_none_iff.1 hnone entry h
  simp at hne

theorem lookup_filter_ne (entries : List (TypeKey × RecordDraft)) (hne : k ≠ key) :
    (entries.filter fun entry => entry.1 != key).lookup k = entries.lookup k := by
  induction entries with
  | nil => rfl
  | cons entry entries ih =>
      by_cases heq : entry.1 = key
      · have hk : (k == entry.1) = false := by simp [heq, hne]
        rw [List.filter_cons_of_neg (by simp [heq]), ih, List.lookup_cons, hk]
      · rw [List.filter_cons_of_pos (by simp [heq]), List.lookup_cons, List.lookup_cons, ih]

theorem record?_putRecord (r : Resolver) (key k : TypeKey) (draft : RecordDraft) :
    (r.putRecord key draft).record? k = if k = key then some draft else r.record? k := by
  unfold putRecord record?
  dsimp only
  split
  · rename_i heq
    rw [heq, List.lookup_cons_self]
  · rename_i hne
    have hk : (k == key) = false := by simp [hne]
    rw [List.lookup_cons, hk, lookup_filter_ne _ hne]

theorem known?_putRecord (r : Resolver) (key : TypeKey) (draft : RecordDraft) :
    (r.putRecord key draft).known? key ≠ none := by
  intro hnone
  have hrecord := (known?_eq_none_iff.1 hnone).1
  rw [record?_putRecord, if_pos rfl] at hrecord
  cases hrecord

theorem known?_putEnum (r : Resolver) (type : EnumType) :
    (r.putEnum type).known? type.key ≠ none := by
  intro hnone
  have hany := (known?_eq_none_iff.1 hnone).2
  rw [putEnum, List.any_append] at hany
  simp at hany

/-- Taking a name changes nothing but the names. -/
theorem claim_eq_ok (h : r.claim fullName key = .ok named) :
    named.records = r.records ∧ named.enums = r.enums ∧ r.names <+: named.names := by
  unfold claim at h
  split at h
  · split at h
    · obtain rfl := Except.ok.inj h
      exact ⟨rfl, rfl, List.prefix_rfl⟩
    · cases h
  · obtain rfl := Except.ok.inj h
    exact ⟨rfl, rfl, List.prefix_append _ _⟩

/-! ## Steps -/

/-- One step of resolution, about a type that may be written. -/
inductive Step (graph : HostGraph) (writable : TypeKey → Prop) : Resolver → Resolver → Prop
  | enumeration {r named : Resolver} {key : TypeKey} {shape : EnumShape}
      (hshape : graph.shape key = .enumeration shape) (hwritable : writable key)
      (hclaim : r.claim (shape.space ++ "." ++ shape.name) key = .ok named) :
      Step graph writable r (named.putEnum (shape.toEnumType key))
  | enter {r named : Resolver} {key : TypeKey} {shape : RecordShape} {base : Option TypeKey}
      (hshape : graph.shape key = .record shape) (hwritable : writable key)
      (hbase : base = shape.base.bind graph.key?)
      (hknown : ∀ b, base = some b → (r.record? b).isSome = true)
      (hclaim : r.claim (shape.space ++ "." ++ shape.name) key = .ok named) :
      Step graph writable r (named.putRecord key ⟨shape.space, shape.name, base, []⟩)
  | complete {r : Resolver} {key : TypeKey} {shape : RecordShape} {base : Option TypeKey}
      {properties : List PropertyDraft}
      (hshape : graph.shape key = .record shape) (hwritable : writable key)
      (hbase : base = shape.base.bind graph.key?)
      (hknown : ∀ b, base = some b → (r.record? b).isSome = true)
      (hentered : (r.record? key).isSome = true)
      (hproperties : ∀ p ∈ properties, r.Collected p.type) :
      Step graph writable r (r.putRecord key ⟨shape.space, shape.name, base, properties⟩)

/-- Steps one after another. -/
inductive Steps (graph : HostGraph) (writable : TypeKey → Prop) (r : Resolver) : Resolver → Prop
  | refl : Steps graph writable r r
  | tail {r' r'' : Resolver} (h : Steps graph writable r r') (hstep : Step graph writable r' r'') :
      Steps graph writable r r''

theorem Steps.trans (h : Steps graph writable r r') (h' : Steps graph writable r' r'') :
    Steps graph writable r r'' := by
  induction h' with
  | refl => exact h
  | tail _ hstep ih => exact ih.tail hstep

theorem Steps.single (h : Step graph writable r r') : Steps graph writable r r' := .tail .refl h

/-- A step forgets nothing. -/
structure Keeps (r r' : Resolver) : Prop where
  records : ∀ key, (r.record? key).isSome = true → (r'.record? key).isSome = true
  enums : r.enums <+: r'.enums
  names : r.names <+: r'.names

theorem keeps_putRecord (hrecords : named.records = r.records) (henums : named.enums = r.enums)
    (hnames : r.names <+: named.names) (key : TypeKey) (draft : RecordDraft) :
    Keeps r (named.putRecord key draft) := by
  refine ⟨fun k hk => ?_, ?_, hnames⟩
  · rw [record?_putRecord]
    split
    · rfl
    · rwa [record?, hrecords]
  · rw [← henums]
    exact List.prefix_rfl

theorem keeps_putEnum (hrecords : named.records = r.records) (henums : named.enums = r.enums)
    (hnames : r.names <+: named.names) (type : EnumType) : Keeps r (named.putEnum type) := by
  refine ⟨fun k hk => ?_, ?_, hnames⟩
  · rwa [putEnum, record?, hrecords]
  · rw [putEnum, henums]
    exact List.prefix_append _ _

theorem Step.keeps (h : Step graph writable r r') : Keeps r r' := by
  cases h with
  | enumeration hshape hwritable hclaim =>
      obtain ⟨hrecords, henums, hnames⟩ := claim_eq_ok hclaim
      exact keeps_putEnum hrecords henums hnames _
  | enter hshape hwritable hbase hknown hclaim =>
      obtain ⟨hrecords, henums, hnames⟩ := claim_eq_ok hclaim
      exact keeps_putRecord hrecords henums hnames _ _
  | complete => exact keeps_putRecord rfl rfl List.prefix_rfl _ _

theorem Keeps.refl (r : Resolver) : Keeps r r :=
  ⟨fun _ h => h, List.prefix_rfl, List.prefix_rfl⟩

theorem Keeps.trans (h : Keeps r r') (h' : Keeps r' r'') : Keeps r r'' where
  records key hkey := h'.records key (h.records key hkey)
  enums := h.enums.trans h'.enums
  names := h.names.trans h'.names

theorem Steps.keeps (h : Steps graph writable r r') : Keeps r r' := by
  induction h with
  | refl => exact .refl r
  | tail _ hstep ih => exact ih.trans hstep.keeps

theorem Keeps.any_enums (h : Keeps r r')
    (hany : (r.enums.any fun type => type.key == key) = true) :
    (r'.enums.any fun type => type.key == key) = true := by
  obtain ⟨more, hmore⟩ := h.enums
  rw [← hmore, List.any_append, hany, Bool.true_or]

theorem Keeps.collected (h : Keeps r r') (hcollected : r.Collected type) : r'.Collected type := by
  induction type with
  | primitive => trivial
  | complex key => exact h.records key hcollected
  | enumeration key => exact h.any_enums hcollected
  | collection element ih => exact ih hcollected

theorem Keeps.unknown (h : Keeps r r') (hkey : r'.known? key = none) : r.known? key = none := by
  rw [known?_eq_none_iff] at hkey ⊢
  refine ⟨Option.not_isSome_iff_eq_none.1 fun hsome => ?_, Bool.eq_false_iff.2 fun hany => ?_⟩
  · have hlater := h.records key hsome
    rw [hkey.1] at hlater
    cases hlater
  · have hlater := h.any_enums hany
    rw [hkey.2] at hlater
    cases hlater

theorem Keeps.known (h : Keeps r r') (hkey : r.known? key ≠ none) : r'.known? key ≠ none :=
  mt h.unknown hkey

/-- A record that has come to the others has the shape of a record. -/
theorem Steps.exists_shape (h : Steps graph writable r r') (hbefore : r.record? key = none)
    (hafter : (r'.record? key).isSome = true) : ∃ shape, graph.shape key = .record shape := by
  induction h with
  | refl =>
      rw [hbefore] at hafter
      cases hafter
  | @tail r₁ r₂ _ hstep ih =>
      have hput {named : Resolver} {k : TypeKey} {shape : RecordShape} {draft : RecordDraft}
          (hrecords : named.records = r₁.records) (hshape : graph.shape k = .record shape)
          (h : ((named.putRecord k draft).record? key).isSome = true) :
          ∃ shape, graph.shape key = .record shape := by
        rw [record?_putRecord] at h
        split at h
        · rename_i heq
          exact ⟨shape, heq ▸ hshape⟩
        · rw [record?, hrecords] at h
          exact ih h
      cases hstep with
      | enumeration _ _ hclaim =>
          rw [putEnum, record?, (claim_eq_ok hclaim).1] at hafter
          exact ih hafter
      | enter hshape _ _ _ hclaim => exact hput (claim_eq_ok hclaim).1 hshape hafter
      | complete hshape => exact hput rfl hshape hafter

/-! ## Computations -/

/-- What a computation leaves is reached by steps, and its result has a property. -/
def Leads (graph : HostGraph) (writable : TypeKey → Prop) {α : Type} (r : Resolver)
    (x : ResolverM α) (Q : α → Resolver → Prop) : Prop :=
  Steps graph writable r (x.run.run r).2 ∧
    ∀ a, (x.run.run r).1 = .ok a → Q a (x.run.run r).2

/-- Every type that is not there may be written. -/
def Covers (writable : TypeKey → Prop) (r : Resolver) : Prop :=
  ∀ key, r.known? key = none → writable key

theorem Covers.mono (h : Covers writable r) (hkeeps : Keeps r r') : Covers writable r' :=
  fun key hkey => h key (hkeeps.unknown hkey)

theorem run_bind {α β : Type} (x : ResolverM α) (f : α → ResolverM β) (r : Resolver) :
    (x >>= f).run.run r =
      match x.run.run r with
      | (.ok a, r') => (f a).run.run r'
      | (.error e, r') => (.error e, r') := by
  rw [ExceptT.run_bind, StateT.run_bind]
  show (match x.run.run r with | (a, s) => _) = _
  rcases x.run.run r with ⟨_ | _, _⟩ <;> rfl

theorem run_get (r : Resolver) : (get : ResolverM Resolver).run.run r = (.ok r, r) := rfl

theorem run_claimName (r : Resolver) :
    (claimName fullName key).run.run r =
      match r.claim fullName key with
      | .ok named => (.ok (), named)
      | .error e => (.error (.failed e), r) := by
  rw [claimName, run_bind, run_get]
  dsimp only
  cases r.claim fullName key <;> rfl

namespace Leads

variable {α β : Type} {a : α} {x : ResolverM α} {f : α → ResolverM β}
  {Q : α → Resolver → Prop} {P : β → Resolver → Prop}

theorem pure (h : Q a r) : Leads graph writable r (Pure.pure a) Q := by
  refine ⟨.refl, fun b hb => ?_⟩
  obtain rfl := Except.ok.inj hb
  exact h

theorem throw (e : Stop) : Leads graph writable r (MonadExcept.throw e : ResolverM α) Q :=
  ⟨.refl, fun b hb => by cases hb⟩

theorem mono {Q' : α → Resolver → Prop} (h : Leads graph writable r x Q)
    (hQ : ∀ a r', Q a r' → Q' a r') : Leads graph writable r x Q' :=
  ⟨h.1, fun a ha => hQ a _ (h.2 a ha)⟩

theorem bind (h : Leads graph writable r x Q)
    (hf : ∀ a r', Steps graph writable r r' → Q a r' → Leads graph writable r' (f a) P) :
    Leads graph writable r (x >>= f) P := by
  obtain ⟨hsteps, hresult⟩ := h
  unfold Leads
  rw [run_bind]
  cases hrun : x.run.run r with
  | mk result r' =>
      rw [hrun] at hsteps hresult
      cases result with
      | error e => exact ⟨hsteps, fun b hb => by cases hb⟩
      | ok a =>
          obtain ⟨hmore, hlast⟩ := hf a r' hsteps (hresult a rfl)
          exact ⟨hsteps.trans hmore, hlast⟩

/-- Reading the state. -/
theorem get_bind {f : Resolver → ResolverM β} (h : Leads graph writable r (f r) P) :
    Leads graph writable r (get >>= f) P := h

/-- A step that writes. -/
theorem modify_bind {g : Resolver → Resolver} {f : Unit → ResolverM β}
    (hstep : Step graph writable r (g r)) (h : Leads graph writable (g r) (f ()) P) :
    Leads graph writable r (modify g >>= f) P :=
  ⟨(Steps.single hstep).trans h.1, h.2⟩

/-- A step that takes a name and writes, unless the name cannot be had. -/
theorem claim_bind {g : Resolver → Resolver} {f : Unit → ResolverM β}
    (hstep : ∀ named, r.claim fullName key = .ok named → Step graph writable r (g named))
    (h : ∀ named, r.claim fullName key = .ok named → Leads graph writable (g named) (f ()) P) :
    Leads graph writable r (claimName fullName key >>= fun _ => modify g >>= f) P := by
  unfold Leads
  rw [run_bind, run_claimName]
  cases hclaim : r.claim fullName key with
  | error e => exact ⟨.refl, fun b hb => by cases hb⟩
  | ok named =>
      have hnext := h named hclaim
      exact ⟨(Steps.single (hstep named hclaim)).trans hnext.1, hnext.2⟩

/-- A list of computations, with a property of the results that no step breaks. -/
theorem mapM {f : α → ResolverM β} {as : List α}
    (hkeeps : ∀ b r r', Keeps r r' → P b r → P b r')
    (hf : ∀ a ∈ as, ∀ r', Steps graph writable r r' → Leads graph writable r' (f a) P) :
    Leads graph writable r (as.mapM f) fun bs r' => ∀ b ∈ bs, P b r' := by
  induction as generalizing r with
  | nil => exact .pure (by simp)
  | cons a as ih =>
      rw [List.mapM_cons]
      refine (hf a List.mem_cons_self r .refl).bind fun b r' hsteps hb => ?_
      refine (ih fun a' ha' r'' hmore => hf a' (List.mem_cons_of_mem _ ha') r''
        (hsteps.trans hmore)).bind fun bs r'' hmore hbs => ?_
      exact .pure (List.forall_mem_cons.2 ⟨hkeeps b r' r'' hmore.keeps hb, hbs⟩)

end Leads

/-! ## Resolving -/

/-- A result of resolving a declaration: it has been collected, and if it is a record then the one
that the declaration stands for. -/
def IsNamed (graph : HostGraph) (declared : HostType) (type : EdmType) (r : Resolver) : Prop :=
  r.Collected type ∧ ∀ key, type = .complex key → graph.key? declared = some key

variable {inner : TypeKey → ResolverM EdmType}

/-- Resolving named types leads, wherever it begins. -/
def NamedLeads (graph : HostGraph) (writable : TypeKey → Prop)
    (inner : TypeKey → ResolverM EdmType) : Prop :=
  ∀ key r, Covers writable r → Leads graph writable r (inner key) (IsNamed graph (.named key))

theorem typeOf_leads (hnamed : NamedLeads graph writable inner) (hcovers : Covers writable r)
    (type : HostType) : Leads graph writable r (typeOf inner type) (IsNamed graph type) := by
  induction type with
  | primitive kind => exact .pure ⟨trivial, fun _ h => by cases h⟩
  | named key => exact hnamed key r hcovers
  | optional _ ih => exact ih
  | sequence element ih =>
      refine ih.bind fun result r' _ hresult => ?_
      exact .pure ⟨hresult.1, fun _ h => by cases h⟩
  | generic => exact .throw _

theorem fieldDraft_leads (hnamed : NamedLeads graph writable inner) (hcovers : Covers writable r)
    (field : FieldShape) :
    Leads graph writable r (fieldDraft graph inner field) fun p r' => r'.Collected p.type :=
  (typeOf_leads hnamed hcovers field.type).bind fun _ _ _ htype => .pure htype.1

theorem baseKey_leads (hnamed : NamedLeads graph writable inner) (hcovers : Covers writable r)
    (shape : RecordShape) :
    Leads graph writable r (baseKey inner shape) fun base r' =>
      base = shape.base.bind graph.key? ∧ ∀ b, base = some b → (r'.record? b).isSome = true := by
  unfold baseKey
  cases hbase : shape.base with
  | none => exact .pure ⟨rfl, fun _ h => by cases h⟩
  | some base =>
      refine (typeOf_leads hnamed hcovers base).bind fun type r' _ ⟨hcollected, hkey⟩ => ?_
      cases type with
      | complex key =>
          refine .pure ⟨(hkey key rfl).symm, fun b hb => ?_⟩
          obtain rfl := Option.some.inj hb
          exact hcollected
      | _ => exact .throw _

/-- A type that is there is found, and one that is not is resolved. -/
theorem reuse_leads {resolve : ResolverM EdmType} (hkey : graph.key? (.named key) = some key)
    (h : r.known? key = none → Leads graph writable r resolve (IsNamed graph (.named key))) :
    Leads graph writable r (reuse key resolve) (IsNamed graph (.named key)) := by
  unfold reuse
  refine .get_bind ?_
  cases hknown : r.known? key with
  | none => exact h hknown
  | some type =>
      obtain ⟨hcollected, htype⟩ := known?_eq_some hknown
      refine .pure ⟨hcollected, fun k hk => ?_⟩
      rcases htype with rfl | rfl
      · obtain rfl := EdmType.complex.inj hk
        exact hkey
      · cases hk

theorem resolveEnum_leads {shape : EnumShape} (hshape : graph.shape key = .enumeration shape)
    (hwritable : writable key) :
    Leads graph writable r (resolveEnum key shape) (IsNamed graph (.named key)) := by
  refine .claim_bind (fun named hclaim => .enumeration hshape hwritable hclaim) fun named _ => ?_
  refine .pure ⟨?_, fun _ h => by cases h⟩
  show ((named.enums ++ [shape.toEnumType key]).any fun type => type.key == key) = true
  rw [List.any_append]
  simp [EnumShape.toEnumType]

/-- A record enters without properties, is found there by its fields, and is completed. -/
theorem resolveRecord_leads (hnamed : NamedLeads graph writable inner)
    (hcovers : Covers writable r) {shape : RecordShape} (hshape : graph.shape key = .record shape)
    (hwritable : writable key) :
    Leads graph writable r (resolveRecord graph inner key shape) (IsNamed graph (.named key)) := by
  refine (baseKey_leads hnamed hcovers shape).bind fun base r₁ hsteps ⟨hbase, hknown⟩ => ?_
  have hcovers₁ : Covers writable r₁ := hcovers.mono hsteps.keeps
  have henter (named : Resolver)
      (hclaim : r₁.claim (shape.space ++ "." ++ shape.name) key = .ok named) :
      Step graph writable r₁ (named.putRecord key ⟨shape.space, shape.name, base, []⟩) :=
    .enter hshape hwritable hbase hknown hclaim
  refine .claim_bind henter fun named hclaim => ?_
  have hkeeps := (henter named hclaim).keeps
  have hstays (p : PropertyDraft) (r r' : Resolver) (h : Keeps r r') (hp : r.Collected p.type) :
      r'.Collected p.type := h.collected hp
  refine (Leads.mapM hstays fun field _ r' hsteps =>
    fieldDraft_leads hnamed (hcovers₁.mono (hkeeps.trans hsteps.keeps)) field).bind
      fun properties r₂ hsteps hproperties => ?_
  have hentered : (r₂.record? key).isSome = true := by
    refine hsteps.keeps.records key ?_
    rw [record?_putRecord, if_pos rfl]
    rfl
  refine .modify_bind (.complete hshape hwritable hbase
    (fun b hb => (hkeeps.trans hsteps.keeps).records b (hknown b hb)) hentered ?_) ?_
  · intro p hp
    exact hproperties p (List.mem_mergeSort.1 hp)
  · refine .pure ⟨?_, fun k hk => ?_⟩
    · show ((Resolver.putRecord _ _ _).record? key).isSome = true
      rw [record?_putRecord, if_pos rfl]
      rfl
    · obtain rfl := EdmType.complex.inj hk
      exact HostGraph.key?_record hshape

/-- Resolution writes only types that were not there. -/
theorem resolveNamed_leads (depth : Nat) :
    NamedLeads graph writable (resolveNamed graph depth) := by
  induction depth with
  | zero => exact fun _ _ _ => .throw _
  | succ depth ih =>
      intro key r hcovers
      unfold resolveNamed
      cases hshape : graph.shape key with
      | enumeration shape =>
          exact reuse_leads (HostGraph.key?_enumeration hshape) fun hknown =>
            resolveEnum_leads hshape (hcovers key hknown)
      | record shape =>
          exact reuse_leads (HostGraph.key?_record hshape) fun hknown =>
            resolveRecord_leads ih hcovers hshape (hcovers key hknown)
      | plain plain =>
          refine (typeOf_leads ih hcovers (plain.type key)).mono fun type r' hresult => ?_
          exact ⟨hresult.1, fun k hk => HostGraph.key?_plain hshape ▸ hresult.2 k hk⟩

theorem resolve_leads (graph : HostGraph) (type : HostType) (r : Resolver) :
    Leads graph (fun key => r.known? key = none) r (resolve graph type) (IsNamed graph type) :=
  typeOf_leads (resolveNamed_leads _) (fun _ h => h) type

/-! ## What resolution adds -/

/-- New types and names come to what has been collected, which stays as it is.  If no type comes to
it, nothing does. -/
structure Extends (r r' : Resolver) : Prop where
  records : ∃ new, r'.records = new ++ r.records ∧ ∀ entry ∈ new, r.known? entry.1 = none
  enums : ∃ new, r'.enums = r.enums ++ new ∧ ∀ type ∈ new, r.known? type.key = none
  names : r.names <+: r'.names
  fresh : r' = r ∨ ∃ key, r.known? key = none ∧ r'.known? key ≠ none

theorem Extends.refl (r : Resolver) : Extends r r where
  records := ⟨[], rfl, by simp⟩
  enums := ⟨[], by simp, by simp⟩
  names := List.prefix_rfl
  fresh := .inl rfl

/-- Entering a record that was not there leaves those that were. -/
theorem records_putRecord {new : List (TypeKey × RecordDraft)}
    (hrecords : r'.records = new ++ r.records) (hnew : ∀ entry ∈ new, r.known? entry.1 = none)
    (hkey : r.known? key = none) (draft : RecordDraft) :
    ∃ new, (r'.putRecord key draft).records = new ++ r.records ∧
      ∀ entry ∈ new, r.known? entry.1 = none := by
  have hlookup : r.records.lookup key = none := (known?_eq_none_iff.1 hkey).1
  have hold : r.records.filter (fun entry => entry.1 != key) = r.records := by
    rw [List.filter_eq_self]
    intro entry hentry
    have hne := List.lookup_eq_none_iff.1 hlookup entry hentry
    rw [bne_iff_ne] at hne ⊢
    exact hne.symm
  refine ⟨(key, draft) :: new.filter fun entry => entry.1 != key, ?_, ?_⟩
  · rw [putRecord, hrecords, List.filter_append, hold, List.cons_append]
  · exact List.forall_mem_cons.2 ⟨hkey, fun entry hentry => hnew entry (List.mem_filter.1 hentry).1⟩

/-- The type of a step is there afterwards. -/
theorem Step.exists_known (h : Step graph writable r r') :
    ∃ key, writable key ∧ r'.known? key ≠ none := by
  cases h with
  | enumeration hshape hwritable => exact ⟨_, hwritable, known?_putEnum _ _⟩
  | enter hshape hwritable => exact ⟨_, hwritable, known?_putRecord _ _ _⟩
  | complete hshape hwritable => exact ⟨_, hwritable, known?_putRecord _ _ _⟩

theorem Extends.step (h : Extends r r')
    (hstep : Step graph (fun key => r.known? key = none) r' r'') : Extends r r'' := by
  have hfresh := hstep.exists_known
  have hnames := h.names.trans hstep.keeps.names
  obtain ⟨records, hrecords, hnewRecords⟩ := h.records
  obtain ⟨enums, henums, hnewEnums⟩ := h.enums
  cases hstep with
  | @enumeration named key shape hshape hwritable hclaim =>
      obtain ⟨hsame, hsameEnums, -⟩ := claim_eq_ok hclaim
      refine ⟨⟨records, hsame.trans hrecords, hnewRecords⟩,
        ⟨enums ++ [shape.toEnumType key], ?_, ?_⟩, hnames, .inr hfresh⟩
      · rw [putEnum, hsameEnums, henums, List.append_assoc]
      · intro type htype
        rcases List.mem_append.1 htype with hmem | hmem
        · exact hnewEnums type hmem
        · obtain rfl := List.mem_singleton.1 hmem
          exact hwritable
  | enter hshape hwritable hbase hknown hclaim =>
      obtain ⟨hsame, hsameEnums, -⟩ := claim_eq_ok hclaim
      exact ⟨records_putRecord (hsame.trans hrecords) hnewRecords hwritable _,
        ⟨enums, hsameEnums.trans henums, hnewEnums⟩, hnames, .inr hfresh⟩
  | complete hshape hwritable =>
      exact ⟨records_putRecord hrecords hnewRecords hwritable _, ⟨enums, henums, hnewEnums⟩, hnames,
        .inr hfresh⟩

theorem Steps.extends (h : Steps graph (fun key => r.known? key = none) r r') : Extends r r' := by
  induction h with
  | refl => exact .refl r
  | tail _ hstep ih => exact ih.step hstep

theorem Extends.record?_of_known (h : Extends r r') (hkey : r.known? key ≠ none) :
    r'.record? key = r.record? key := by
  obtain ⟨new, hnew, hunknown⟩ := h.records
  have hnone : new.lookup key = none := by
    rw [List.lookup_eq_none_iff]
    intro entry hentry
    rw [bne_iff_ne]
    rintro rfl
    exact hkey (hunknown entry hentry)
  rw [record?, hnew, List.lookup_append, hnone]
  rfl

end Resolver

end EntityQuery
