import EntityQuery.Proofs.Result
import EntityQuery.Proofs.Schema.Termination

/-!
# Resolved types are complete

A record that has been entered is complete if it has a property for each of its fields, and all
types that its shape refers to are settled: they have been entered, or they are neither records nor
enum types and wrap types that have been entered.  While a type is resolved, some records are not:
those that wait for their fields.  Resolving a type that succeeds leaves every other record complete
(`resolveNamed_ensures`), also those it has entered itself, for each of them waits only until its
own fields have been resolved.

A record may wait, be completed by a field of its own base, be emptied and wait again.  It does not
matter whether it was complete in between, as the outer call has the last word.
-/

namespace EntityQuery

namespace Resolver

variable {graph : HostGraph} {r r' : Resolver} {key k : TypeKey} {fullName : String}
  {waiting : TypeKey → Prop} {shape : RecordShape} {inner : TypeKey → ResolverM EdmType}

/-! ## Computations that succeed -/

/-- If a computation succeeds, its result has a property. -/
def Ensures {α : Type} (r : Resolver) (x : ResolverM α) (Q : α → Resolver → Prop) : Prop :=
  ∀ a r', x.run.run r = (.ok a, r') → Q a r'

namespace Ensures

variable {α β : Type} {a : α} {x : ResolverM α} {f : α → ResolverM β}
  {Q : α → Resolver → Prop} {P : β → Resolver → Prop}

theorem pure (h : Q a r) : Ensures r (Pure.pure a) Q := by
  intro b r' hrun
  obtain ⟨hb, rfl⟩ := Prod.mk.inj hrun
  obtain rfl := Except.ok.inj hb
  exact h

theorem throw (e : Stop) : Ensures r (MonadExcept.throw e : ResolverM α) Q := by
  intro b r' hrun
  cases (Prod.mk.inj hrun).1

theorem bind (h : Ensures r x Q) (hf : ∀ a r', Q a r' → Ensures r' (f a) P) :
    Ensures r (x >>= f) P := by
  intro b r' hrun
  rw [run_bind] at hrun
  cases hx : x.run.run r with
  | mk result r₁ =>
      rw [hx] at hrun
      cases result with
      | error e => cases (Prod.mk.inj hrun).1
      | ok a => exact hf a r₁ (h a r₁ hx) b r' hrun

theorem mono {Q' : α → Resolver → Prop} (h : Ensures r x Q) (hQ : ∀ a r', Q a r' → Q' a r') :
    Ensures r x Q' := fun a r' hrun => hQ a r' (h a r' hrun)

theorem get_bind {f : Resolver → ResolverM β} (h : Ensures r (f r) P) :
    Ensures r (get >>= f) P := h

theorem modify_bind {change : Resolver → Resolver} {f : Unit → ResolverM β}
    (h : Ensures (change r) (f ()) P) : Ensures r (modify change >>= f) P := h

theorem claim_bind {f : Unit → ResolverM β}
    (h : ∀ named, r.claim fullName key = .ok named → Ensures named (f ()) P) :
    Ensures r (claimName fullName key >>= f) P := by
  intro b r' hrun
  rw [run_bind, run_claimName] at hrun
  cases hclaim : r.claim fullName key with
  | error e =>
      rw [hclaim] at hrun
      cases (Prod.mk.inj hrun).1
  | ok named =>
      rw [hclaim] at hrun
      exact h named hclaim b r' hrun

/-- A list of computations that keep an invariant, each with a property of its result that stays. -/
theorem mapM {f : α → ResolverM β} {as : List α} {I : Resolver → Prop}
    {P : α → β → Resolver → Prop} (hI : I r)
    (hstays : ∀ a b r r', Keeps r r' → P a b r → P a b r')
    (hf : ∀ a ∈ as, ∀ r', I r' →
      Ensures r' (f a) fun b r'' => Keeps r' r'' ∧ I r'' ∧ P a b r'') :
    Ensures r (as.mapM f) fun bs r' =>
      Keeps r r' ∧ I r' ∧ ∀ a ∈ as, ∃ b ∈ bs, P a b r' := by
  induction as generalizing r with
  | nil => exact .pure ⟨.refl r, hI, by simp⟩
  | cons a as ih =>
      rw [List.mapM_cons]
      refine (hf a List.mem_cons_self r hI).bind fun b r₁ ⟨hkeeps, hI₁, hb⟩ => ?_
      refine (ih hI₁ fun a' ha' => hf a' (List.mem_cons_of_mem _ ha')).bind
        fun bs r₂ ⟨hmore, hI₂, hbs⟩ => ?_
      refine .pure ⟨hkeeps.trans hmore, hI₂, List.forall_mem_cons.2 ⟨?_, fun a' ha' => ?_⟩⟩
      · exact ⟨b, List.mem_cons_self, hstays a b r₁ r₂ hmore hb⟩
      · obtain ⟨b', hb', hP⟩ := hbs a' ha'
        exact ⟨b', List.mem_cons_of_mem _ hb', hP⟩

end Ensures

/-! ## Settled types -/

/-- A type has been entered, or what it wraps in the end has. -/
def Settled (graph : HostGraph) (r : Resolver) (key : TypeKey) : Prop :=
  ∀ k, Relation.ReflTransGen graph.Wraps key k →
    r.known? k ≠ none ∨ ∃ plain, graph.shape k = .plain plain

theorem Settled.mono (h : Settled graph r key) (hkeeps : Keeps r r') : Settled graph r' key :=
  fun k hk => (h k hk).imp_left hkeeps.known

theorem settled_of_known (hknown : r.known? key ≠ none)
    (hnot : ∀ plain, graph.shape key ≠ .plain plain) : Settled graph r key := by
  intro k hk
  rcases Relation.ReflTransGen.cases_head hk with rfl | ⟨next, ⟨plain, hshape, -⟩, -⟩
  · exact .inl hknown
  · exact absurd hshape (hnot plain)

theorem settled_of_plain {plain : PlainShape} (hshape : graph.shape key = .plain plain)
    (h : ∀ k, (plain.type key).named? = some k → Settled graph r k) : Settled graph r key := by
  intro k hk
  rcases Relation.ReflTransGen.cases_head hk with rfl | ⟨next, ⟨other, hother, hnext⟩, hrest⟩
  · exact .inr ⟨plain, hshape⟩
  · obtain rfl := NamedShape.plain.inj (hshape.symm.trans hother)
    exact h next hnext k hrest

theorem Settled.of_wraps (h : Settled graph r key) (hwraps : graph.Wraps key k) :
    Settled graph r k := fun next hnext => h next (hnext.head hwraps)

/-! ## Complete records -/

/-- A record has a property for each field of its shape. -/
def Furnished (r : Resolver) (key : TypeKey) (shape : RecordShape) : Prop :=
  ∃ draft, r.record? key = some draft ∧
    ∀ field ∈ shape.fields, ∃ p ∈ draft.properties, p.name = field.name

/-- If a type is a record, it is there with all that its shape asks for. -/
def Complete (graph : HostGraph) (r : Resolver) (key : TypeKey) : Prop :=
  ∀ shape, graph.shape key = .record shape →
    r.Furnished key shape ∧ ∀ k, graph.Refers key k → Settled graph r k

/-- All types that have been entered are complete, except for some that wait for their fields. -/
def CompleteBut (graph : HostGraph) (waiting : TypeKey → Prop) (r : Resolver) : Prop :=
  ∀ key, r.known? key ≠ none → ¬waiting key → Complete graph r key

theorem Complete.mono (h : Complete graph r key) (hkeeps : Keeps r r')
    (hsame : r'.record? key = r.record? key) : Complete graph r' key := by
  intro shape hshape
  obtain ⟨⟨draft, hdraft, hfields⟩, hrefers⟩ := h shape hshape
  exact ⟨⟨draft, hsame.trans hdraft, hfields⟩, fun k hk => (hrefers k hk).mono hkeeps⟩

theorem known?_congr (hrecord : r'.record? key = r.record? key) (henums : r'.enums = r.enums) :
    r'.known? key = r.known? key := by
  rw [known?, known?, hrecord, henums]

/-- A record that is entered waits for its fields. -/
theorem CompleteBut.putRecord (h : CompleteBut graph waiting r) {named : Resolver}
    (hclaim : r.claim fullName key = .ok named) (draft : RecordDraft) :
    CompleteBut graph (fun k => waiting k ∨ k = key) (named.putRecord key draft) := by
  obtain ⟨hrecords, henums, hnames⟩ := claim_eq_ok hclaim
  intro k hknown hnot
  obtain ⟨hwaiting, hne⟩ := not_or.1 hnot
  have hsame : (named.putRecord key draft).record? k = r.record? k := by
    rw [record?_putRecord, if_neg hne, record?, hrecords, record?]
  rw [known?_congr hsame henums] at hknown
  exact (h k hknown hwaiting).mono (keeps_putRecord hrecords henums hnames key draft) hsame

/-- A record that gets its properties waits no more. -/
theorem CompleteBut.complete (h : CompleteBut graph (fun k => waiting k ∨ k = key) r)
    {draft : RecordDraft} (hcomplete : Complete graph (r.putRecord key draft) key) :
    CompleteBut graph waiting (r.putRecord key draft) := by
  intro k hknown hwaiting
  by_cases heq : k = key
  · rwa [heq]
  · have hsame : (r.putRecord key draft).record? k = r.record? k := by
      rw [record?_putRecord, if_neg heq]
    rw [known?_congr hsame rfl] at hknown
    exact (h k hknown (by simp [hwaiting, heq])).mono
      (keeps_putRecord rfl rfl List.prefix_rfl key draft) hsame

theorem CompleteBut.putEnum (h : CompleteBut graph waiting r) {named : Resolver}
    {shape : EnumShape} (hshape : graph.shape key = .enumeration shape)
    (hclaim : r.claim fullName key = .ok named) :
    CompleteBut graph waiting (named.putEnum (shape.toEnumType key)) := by
  obtain ⟨hrecords, henums, hnames⟩ := claim_eq_ok hclaim
  intro k hknown hwaiting
  by_cases heq : k = key
  · intro other hother
    rw [heq, hshape] at hother
    cases hother
  · have hsame : (named.putEnum (shape.toEnumType key)).record? k = r.record? k := by
      rw [Resolver.putEnum, record?, hrecords, record?]
    have hne : ((shape.toEnumType key).key == k) = false := beq_false_of_ne (Ne.symm heq)
    have hbefore : r.known? k ≠ none := by
      rw [known?, hsame, Resolver.putEnum, henums, List.any_append, List.any_cons, hne] at hknown
      simpa [known?] using hknown
    exact (h k hbefore hwaiting).mono (keeps_putEnum hrecords henums hnames _) hsame

/-! ## Resolving -/

/-- Resolving a named type settles it, and leaves no record waiting that did not wait before. -/
def NamedEnsures (graph : HostGraph) (inner : TypeKey → ResolverM EdmType) : Prop :=
  ∀ (waiting : TypeKey → Prop) (key : TypeKey) (r : Resolver), CompleteBut graph waiting r →
    Ensures r (inner key) fun _ r' =>
      Keeps r r' ∧ CompleteBut graph waiting r' ∧ Settled graph r' key

theorem typeOf_ensures (hnamed : NamedEnsures graph inner) (h : CompleteBut graph waiting r)
    (type : HostType) :
    Ensures r (typeOf inner type) fun _ r' =>
      Keeps r r' ∧ CompleteBut graph waiting r' ∧
        ∀ k, type.named? = some k → Settled graph r' k := by
  induction type with
  | primitive kind => exact .pure ⟨.refl r, h, fun k hk => by cases hk⟩
  | named key =>
      refine (hnamed waiting key r h).mono fun _ r' ⟨hkeeps, hcomplete, hsettled⟩ => ?_
      refine ⟨hkeeps, hcomplete, fun k hk => ?_⟩
      obtain rfl := Option.some.inj hk
      exact hsettled
  | optional type ih => exact ih
  | sequence type ih => exact ih.bind fun _ _ hlater => .pure hlater
  | generic => exact .throw _

theorem fieldDraft_ensures (hnamed : NamedEnsures graph inner) (h : CompleteBut graph waiting r)
    (field : FieldShape) :
    Ensures r (fieldDraft graph inner field) fun p r' =>
      Keeps r r' ∧ CompleteBut graph waiting r' ∧ p.name = field.name ∧
        ∀ k, field.type.named? = some k → Settled graph r' k := by
  refine (typeOf_ensures hnamed h field.type).bind fun _ _ ⟨hkeeps, hcomplete, hsettled⟩ => ?_
  exact .pure ⟨hkeeps, hcomplete, rfl, hsettled⟩

theorem baseKey_ensures (hnamed : NamedEnsures graph inner) (h : CompleteBut graph waiting r)
    (shape : RecordShape) :
    Ensures r (baseKey inner shape) fun _ r' =>
      Keeps r r' ∧ CompleteBut graph waiting r' ∧
        ∀ base ∈ shape.base, ∀ k, base.named? = some k → Settled graph r' k := by
  unfold baseKey
  cases shape.base with
  | none => exact .pure ⟨.refl r, h, fun _ hbase => by cases hbase⟩
  | some base =>
      refine (typeOf_ensures hnamed h base).bind fun type _ ⟨hkeeps, hcomplete, hsettled⟩ => ?_
      cases type with
      | complex key =>
          refine .pure ⟨hkeeps, hcomplete, fun b hb => ?_⟩
          obtain rfl := Option.some.inj hb
          exact hsettled
      | _ => exact .throw _

theorem resolveRecord_ensures (hnamed : NamedEnsures graph inner)
    (h : CompleteBut graph waiting r) (hshape : graph.shape key = .record shape) :
    Ensures r (resolveRecord graph inner key shape) fun _ r' =>
      Keeps r r' ∧ CompleteBut graph waiting r' ∧ Settled graph r' key := by
  refine (baseKey_ensures hnamed h shape).bind fun base r₁ ⟨hbefore, hfirst, hbase⟩ => ?_
  refine .claim_bind fun named hclaim => .modify_bind ?_
  obtain ⟨hrecords, henums, hnames⟩ := claim_eq_ok hclaim
  have henter := keeps_putRecord hrecords henums hnames key ⟨shape.space, shape.name, base, []⟩
  -- The record waits from here on until its properties are written; what its fields have led to by
  -- then stays.
  have hstays (field : FieldShape) (p : PropertyDraft) (r r' : Resolver) (hkeeps : Keeps r r')
      (hp : p.name = field.name ∧ ∀ k, field.type.named? = some k → Settled graph r k) :
      p.name = field.name ∧ ∀ k, field.type.named? = some k → Settled graph r' k :=
    ⟨hp.1, fun k hk => (hp.2 k hk).mono hkeeps⟩
  refine (Ensures.mapM (hfirst.putRecord hclaim _) hstays fun field _ r' hr' =>
    fieldDraft_ensures hnamed hr' field).bind fun properties r₂ ⟨hmore, hsecond, hfields⟩ => ?_
  refine .modify_bind (.pure ?_)
  have hlast : Keeps r₂ (r₂.putRecord key ⟨shape.space, shape.name, base,
      properties.mergeSort fun a b => decide (a.name ≤ b.name)⟩) :=
    keeps_putRecord rfl rfl List.prefix_rfl _ _
  have hafter := (henter.trans hmore).trans hlast
  refine ⟨hbefore.trans hafter, hsecond.complete fun other hother => ?_,
    settled_of_known (known?_putRecord _ _ _) (by simp [hshape])⟩
  obtain rfl := NamedShape.record.inj (hshape.symm.trans hother)
  refine ⟨⟨_, by rw [record?_putRecord, if_pos rfl], fun field hfield => ?_⟩, fun k hk => ?_⟩
  · obtain ⟨p, hp, hname, -⟩ := hfields field hfield
    exact ⟨p, List.mem_mergeSort.2 hp, hname⟩
  · obtain ⟨type, htype, hk⟩ := hk
    rw [HostGraph.declarations, hshape] at htype
    rcases List.mem_append.1 htype with hmem | hmem
    · exact (hbase type (Option.mem_toList.1 hmem) k hk).mono hafter
    · obtain ⟨field, hfield, rfl⟩ := List.mem_map.1 hmem
      obtain ⟨p, -, -, hsettled⟩ := hfields field hfield
      exact (hsettled k hk).mono hlast

/-- Looking up a type that has been entered changes nothing. -/
theorem reuse_ensures {resolve : ResolverM EdmType} (h : CompleteBut graph waiting r)
    (hnot : ∀ plain, graph.shape key ≠ .plain plain)
    (hresolve : Ensures r resolve fun _ r' =>
      Keeps r r' ∧ CompleteBut graph waiting r' ∧ Settled graph r' key) :
    Ensures r (reuse key resolve) fun _ r' =>
      Keeps r r' ∧ CompleteBut graph waiting r' ∧ Settled graph r' key := by
  unfold reuse
  refine .get_bind ?_
  cases hknown : r.known? key with
  | none => exact hresolve
  | some type => exact .pure ⟨.refl r, h, settled_of_known (by simp [hknown]) hnot⟩

theorem resolveNamed_ensures (depth : Nat) : NamedEnsures graph (resolveNamed graph depth) := by
  induction depth with
  | zero => exact fun _ _ _ _ => .throw _
  | succ depth ih =>
      intro waiting key r h
      unfold resolveNamed
      cases hshape : graph.shape key with
      | record shape =>
          exact reuse_ensures h (by simp [hshape]) (resolveRecord_ensures ih h hshape)
      | enumeration shape =>
          refine reuse_ensures h (by simp [hshape]) ?_
          refine .claim_bind fun named hclaim => .modify_bind (.pure ?_)
          obtain ⟨hrecords, henums, hnames⟩ := claim_eq_ok hclaim
          exact ⟨keeps_putEnum hrecords henums hnames _, h.putEnum hshape hclaim,
            settled_of_known (known?_putEnum _ _) (by simp [hshape])⟩
      | plain plain =>
          refine (typeOf_ensures ih h (plain.type key)).mono fun _ r' hlater => ?_
          exact ⟨hlater.1, hlater.2.1, settled_of_plain hshape hlater.2.2⟩

end Resolver

end EntityQuery
