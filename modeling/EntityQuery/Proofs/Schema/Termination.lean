import EntityQuery.Proofs.Schema.Resolution

/-!
# How deep resolving a type goes

A named type is resolved in steps that go deeper.  Some are taken before anything is entered for it:
into the type it extends, or into what it wraps.  The others are taken when a record has been
entered, into the types of its fields.  The second kind leaves fewer types to be entered.  The first
kind leaves everything as it was, so a type that needs itself in this way is resolved without end,
and any other type needs fewer and fewer types.

A field of the base may lead back to a type that has not been entered yet, and that is then entered
twice.  This does no harm, since nothing is taken away again.

So the depth that a type needs is bounded by the number of types that are not entered and the number
of types it needs (`depthBound`).  From there on the depth makes no difference to what is done
(`resolve_agree`).  If it still runs out, it would run out at any depth.
-/

namespace EntityQuery

namespace HostGraph

variable {graph : HostGraph} {key k : TypeKey}

/-- The declaration that is resolved before anything is entered for a type: what a record extends,
or what a type is that is neither a record nor an enum type. -/
def needed? (graph : HostGraph) (key : TypeKey) : Option HostType :=
  match graph.shape key with
  | .record shape => shape.base
  | .enumeration _ => none
  | .plain plain => some (plain.type key)

theorem needed?_record {shape : RecordShape} (hshape : graph.shape key = .record shape) :
    graph.needed? key = shape.base := by rw [needed?, hshape]

theorem needed?_enumeration {shape : EnumShape} (hshape : graph.shape key = .enumeration shape) :
    graph.needed? key = none := by rw [needed?, hshape]

theorem needed?_plain {plain : PlainShape} (hshape : graph.shape key = .plain plain) :
    graph.needed? key = some (plain.type key) := by rw [needed?, hshape]

/-- A named type is resolved before anything is entered for another one. -/
def Needs (graph : HostGraph) (key k : TypeKey) : Prop :=
  ∃ type, graph.needed? key = some type ∧ type.named? = some k

theorem needs_of_base {shape : RecordShape} {base : HostType}
    (hshape : graph.shape key = .record shape) (hbase : shape.base = some base)
    (hk : base.named? = some k) : graph.Needs key k :=
  ⟨base, (needed?_record hshape).trans hbase, hk⟩

theorem needs_of_wraps (h : graph.Wraps key k) : graph.Needs key k := by
  obtain ⟨plain, hshape, hk⟩ := h
  exact ⟨plain.type key, needed?_plain hshape, hk⟩

theorem mem_keys_of_needs (h : graph.Needs key k) : key ∈ graph.keys := by
  obtain ⟨type, hneeded, -⟩ := h
  refine mem_keys fun hshape => ?_
  cases (needed?_record hshape).symm.trans hneeded

/-- No type needs itself, if what a described type needs always has a lower rank. -/
theorem not_cycle_of_rank (rank : TypeKey → Nat)
    (h : ∀ entry ∈ graph.entries, ∀ type ∈ graph.needed? entry.1, ∀ k ∈ type.named?,
      rank k < rank entry.1) (key : TypeKey) : ¬Relation.TransGen graph.Needs key key := by
  have hless {key k : TypeKey} (hneeds : graph.Needs key k) : rank k < rank key := by
    obtain ⟨entry, hentry, rfl⟩ := List.mem_map.1 (List.mem_toFinset.1 (mem_keys_of_needs hneeds))
    obtain ⟨type, hneeded, hk⟩ := hneeds
    exact h entry hentry type hneeded k hk
  have hfar {k : TypeKey} (hway : Relation.TransGen graph.Needs key k) : rank k < rank key := by
    induction hway with
    | single hneeds => exact hless hneeds
    | tail _ hneeds ih => exact (hless hneeds).trans ih
  exact fun hcycle => Nat.lt_irrefl _ (hfar hcycle)

end HostGraph

namespace Resolver

variable {graph : HostGraph} {within : TypeKey → Prop} {r r' : Resolver} {key k : TypeKey}
  {fullName : String}

/-! ## What is left to be entered -/

/-- The number of described types that have not been entered. -/
def pending (graph : HostGraph) (r : Resolver) : Nat :=
  (graph.keys.filter fun k => r.known? k = none).card

theorem pending_le (graph : HostGraph) (r : Resolver) : pending graph r ≤ graph.size :=
  (Finset.card_le_card (Finset.filter_subset _ _)).trans graph.card_keys_le

theorem Keeps.pending_lt (h : Keeps r r') (hkey : key ∈ graph.keys) (hbefore : r.known? key = none)
    (hafter : r'.known? key ≠ none) : pending graph r' < pending graph r := by
  apply Finset.card_lt_card
  refine Finset.ssubset_iff_of_subset ?_ |>.2 ⟨key, ?_, ?_⟩
  · intro k hk
    rw [Finset.mem_filter] at hk ⊢
    exact ⟨hk.1, h.unknown hk.2⟩
  · exact Finset.mem_filter.2 ⟨hkey, hbefore⟩
  · intro hmem
    exact hafter (Finset.mem_filter.1 hmem).2

/-- A named type is resolved first when another one is, as things are: a record that has been
entered is only looked up. -/
def NeedsNow (graph : HostGraph) (r : Resolver) (key k : TypeKey) : Prop :=
  graph.Needs key k ∧ (r.known? key = none ∨ graph.Wraps key k)

/-- A depth that is enough for a type. -/
noncomputable def depthBound (graph : HostGraph) (r : Resolver) (key : TypeKey) : Nat :=
  pending graph r * (graph.size + 1) + (graph.reached (NeedsNow graph r) key).card + 1

theorem depthBound_le_maxDepth (graph : HostGraph) (r : Resolver) (key : TypeKey) :
    depthBound graph r key ≤ maxDepth graph := by
  have hpending := Nat.mul_le_mul_right (graph.size + 1) (pending_le graph r)
  have hreached := graph.card_reached_le (NeedsNow graph r) key
  rw [depthBound, maxDepth, Nat.add_mul]
  omega

theorem depthBound_needed (h : NeedsNow graph r key k)
    (hcycle : ¬Relation.TransGen (NeedsNow graph r) key key) :
    depthBound graph r k < depthBound graph r key := by
  have hreached := HostGraph.card_reached_lt (HostGraph.mem_keys_of_needs h.1) h hcycle
  rw [depthBound, depthBound]
  omega

theorem depthBound_field (h : pending graph r' < pending graph r) (key k : TypeKey) :
    depthBound graph r' k < depthBound graph r key := by
  have hpending := Nat.mul_le_mul_right (graph.size + 1) h
  have hreached := graph.card_reached_le (NeedsNow graph r') k
  rw [Nat.succ_mul] at hpending
  rw [depthBound, depthBound]
  omega

/-! ## Going round in circles -/

variable {inner other : TypeKey → ResolverM EdmType} {shape : RecordShape}

theorem typeOf_endless {type : HostType} (hk : type.named? = some k)
    (h : (inner k).run.run r = (.error .endless, r)) :
    (typeOf inner type).run.run r = (.error .endless, r) := by
  induction type with
  | primitive | generic => cases hk
  | named key =>
      obtain rfl := Option.some.inj hk
      exact h
  | optional type ih => exact ih hk
  | sequence type ih => rw [typeOf, run_bind, ih hk]

theorem resolveRecord_endless {base : HostType} (hbase : shape.base = some base)
    (hk : base.named? = some k) (h : (inner k).run.run r = (.error .endless, r)) :
    (resolveRecord graph inner key shape).run.run r = (.error .endless, r) := by
  rw [resolveRecord, run_bind, baseKey, hbase]
  dsimp only
  rw [run_bind, typeOf_endless hk h]

theorem run_reuse_of_unknown (hknown : r.known? key = none) (resolve : ResolverM EdmType) :
    (reuse key resolve).run.run r = resolve.run.run r := by
  rw [reuse, run_bind, run_get]
  dsimp only
  rw [hknown]

/-- A type that needs itself is resolved without end, and without any effect. -/
theorem resolveNamed_endless (h : Relation.TransGen (NeedsNow graph r) key key) (depth : Nat) :
    (resolveNamed graph depth key).run.run r = (.error .endless, r) := by
  induction depth generalizing key with
  | zero => rfl
  | succ depth ih =>
      obtain ⟨k, ⟨⟨type, hneeded, hk⟩, hnow⟩, hcycle⟩ := HostGraph.exists_step_of_cycle h
      have hinner := ih hcycle
      unfold resolveNamed
      cases hshape : graph.shape key with
      | enumeration shape => cases (HostGraph.needed?_enumeration hshape).symm.trans hneeded
      | plain plain =>
          obtain rfl := Option.some.inj ((HostGraph.needed?_plain hshape).symm.trans hneeded)
          exact typeOf_endless hk hinner
      | record shape =>
          have hbase := (HostGraph.needed?_record hshape).symm.trans hneeded
          have hunknown : r.known? key = none := by
            refine hnow.resolve_right ?_
            rintro ⟨plain, hplain, -⟩
            cases hshape.symm.trans hplain
          exact (run_reuse_of_unknown hunknown _).trans (resolveRecord_endless hbase hk hinner)

/-! ## Computations that do the same -/

/-- Two computations do the same, which forgets nothing and has no end only if a type of a set needs
itself. -/
structure Agree (graph : HostGraph) (within : TypeKey → Prop) (r : Resolver) {α : Type}
    (x y : ResolverM α) : Prop where
  same : x.run.run r = y.run.run r
  keeps : Keeps r (x.run.run r).2
  ends : (x.run.run r).1 = .error .endless →
    ∃ key, within key ∧ Relation.TransGen graph.Needs key key

namespace Agree

variable {α β : Type} {x y : ResolverM α} {f g : α → ResolverM β} {e : Stop}

theorem pure (a : α) : Agree graph within r (Pure.pure a) (Pure.pure a) :=
  ⟨rfl, .refl r, fun h => by cases h⟩

/-- Both stop for one reason. -/
theorem stop (he : e = .endless → ∃ key, within key ∧ Relation.TransGen graph.Needs key key)
    (hkeeps : Keeps r r') (hx : x.run.run r = (.error e, r')) (hy : y.run.run r = (.error e, r')) :
    Agree graph within r x y where
  same := hx.trans hy.symm
  keeps := by rwa [hx]
  ends := by
    rw [hx]
    exact fun heq => he (Except.error.inj heq)

/-- Both go on from one state with computations that do the same. -/
theorem go {x' y' : ResolverM α} (h : Agree graph within r' x' y') (hkeeps : Keeps r r')
    (hx : x.run.run r = x'.run.run r') (hy : y.run.run r = y'.run.run r') :
    Agree graph within r x y where
  same := hx.trans (h.same.trans hy.symm)
  keeps := by
    rw [hx]
    exact hkeeps.trans h.keeps
  ends := by
    rw [hx]
    exact h.ends

theorem throw (cause : QueryError) :
    Agree graph within r (MonadExcept.throw (.failed cause) : ResolverM α)
      (MonadExcept.throw (.failed cause)) :=
  stop (fun h => by cases h) (.refl r) rfl rfl

theorem bind (h : Agree graph within r x y)
    (hf : ∀ a r', Keeps r r' → Agree graph within r' (f a) (g a)) :
    Agree graph within r (x >>= f) (y >>= g) := by
  obtain ⟨hsame, hkeeps, hends⟩ := h
  have hx := run_bind x f r
  have hy := run_bind y g r
  rw [← hsame] at hy
  cases hrun : x.run.run r with
  | mk result r' =>
      rw [hrun] at hx hy hkeeps hends
      cases result with
      | ok a => exact (hf a r' hkeeps).go hkeeps hx hy
      | error e => exact stop (fun heq => hends (congrArg Except.error heq)) hkeeps hx hy

/-- Writing the state. -/
theorem modify_bind {change : Resolver → Resolver} {f g : Unit → ResolverM β}
    (hkeeps : Keeps r (change r)) (h : Agree graph within (change r) (f ()) (g ())) :
    Agree graph within r (modify change >>= f) (modify change >>= g) := h.go hkeeps rfl rfl

/-- Taking a name and then writing the state. -/
theorem claim_bind {change : Resolver → Resolver} {f g : Unit → ResolverM β}
    (h : ∀ named, r.claim fullName key = .ok named →
      Keeps r (change named) ∧ Agree graph within (change named) (f ()) (g ())) :
    Agree graph within r (claimName fullName key >>= fun _ => modify change >>= f)
      (claimName fullName key >>= fun _ => modify change >>= g) := by
  have hrun (f : Unit → ResolverM β) := run_bind (claimName fullName key)
    (fun _ => modify change >>= f) r
  simp only [run_claimName] at hrun
  cases hclaim : r.claim fullName key with
  | ok named =>
      rw [hclaim] at hrun
      obtain ⟨hkeeps, hagree⟩ := h named hclaim
      exact hagree.go hkeeps (hrun f) (hrun g)
  | error e =>
      rw [hclaim] at hrun
      exact stop (fun heq => by cases heq) (.refl r) (hrun f) (hrun g)

theorem mapM {f g : α → ResolverM β} {as : List α}
    (h : ∀ a ∈ as, ∀ r', Keeps r r' → Agree graph within r' (f a) (g a)) :
    Agree graph within r (as.mapM f) (as.mapM g) := by
  induction as generalizing r with
  | nil => exact .pure []
  | cons a as ih =>
      rw [List.mapM_cons, List.mapM_cons]
      refine (h a List.mem_cons_self r (.refl r)).bind fun b r' hkeeps => ?_
      refine (ih fun a' ha' r'' hmore => ?_).bind fun bs r'' hmore => .pure (b :: bs)
      exact h a' (List.mem_cons_of_mem _ ha') r'' (hkeeps.trans hmore)

end Agree

/-! ## Resolving at two depths -/

theorem typeOf_agree {type : HostType}
    (h : ∀ k, type.named? = some k → Agree graph within r (inner k) (other k)) :
    Agree graph within r (typeOf inner type) (typeOf other type) := by
  induction type with
  | primitive kind => exact .pure _
  | named key => exact h key rfl
  | optional type ih => exact ih h
  | sequence type ih => exact (ih h).bind fun element r' _ => .pure _
  | generic => exact .throw _

theorem baseKey_agree
    (h : ∀ base, shape.base = some base → ∀ k, base.named? = some k →
      Agree graph within r (inner k) (other k)) :
    Agree graph within r (baseKey inner shape) (baseKey other shape) := by
  unfold baseKey
  cases hbase : shape.base with
  | none => exact .pure none
  | some base =>
      refine (typeOf_agree (h base hbase)).bind fun type r' _ => ?_
      cases type with
      | complex parent => exact .pure _
      | _ => exact .throw _

/-- Two ways to resolve inner types make the same record, if they agree on the base as things are,
and on the types of the fields once the record has been entered. -/
theorem resolveRecord_agree
    (hbase : ∀ base, shape.base = some base → ∀ k, base.named? = some k →
      Agree graph within r (inner k) (other k))
    (hfields : ∀ field ∈ shape.fields, ∀ r', Keeps r r' → r'.known? key ≠ none →
      ∀ k, field.type.named? = some k → Agree graph within r' (inner k) (other k)) :
    Agree graph within r (resolveRecord graph inner key shape)
      (resolveRecord graph other key shape) := by
  refine (baseKey_agree hbase).bind fun base r₁ hbefore => ?_
  refine .claim_bind fun named hclaim => ?_
  obtain ⟨hrecords, henums, hnames⟩ := claim_eq_ok hclaim
  have henter := keeps_putRecord hrecords henums hnames key ⟨shape.space, shape.name, base, []⟩
  refine ⟨henter, (Agree.mapM fun field hfield r₂ hmore => ?_).bind fun properties r₃ _ => ?_⟩
  · have hknown := hmore.known (known?_putRecord named key ⟨shape.space, shape.name, base, []⟩)
    have hinner := hfields field hfield r₂ (hbefore.trans (henter.trans hmore)) hknown
    exact (typeOf_agree hinner).bind fun type _ _ => .pure _
  · exact .modify_bind (keeps_putRecord rfl rfl List.prefix_rfl _ _) (.pure _)

theorem resolveEnum_agree (key : TypeKey) (shape : EnumShape) :
    Agree graph within r (resolveEnum key shape) (resolveEnum key shape) := by
  refine .claim_bind fun named hclaim => ⟨?_, .pure _⟩
  obtain ⟨hrecords, henums, hnames⟩ := claim_eq_ok hclaim
  exact keeps_putEnum hrecords henums hnames _

theorem reuse_agree {x y : ResolverM EdmType}
    (h : r.known? key = none → Agree graph within r x y) :
    Agree graph within r (reuse key x) (reuse key y) := by
  cases hknown : r.known? key with
  | none =>
      exact (h hknown).go (.refl r) (run_reuse_of_unknown hknown x)
        (run_reuse_of_unknown hknown y)
  | some type =>
      have hrun (x : ResolverM EdmType) : (reuse key x).run.run r = (.ok type, r) := by
        rw [reuse, run_bind, run_get]
        dsimp only
        rw [hknown]
        rfl
      exact (Agree.pure type).go (.refl r) (hrun x) (hrun y)

/-- Depths that are enough for a type make no difference. -/
theorem resolveNamed_agree (hencloses : graph.Encloses within) (hkey : within key)
    {depth larger : Nat} (hdepth : depthBound graph r key ≤ depth)
    (hlarger : depthBound graph r key ≤ larger) :
    Agree graph within r (resolveNamed graph depth key) (resolveNamed graph larger key) := by
  induction depth generalizing larger key r with
  | zero => exact absurd hdepth (Nat.not_succ_le_zero _)
  | succ depth ih =>
      by_cases hcycle : Relation.TransGen (NeedsNow graph r) key key
      · have hneeds : Relation.TransGen graph.Needs key key :=
          hcycle.lift id fun _ _ h => h.1
        exact .stop (fun _ => ⟨key, hkey, hneeds⟩) (.refl r) (resolveNamed_endless hcycle _)
          (resolveNamed_endless hcycle _)
      · obtain ⟨larger, rfl⟩ := Nat.exists_eq_succ_of_ne_zero (Nat.ne_zero_of_lt hlarger)
        have hinner {r' : Resolver} {k : TypeKey} (hrefers : graph.Refers key k)
            (hless : depthBound graph r' k < depthBound graph r key) :
            Agree graph within r' (resolveNamed graph depth k) (resolveNamed graph larger k) :=
          ih (hencloses key k hkey hrefers) (by omega) (by omega)
        unfold resolveNamed
        cases hshape : graph.shape key with
        | enumeration shape => exact reuse_agree fun _ => resolveEnum_agree key shape
        | plain plain =>
            refine typeOf_agree fun k hk => ?_
            have hwraps : graph.Wraps key k := ⟨plain, hshape, hk⟩
            exact hinner (HostGraph.refers_of_wraps hwraps)
              (depthBound_needed ⟨HostGraph.needs_of_wraps hwraps, .inr hwraps⟩ hcycle)
        | record shape =>
            refine reuse_agree fun hunknown => resolveRecord_agree (fun base hbase k hk => ?_)
              fun field hfield r' hkeeps hentered k hk => ?_
            -- The base is resolved as things are, the fields when the type itself is entered.
            · exact hinner (HostGraph.refers_of_base hshape hbase hk)
                (depthBound_needed ⟨HostGraph.needs_of_base hshape hbase hk, .inl hunknown⟩ hcycle)
            · have hdescribed : key ∈ graph.keys := HostGraph.mem_keys fun hbare => by
                obtain rfl := NamedShape.record.inj (hshape.symm.trans hbare)
                cases hfield
              exact hinner (HostGraph.refers_of_field hshape hfield hk)
                (depthBound_field (hkeeps.pending_lt hdescribed hunknown hentered) key k)

/-- Beyond the limit that is set for resolving a type, the depth makes no difference.  If resolving
has no end, then a type of the set needs itself. -/
theorem resolve_agree (hencloses : graph.Encloses within) {type : HostType}
    (hwithin : ∀ k, type.named? = some k → within k) (r : Resolver) {depth : Nat}
    (hdepth : maxDepth graph ≤ depth) :
    Agree graph within r (resolve graph type) (typeOf (resolveNamed graph depth) type) :=
  typeOf_agree fun k hk => resolveNamed_agree hencloses (hwithin k hk)
    (depthBound_le_maxDepth graph r k) ((depthBound_le_maxDepth graph r k).trans hdepth)

/-- Nothing is entered in the beginning, so that a type that needs itself is resolved without end.
-/
theorem resolveNamed_empty_endless (h : Relation.TransGen graph.Needs key key) (depth : Nat) :
    (resolveNamed graph depth key).run.run .empty = (.error .endless, .empty) :=
  resolveNamed_endless (h.lift id fun _ _ hneeds => ⟨hneeds, .inl rfl⟩) depth

end Resolver

end EntityQuery
