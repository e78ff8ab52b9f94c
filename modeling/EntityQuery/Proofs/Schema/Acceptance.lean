import EntityQuery.Proofs.Schema.Mapping
import EntityQuery.Proofs.Schema.SetNames
import EntityQuery.Proofs.Tables

/-!
# Calls that are accepted

Calls over one graph, for entity sets whose names differ, all succeed exactly if each of them
declares something that has a counterpart and the types that they reach are regular (`runAll_iff`).
None of this has to do with the order of the calls.

Nor has what they collect: exactly the types that can be reached, each as its shape says
(`collects_of_runAll`).
-/

namespace EntityQuery

/-! ## Types that do not need themselves -/

namespace HostGraph

variable {graph : HostGraph} {key k parent : TypeKey} {shape : RecordShape} {type : HostType}

theorem not_cycle_of_acc (h : Acc (fun k key => graph.Needs key k) key) :
    ¬Relation.TransGen graph.Needs key key := by
  induction h with
  | intro key _ ih =>
      intro hcycle
      obtain ⟨k, hneeds, hback⟩ := exists_step_of_cycle hcycle
      exact ih k hneeds hback

/-- A type that stands for something needs finitely many types if the record in it does. -/
theorem acc_of_namedTypeWithin {depth : Nat} (h : graph.namedTypeWithin depth key ≠ none)
    (hrecord : ∀ k shape, Relation.ReflTransGen graph.Wraps key k →
      graph.shape k = .record shape → Acc (fun k key => graph.Needs key k) k) :
    Acc (fun k key => graph.Needs key k) key := by
  induction depth generalizing key with
  | zero => exact absurd rfl h
  | succ depth ih =>
      rw [namedTypeWithin] at h
      cases hshape : graph.shape key with
      | record shape => exact hrecord key shape .refl hshape
      | enumeration shape =>
          refine .intro _ fun k hneeds => ?_
          obtain ⟨type, hneeded, -⟩ := hneeds
          cases (needed?_enumeration hshape).symm.trans hneeded
      | plain plain =>
          rw [hshape] at h
          refine .intro _ fun k hneeds => ?_
          obtain ⟨type, hneeded, hk⟩ := hneeds
          obtain rfl := Option.some.inj ((needed?_plain hshape).symm.trans hneeded)
          refine ih (fun hnone => h (HostType.edmType?_eq_none hk hnone)) fun next other hnext => ?_
          exact hrecord next other (hnext.head ⟨plain, hshape, hk⟩)

/-- A declaration that stands for a record wraps no other record. -/
theorem eq_of_wraps (htype : graph.edmType? type = some (.complex parent))
    (hk : type.named? = some k) {next : TypeKey} (hway : Relation.ReflTransGen graph.Wraps k next)
    (hshape : graph.shape next = .record shape) : next = parent := by
  have hstands {type : HostType} {k : TypeKey} (h : graph.edmType? type = some (.complex parent))
      (hk : type.named? = some k) : graph.namedType? k = some (.complex parent) := by
    obtain ⟨inner, hinner, hvalue⟩ := HostType.exists_of_edmType?_complex h
    rwa [← Option.some.inj (hinner.symm.trans hk)]
  have hvalue : graph.namedType? next = some (.complex parent) := by
    clear hshape
    induction hway with
    | refl => exact hstands htype hk
    | tail _ hwraps ih =>
        obtain ⟨plain, hplain, hnext⟩ := hwraps
        exact hstands ((namedType?_plain hplain).symm.trans ih) hnext
  exact EdmType.complex.inj (Option.some.inj ((namedType?_record hshape).symm.trans hvalue))

/-- All that makes up a record with a counterpart has a counterpart. -/
theorem edmType?_ne_none_of_draft? (h : graph.draft? shape ≠ none)
    (htype : type ∈ shape.base.toList ++ shape.fields.map FieldShape.type) :
    graph.edmType? type ≠ none := by
  intro hnone
  refine h (Option.eq_none_iff_forall_ne_some.2 fun draft hdraft => ?_)
  obtain ⟨base, hbase, hrest⟩ := Option.bind_eq_some_iff.1 hdraft
  obtain ⟨properties, hproperties, -⟩ := Option.bind_eq_some_iff.1 hrest
  rcases List.mem_append.1 htype with hmem | hmem
  · rw [baseKey?, Option.mem_toList.1 hmem] at hbase
    dsimp only at hbase
    rw [hnone] at hbase
    cases hbase
  · obtain ⟨field, hfield, rfl⟩ := List.mem_map.1 hmem
    obtain ⟨p, hp⟩ := exists_some_of_mapM hproperties hfield
    rw [fieldDraft?, hnone] at hp
    cases hp

end HostGraph

/-! ## What has been collected in the end -/

namespace Resolver

variable {graph : HostGraph} {within : TypeKey → Prop} {r r' : Resolver} {key : TypeKey}

/-- The types of a set have been collected, and nothing else. -/
structure Collects (graph : HostGraph) (within : TypeKey → Prop) (r : Resolver) : Prop where
  records : ∀ key draft, (key, draft) ∈ r.records ↔
    within key ∧ ∃ shape, graph.shape key = .record shape ∧ graph.draft? shape = some draft
  enums : ∀ type, type ∈ r.enums ↔
    within type.key ∧ ∃ shape, graph.shape type.key = .enumeration shape ∧
      type = shape.toEnumType type.key
  names : ∀ name key, (name, key) ∈ r.names ↔ within key ∧ graph.fullName? key = some name
  uniqueRecords : (r.records.map Prod.fst).Nodup
  uniqueEnums : (r.enums.map EnumType.key).Nodup
  uniqueNames : (r.names.map Prod.fst).Nodup

/-- All types of a set have been entered that have a name in the model. -/
def Covered (graph : HostGraph) (within : TypeKey → Prop) (r : Resolver) : Prop :=
  ∀ key, within key → r.known? key ≠ none ∨ ∃ plain, graph.shape key = .plain plain

/-- A type that has been entered is there as what its shape says. -/
theorem Faithful.collected_of_known {waiting : TypeKey → Prop}
    (h : Faithful graph within waiting r) (hknown : r.known? key ≠ none) :
    ∃ type, graph.namedType? key = some type ∧ r.Collected type := by
  obtain ⟨type, htype⟩ := Option.ne_none_iff_exists'.1 hknown
  exact ⟨type, (h.of_known htype).2, (known?_eq_some htype).1⟩

theorem Faithful.within_of_known {waiting : TypeKey → Prop}
    (h : Faithful graph within waiting r) (hknown : r.known? key ≠ none) : within key := by
  obtain ⟨type, htype⟩ := Option.ne_none_iff_exists'.1 hknown
  exact (h.of_known htype).1

theorem Faithful.record?_of_known {waiting : TypeKey → Prop}
    (h : Faithful graph within waiting r) (hknown : r.known? key ≠ none) {shape : RecordShape}
    (hshape : graph.shape key = .record shape) : ∃ draft, r.record? key = some draft := by
  obtain ⟨type, htype, hcollected⟩ := h.collected_of_known hknown
  obtain rfl := Option.some.inj ((HostGraph.namedType?_record hshape).symm.trans htype)
  exact Option.isSome_iff_exists.1 hcollected

theorem Faithful.enum_of_known {waiting : TypeKey → Prop}
    (h : Faithful graph within waiting r) (hknown : r.known? key ≠ none) {shape : EnumShape}
    (hshape : graph.shape key = .enumeration shape) : shape.toEnumType key ∈ r.enums := by
  obtain ⟨type, htype, hcollected⟩ := h.collected_of_known hknown
  obtain rfl := Option.some.inj ((HostGraph.namedType?_enumeration hshape).symm.trans htype)
  obtain ⟨type, hmem, hkey⟩ := List.any_eq_true.1 hcollected
  obtain rfl := beq_iff_eq.1 hkey
  obtain ⟨-, other, hother, htype⟩ := h.enums type hmem
  obtain rfl := NamedShape.enumeration.inj (hshape.symm.trans hother)
  rwa [← htype]

/-- If no record waits and all types of the set have been entered, they have been collected. -/
theorem Faithful.collects (h : Faithful graph within (fun _ => False) r)
    (hall : Covered graph within r) : Collects graph within r where
  records key draft := by
    rw [← lookup_eq_some_iff_mem h.uniqueRecords]
    constructor
    · intro hdraft
      obtain ⟨hwithin, shape, hshape, hread⟩ := h.records key draft hdraft
      exact ⟨hwithin, shape, hshape, hread id⟩
    · rintro ⟨hwithin, shape, hshape, hread⟩
      have hknown := (hall key hwithin).resolve_right (by simp [hshape])
      obtain ⟨other, hother⟩ := h.record?_of_known hknown hshape
      obtain ⟨-, again, hagain, hdraft⟩ := h.records key other hother
      obtain rfl := NamedShape.record.inj (hshape.symm.trans hagain)
      rwa [← Option.some.inj ((hdraft id).symm.trans hread)]
  enums type := by
    refine ⟨h.enums type, ?_⟩
    rintro ⟨hwithin, shape, hshape, htype⟩
    rw [htype]
    exact h.enum_of_known ((hall _ hwithin).resolve_right (by simp [hshape])) hshape
  names name key := by
    rw [h.names]
    refine and_congr_left fun hname => ⟨h.within_of_known, fun hwithin => ?_⟩
    refine (hall key hwithin).resolve_right ?_
    rintro ⟨plain, hshape⟩
    rw [HostGraph.fullName?, hshape] at hname
    cases hname
  uniqueRecords := h.uniqueRecords
  uniqueEnums := h.uniqueEnums
  uniqueNames := h.uniqueNames

/-- What has been collected is determined by the set, up to its order. -/
theorem Collects.perm (h : Collects graph within r) (h' : Collects graph within r') :
    r.records.Perm r'.records ∧ r.enums.Perm r'.enums ∧ r.names.Perm r'.names := by
  refine ⟨?_, ?_, ?_⟩
  · rw [List.perm_ext_iff_of_nodup h.uniqueRecords.of_map h'.uniqueRecords.of_map]
    exact fun entry => (h.records entry.1 entry.2).trans (h'.records entry.1 entry.2).symm
  · rw [List.perm_ext_iff_of_nodup h.uniqueEnums.of_map h'.uniqueEnums.of_map]
    exact fun type => (h.enums type).trans (h'.enums type).symm
  · rw [List.perm_ext_iff_of_nodup h.uniqueNames.of_map h'.uniqueNames.of_map]
    exact fun entry => (h.names entry.1 entry.2).trans (h'.names entry.1 entry.2).symm

theorem Faithful.draft?_ne_none (h : Faithful graph within (fun _ => False) r)
    (hall : Covered graph within r) (hkey : within key) {shape : RecordShape}
    (hshape : graph.shape key = .record shape) : graph.draft? shape ≠ none := by
  have hknown := (hall key hkey).resolve_right (by simp [hshape])
  obtain ⟨draft, hdraft⟩ := h.record?_of_known hknown hshape
  obtain ⟨-, other, hother, hread⟩ := h.records key draft hdraft
  obtain rfl := NamedShape.record.inj (hshape.symm.trans hother)
  simp [hread id]

/-- A record that has been collected with all it extends needs finitely many types. -/
theorem Faithful.acc_of_ancestry (h : Faithful graph within (fun _ => False) r)
    {chain : List (TypeKey × RecordDraft)} (hchain : r.Ancestry key chain) :
    Acc (fun k key => graph.Needs key k) key := by
  have hbase {key : TypeKey} {draft : RecordDraft} (hdraft : r.record? key = some draft)
      {type : HostType} (hneeded : graph.needed? key = some type) :
      ∃ parent, graph.edmType? type = some (.complex parent) ∧ draft.base = some parent := by
    obtain ⟨-, shape, hshape, hread⟩ := h.records key draft hdraft
    have hextends := (HostGraph.needed?_record hshape).symm.trans hneeded
    obtain ⟨base, hparent, hrest⟩ := Option.bind_eq_some_iff.1 (hread id)
    obtain ⟨properties, -, hdraft⟩ := Option.bind_eq_some_iff.1 hrest
    obtain rfl := Option.some.inj hdraft
    rw [HostGraph.baseKey?, hextends] at hparent
    obtain ⟨result, hresult, hparent⟩ := Option.bind_eq_some_iff.1 hparent
    cases result with
    | complex parent => exact ⟨parent, hresult, (Option.some.inj hparent).symm⟩
    | _ => cases hparent
  induction hchain with
  | last hdraft hnone =>
      refine .intro _ fun k hneeds => ?_
      obtain ⟨type, hneeded, hk⟩ := hneeds
      obtain ⟨parent, -, hsome⟩ := hbase hdraft hneeded
      cases hnone.symm.trans hsome
  | step hdraft hparent _ ih =>
      refine .intro _ fun k hneeds => ?_
      obtain ⟨type, hneeded, hk⟩ := hneeds
      obtain ⟨parent, hvalue, hsome⟩ := hbase hdraft hneeded
      obtain rfl := Option.some.inj (hparent.symm.trans hsome)
      have hstands : graph.namedType? k ≠ none :=
        HostGraph.namedType?_ne_none (by simp [hvalue]) hk
      refine HostGraph.acc_of_namedTypeWithin hstands fun next shape hnext hshape => ?_
      rwa [HostGraph.eq_of_wraps hvalue hk hnext hshape]

/-- A set whose types stand for something and have all been entered is regular, or one of them would
not have been. -/
theorem Faithful.regular (h : Faithful graph within (fun _ => False) r)
    (hall : Covered graph within r) (hground : Grounded r) (hencloses : graph.Encloses within)
    (hstands : ∀ key, within key → graph.namedType? key ≠ none) : graph.Regular within where
  drafts _ _ hkey hshape := h.draft?_ne_none hall hkey hshape
  names key k name hkey hk hname hsame := by
    have hnamed {key : TypeKey} (hkey : within key) (hname : graph.fullName? key = some name) :
        r.names.lookup name = some key := by
      have hknown : r.known? key ≠ none := by
        refine (hall key hkey).resolve_right ?_
        rintro ⟨plain, hshape⟩
        rw [HostGraph.fullName?, hshape] at hname
        cases hname
      exact (lookup_eq_some_iff_mem h.uniqueNames).2 ((h.names name key).2 ⟨hknown, hname⟩)
    exact Option.some.inj ((hnamed hkey hname).symm.trans (hnamed hk hsame))
  ends key hkey := by
    refine HostGraph.not_cycle_of_acc
      (HostGraph.acc_of_namedTypeWithin (hstands key hkey) fun k shape hway hshape => ?_)
    have hk : within k := by
      clear hshape
      induction hway with
      | refl => exact hkey
      | tail _ hwraps ih => exact hencloses _ _ ih (HostGraph.refers_of_wraps hwraps)
    have hknown := (hall k hk).resolve_right (by simp [hshape])
    obtain ⟨draft, hdraft⟩ := h.record?_of_known hknown hshape
    obtain ⟨chain, hchain⟩ := hground k (by rw [hdraft]; rfl)
    exact h.acc_of_ancestry hchain

end Resolver

/-! ## Calls -/

namespace ModelBuilder

variable {graph : HostGraph} {within : TypeKey → Prop} {builder after : ModelBuilder}
  {call : Call} {calls : List Call}

/-- A type can be reached from the declarations of calls. -/
def Call.Reached (graph : HostGraph) (calls : List Call) (key : TypeKey) : Prop :=
  ∃ call ∈ calls, graph.Reaches call.type key

/-- What a call declares has a counterpart in the model, and is a record if it is to be behind an
entity set. -/
def Call.Admissible (graph : HostGraph) : Call → Prop
  | register _ _ type _ _ => ∃ key, graph.edmType? type = some (.complex key)
  | registerType _ type => graph.edmType? type ≠ none

theorem encloses_reached (graph : HostGraph) (calls : List Call) :
    graph.Encloses (Call.Reached graph calls) := by
  rintro key k ⟨call, hcall, start, hstart, hpath⟩ hrefers
  exact ⟨call, hcall, start, hstart, hpath.tail hrefers⟩

/-- Registering a type gives its model type, unless it has none or the types that it reaches are not
regular. -/
theorem registerType_cases (graph : HostGraph) (type : HostType)
    (hencloses : graph.Encloses within) (hwithin : ∀ k, type.named? = some k → within k)
    (hr : builder.resolver.Faithful graph within fun _ => False) :
    (∃ result after, builder.registerType graph type = (.ok result, after) ∧
      graph.edmType? type = some result ∧ after.resolver.Faithful graph within fun _ => False) ∨
    ∃ e after, builder.registerType graph type = (.error e, after) ∧
      (graph.edmType? type = none ∨ ¬graph.Regular within) := by
  have hrenders := Resolver.resolve_renders hencloses hr hwithin
  have hends := (Resolver.resolve_agree hencloses hwithin builder.resolver (Nat.le_refl _)).ends
  unfold Resolver.Renders at hrenders
  unfold ModelBuilder.registerType
  cases hrun : (Resolver.resolve graph type).run.run builder.resolver with
  | mk result r =>
      rw [hrun] at hrenders hends
      cases result with
      | ok result => exact .inl ⟨result, _, rfl, hrenders⟩
      | error e =>
          refine .inr ⟨e, _, rfl, ?_⟩
          rcases hrenders with hnone | hflaw | rfl
          · exact .inl hnone
          · exact .inr hflaw
          · obtain ⟨key, hkey, hcycle⟩ := hends rfl
            exact .inr fun hregular => hregular.ends key hkey hcycle

/-- A call succeeds, unless it is not admissible or the types that it reaches are not regular. -/
theorem Call.run_faithful (hencloses : graph.Encloses within)
    (hgraph : call.graph = graph) (hwithin : ∀ k, call.type.named? = some k → within k)
    (hr : builder.resolver.Faithful graph within fun _ => False)
    (hfree : ∀ name ∈ call.name?, ∀ set ∈ builder.sets,
      Text.eqIgnoringAsciiCase set.name name = false) :
    (∃ after, call.run builder = (.ok (), after) ∧ call.Admissible graph ∧
      after.resolver.Faithful graph within fun _ => False) ∨
    ∃ e after, call.run builder = (.error e, after) ∧
      ¬(call.Admissible graph ∧ graph.Regular within) := by
  subst hgraph
  cases call with
  | registerType graph type =>
      unfold run
      dsimp only
      obtain ⟨result, after, hrun, hvalue, hfaithful⟩ | ⟨e, after, hrun, hflaw⟩ :=
        registerType_cases graph type hencloses hwithin hr
      · rw [hrun]
        exact .inl ⟨after, rfl, by simp [Admissible, hvalue, Call.graph], hfaithful⟩
      · rw [hrun]
        refine .inr ⟨e, after, rfl, fun h => ?_⟩
        exact hflaw.elim h.1 fun hnot => hnot h.2
  | register graph name type key capabilities =>
      have hnew : (builder.sets.any fun set => Text.eqIgnoringAsciiCase set.name name) = false :=
        List.any_eq_false.2 fun set hset => by simp [hfree name rfl set hset]
      unfold run ModelBuilder.register
      dsimp only
      rw [hnew, if_neg Bool.false_ne_true]
      obtain ⟨result, after, hrun, hvalue, hfaithful⟩ | ⟨e, after, hrun, hflaw⟩ :=
        registerType_cases graph type hencloses hwithin hr
      · rw [hrun]
        cases result with
        | complex entityType => exact .inl ⟨_, rfl, ⟨entityType, hvalue⟩, hfaithful⟩
        | _ =>
            refine .inr ⟨_, _, rfl, ?_⟩
            rintro ⟨⟨entityType, hadmissible⟩, -⟩
            cases hvalue.symm.trans hadmissible
      · rw [hrun]
        refine .inr ⟨e, after, rfl, ?_⟩
        rintro ⟨⟨entityType, hadmissible⟩, hregular⟩
        refine hflaw.elim (fun hnone => ?_) fun hnot => hnot hregular
        cases hnone.symm.trans hadmissible

/-- The names of entity sets differ after a call that succeeds, if they did with the name of the
call. -/
theorem Call.distinct_of_ok {u : Unit} (h : call.run builder = (.ok u, after))
    (hnames : (builder.sets.map EntitySetDraft.name ++
      (call :: calls).filterMap Call.name?).Pairwise
        fun a b => Text.eqIgnoringAsciiCase a b = false) :
    (after.sets.map EntitySetDraft.name ++ calls.filterMap Call.name?).Pairwise
      fun a b => Text.eqIgnoringAsciiCase a b = false := by
  obtain ⟨hsets, hname⟩ := Call.sets_of_ok h
  rw [hsets]
  rw [List.filterMap_cons, ← hname] at hnames
  cases hdraft : call.draft? with
  | none => simpa [hdraft] using hnames
  | some draft => simpa [hdraft] using hnames

/-- Calls all succeed, unless one of them is not admissible or the types that they reach are not
regular. -/
theorem runAll_faithful (hencloses : graph.Encloses within)
    (hgraph : ∀ call ∈ calls, call.graph = graph)
    (hwithin : ∀ call ∈ calls, ∀ k, call.type.named? = some k → within k)
    (hr : builder.resolver.Faithful graph within fun _ => False)
    (hnames : (builder.sets.map EntitySetDraft.name ++ calls.filterMap Call.name?).Pairwise
      fun a b => Text.eqIgnoringAsciiCase a b = false) :
    (∃ after, Call.runAll builder calls = .ok after ∧ (∀ call ∈ calls, call.Admissible graph) ∧
      after.resolver.Faithful graph within fun _ => False) ∨
    ∃ e, Call.runAll builder calls = .error e ∧
      ¬((∀ call ∈ calls, call.Admissible graph) ∧ graph.Regular within) := by
  induction calls generalizing builder with
  | nil => exact .inl ⟨builder, rfl, by simp, hr⟩
  | cons call calls ih =>
      obtain ⟨hfirst, hothers⟩ := List.forall_mem_cons.1 hgraph
      obtain ⟨hstart, hstarts⟩ := List.forall_mem_cons.1 hwithin
      have hfree : ∀ name ∈ call.name?, ∀ set ∈ builder.sets,
          Text.eqIgnoringAsciiCase set.name name = false := by
        intro name hname set hset
        refine (List.pairwise_append.1 hnames).2.2 set.name (List.mem_map_of_mem hset) name ?_
        exact List.mem_filterMap.2 ⟨call, List.mem_cons_self, hname⟩
      obtain ⟨after, hrun, hadmissible, hafter⟩ | ⟨e, after, hrun, hflaw⟩ :=
        Call.run_faithful hencloses hfirst hstart hr hfree
      · rw [Call.runAll, hrun]
        obtain ⟨last, hlast, hall, hfaithful⟩ | ⟨e, herror, hflaw⟩ :=
          ih hothers hstarts hafter (Call.distinct_of_ok hrun hnames)
        · exact .inl ⟨last, hlast, List.forall_mem_cons.2 ⟨hadmissible, hall⟩, hfaithful⟩
        · exact .inr ⟨e, herror, fun h => hflaw ⟨(List.forall_mem_cons.1 h.1).2, h.2⟩⟩
      · rw [Call.runAll, hrun]
        exact .inr ⟨e, rfl, fun h => hflaw ⟨(List.forall_mem_cons.1 h.1).1, h.2⟩⟩

/-- Calls that succeed have entered all types that they reach and that have a name. -/
theorem covered_of_runAll (hgraph : ∀ call ∈ calls, call.graph = graph)
    (h : Call.runAll .empty calls = .ok after) :
    after.resolver.Covered graph (Call.Reached graph calls) := by
  obtain ⟨hcomplete, -, hsettled⟩ :=
    complete_of_runAll hgraph h fun key hkey => absurd rfl hkey
  rintro key ⟨call, hcall, start, hstart, hpath⟩
  exact settled_of_refers hcomplete (hsettled call hcall start hstart) hpath key .refl

theorem Call.Admissible.edmType?_ne_none (h : call.Admissible graph) :
    graph.edmType? call.type ≠ none := by
  cases call with
  | registerType => exact h
  | register =>
      obtain ⟨key, hkey⟩ := h
      simp [Call.type, hkey]

/-- The types that admissible calls reach stand for something, if the records among them do. -/
theorem namedType?_of_reached (hadmissible : ∀ call ∈ calls, call.Admissible graph)
    (hdrafts : ∀ key shape, Call.Reached graph calls key → graph.shape key = .record shape →
      graph.draft? shape ≠ none) {key : TypeKey} (h : Call.Reached graph calls key) :
    graph.namedType? key ≠ none := by
  obtain ⟨call, hcall, start, hstart, hpath⟩ := h
  induction hpath with
  | refl =>
      exact HostGraph.namedType?_ne_none (hadmissible call hcall).edmType?_ne_none hstart
  | @tail key k hpath hrefers ih =>
      obtain ⟨type, htype, hk⟩ := hrefers
      refine HostGraph.namedType?_ne_none ?_ hk
      cases hshape : graph.shape key with
      | record shape =>
          rw [HostGraph.declarations, hshape] at htype
          exact HostGraph.edmType?_ne_none_of_draft?
            (hdrafts key shape ⟨call, hcall, start, hstart, hpath⟩ hshape) htype
      | enumeration shape =>
          rw [HostGraph.declarations, hshape] at htype
          cases htype
      | plain plain =>
          rw [HostGraph.declarations, hshape] at htype
          obtain rfl := List.mem_singleton.1 htype
          rwa [← HostGraph.namedType?_plain hshape]

section Runs

variable (hgraph : ∀ call ∈ calls, call.graph = graph)
  (hnames : (calls.filterMap Call.name?).Pairwise
    fun a b => Text.eqIgnoringAsciiCase a b = false)

include hgraph hnames

theorem runAll_cases :
    (∃ after, Call.runAll .empty calls = .ok after ∧ (∀ call ∈ calls, call.Admissible graph) ∧
      after.resolver.Faithful graph (Call.Reached graph calls) fun _ => False) ∨
    ∃ e, Call.runAll .empty calls = .error e ∧
      ¬((∀ call ∈ calls, call.Admissible graph) ∧ graph.Regular (Call.Reached graph calls)) :=
  runAll_faithful (encloses_reached graph calls) hgraph
    (fun call hcall k hk => ⟨call, hcall, k, hk, .refl⟩) Resolver.faithful_empty hnames

/-- Calls all succeed exactly if each of them is admissible and the types that they reach are
regular. -/
theorem runAll_iff : (∃ after, Call.runAll .empty calls = .ok after) ↔
    (∀ call ∈ calls, call.Admissible graph) ∧ graph.Regular (Call.Reached graph calls) := by
  obtain ⟨after, hrun, hall, hfaithful⟩ | ⟨e, herror, hflaw⟩ := runAll_cases hgraph hnames
  · have hcovered := covered_of_runAll hgraph hrun
    have hground : after.resolver.Grounded :=
      (afterCalls_of_runAll hrun ▸ sound_afterCalls calls).grounded
    have hdrafts (key : TypeKey) (shape : RecordShape) (hkey : Call.Reached graph calls key)
        (hshape : graph.shape key = .record shape) : graph.draft? shape ≠ none :=
      hfaithful.draft?_ne_none hcovered hkey hshape
    have hregular := hfaithful.regular hcovered hground (encloses_reached graph calls)
      fun _ => namedType?_of_reached hall hdrafts
    exact ⟨fun _ => ⟨hall, hregular⟩, fun _ => ⟨after, hrun⟩⟩
  · refine ⟨?_, fun h => absurd h hflaw⟩
    rintro ⟨after, hrun⟩
    cases herror.symm.trans hrun

/-- Calls that all succeed have collected the types that they reach. -/
theorem collects_of_runAll (h : Call.runAll .empty calls = .ok after) :
    after.resolver.Collects graph (Call.Reached graph calls) := by
  obtain ⟨other, hrun, -, hfaithful⟩ | ⟨e, herror, -⟩ := runAll_cases hgraph hnames
  · obtain rfl := Except.ok.inj (hrun.symm.trans h)
    exact hfaithful.collects (covered_of_runAll hgraph hrun)
  · cases herror.symm.trans h

end Runs

end ModelBuilder

end EntityQuery
