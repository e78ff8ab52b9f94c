import EntityQuery.Proofs.Schema.Closure

/-!
# The names of entity sets

Two notions of case meet in the names of entity sets.  A name is refused if it agrees with an
earlier one up to the case of ASCII letters; sets are kept and looked up by their small form in
Unicode.  So two sets can both be accepted and share their small form.  The later one then takes the
place of the earlier, and nothing is said.

What holds is that a set is found under every name that is its own up to case, if no later set has
such a name, and that other names find nothing.  There are as many sets as calls that register one
exactly if no two names agree up to case.
-/

namespace EntityQuery

open Model

namespace ModelBuilder

variable {sets front back : List EntitySet} {set : EntitySet} {name : String}
  {builder after : ModelBuilder} {calls : List Call} {call : Call} {model : Model}

/-! ## Sets in the place of others -/

theorem foldl_putSet_concat (sets : List EntitySet) (set : EntitySet) :
    (sets ++ [set]).foldl putSet [] =
      (sets.foldl putSet []).filter (fun other => !sameSetName other.name set.name) ++ [set] := by
  rw [List.foldl_append]
  rfl

/-- The last set is found first. -/
theorem find?_foldl_putSet_concat (sets : List EntitySet) (set : EntitySet) (name : String) :
    ((sets ++ [set]).foldl putSet []).find? (fun other => sameSetName other.name name) =
      if sameSetName set.name name then some set
      else (sets.foldl putSet []).find? fun other => sameSetName other.name name := by
  rw [foldl_putSet_concat, List.find?_append]
  split
  · rename_i hsame
    have hnone : ((sets.foldl putSet []).filter fun other =>
        !sameSetName other.name set.name).find? (fun other => sameSetName other.name name)
          = none := by
      rw [List.find?_eq_none]
      intro other hother
      have hkept := (List.mem_filter.1 hother).2
      simp only [sameSetName, Bool.not_eq_true', beq_eq_false_iff_ne, beq_iff_eq] at hsame hkept ⊢
      rwa [← hsame]
    rw [hnone, Option.none_or]
    exact List.find?_cons_of_pos hsame
  · rename_i hother
    have hlast : [set].find? (fun other => sameSetName other.name name) = none :=
      List.find?_cons_of_neg hother
    rw [List.find?_filter, hlast, Option.or_none]
    congr 1
    funext other
    simp only [sameSetName, beq_iff_eq] at hother ⊢
    by_cases heq : Text.toLower other.name = Text.toLower name
    · simp [heq, Ne.symm hother]
    · simp [heq]

/-- A set is found by a name that is its own up to case and no later one's. -/
theorem find?_foldl_putSet (hsame : sameSetName set.name name = true)
    (hlater : ∀ other ∈ back, sameSetName other.name name = false) :
    ((front ++ set :: back).foldl putSet []).find? (fun other => sameSetName other.name name)
      = some set := by
  induction back using List.reverseRecOn with
  | nil => rw [find?_foldl_putSet_concat, if_pos hsame]
  | append_singleton back last ih =>
      rw [← List.cons_append, ← List.append_assoc, find?_foldl_putSet_concat,
        if_neg (by simp [hlater last])]
      exact ih fun other hother => hlater other (List.mem_append_left _ hother)

/-- Sets whose names differ leave each other alone. -/
theorem foldl_putSet_of_pairwise
    (h : sets.Pairwise fun a b => sameSetName a.name b.name = false) :
    sets.foldl putSet [] = sets := by
  induction sets using List.reverseRecOn with
  | nil => rfl
  | append_singleton sets set ih =>
      obtain ⟨hfirst, -, hlast⟩ := List.pairwise_append.1 h
      rw [foldl_putSet_concat, ih hfirst, List.filter_eq_self.2]
      intro other hother
      rw [hlast other hother set (List.mem_singleton_self set), Bool.not_false]

theorem length_foldl_putSet_le (sets : List EntitySet) :
    (sets.foldl putSet []).length ≤ sets.length := by
  induction sets using List.reverseRecOn with
  | nil => exact Nat.le_refl 0
  | append_singleton sets set ih =>
      rw [foldl_putSet_concat, List.length_append, List.length_append]
      have hfilter := List.length_filter_le (fun other : EntitySet =>
        !sameSetName other.name set.name) (sets.foldl putSet [])
      exact Nat.add_le_add_right (hfilter.trans ih) _

/-- No set is lost exactly if their names differ. -/
theorem length_foldl_putSet_iff :
    (sets.foldl putSet []).length = sets.length ↔
      sets.Pairwise fun a b => sameSetName a.name b.name = false := by
  refine ⟨fun h => ?_, fun h => by rw [foldl_putSet_of_pairwise h]⟩
  induction sets using List.reverseRecOn with
  | nil => exact .nil
  | append_singleton sets set ih =>
      rw [foldl_putSet_concat, List.length_append, List.length_append] at h
      have hfilter := List.length_filter_le (fun other : EntitySet =>
        !sameSetName other.name set.name) (sets.foldl putSet [])
      have hle := length_foldl_putSet_le sets
      have hall := ih (by omega)
      rw [foldl_putSet_of_pairwise hall] at h
      have hkept := List.length_filter_eq_length_iff.1 (Nat.add_right_cancel h)
      refine List.pairwise_append.2
        ⟨hall, List.pairwise_singleton _ _, fun other hother last hlast => ?_⟩
      obtain rfl := List.mem_singleton.1 hlast
      simpa using hkept other hother

/-! ## What calls register -/

/-- The name that a call registers an entity set under. -/
def Call.name? : Call → Option String
  | register _ name _ _ _ => some name
  | registerType _ _ => none

/-- The entity set that a call registers. -/
def Call.draft? : Call → Option EntitySetDraft
  | register graph name type key capabilities =>
    (graph.key? type).map fun entityType => ⟨name, entityType, key, capabilities⟩
  | registerType _ _ => none

/-- An entity set of a model is the one that a call registers: its name, its type, the property of
the type that the call names as the key, and what a client may do. -/
def Call.Makes (model : Model) : Call → EntitySet → Prop
  | register graph name type key capabilities, set =>
    set.name = name ∧ graph.key? type = some set.entityType ∧ set.key.map Property.name = key ∧
      set.key = key.bind (fun key => (model.complexType? set.entityType).bind (·.property? key)) ∧
      set.capabilities = capabilities
  | registerType _ _, _ => False

/-- A call that succeeds adds the entity set that it registers. -/
theorem Call.sets_of_ok {u : Unit} (h : call.run builder = (.ok u, after)) :
    after.sets = builder.sets ++ call.draft?.toList ∧
      call.draft?.map EntitySetDraft.name = call.name? := by
  cases call with
  | registerType graph type =>
      obtain ⟨-, rfl⟩ := Prod.mk.inj h
      exact ⟨(List.append_nil _).symm, rfl⟩
  | register graph name type key capabilities =>
      obtain ⟨-, hresult⟩ := Resolver.resolve_leads graph type builder.resolver
      unfold run ModelBuilder.register ModelBuilder.registerType at h
      dsimp only at h
      split at h
      · cases (Prod.mk.inj h).1
      · cases hrun : (Resolver.resolve graph type).run.run builder.resolver with
        | mk result r =>
            rw [hrun] at h hresult
            cases result with
            | error e => cases (Prod.mk.inj h).1
            | ok result =>
                cases result with
                | complex entityType =>
                    obtain ⟨-, rfl⟩ := Prod.mk.inj h
                    rw [draft?, (hresult _ rfl).2 entityType rfl]
                    exact ⟨rfl, rfl⟩
                | _ => cases (Prod.mk.inj h).1

/-- Calls that succeed add the entity sets that they register, in their order. -/
theorem sets_of_runAll (h : Call.runAll builder calls = .ok after) :
    after.sets = builder.sets ++ calls.filterMap Call.draft? ∧
      ∀ call ∈ calls, call.draft?.map EntitySetDraft.name = call.name? := by
  induction calls generalizing builder with
  | nil =>
      obtain rfl := Except.ok.inj h
      exact ⟨(List.append_nil _).symm, by simp⟩
  | cons call calls ih =>
      obtain ⟨u, next, hrun, hrest⟩ := runAll_cons h
      obtain ⟨hsets, hname⟩ := Call.sets_of_ok hrun
      obtain ⟨hmore, hnames⟩ := ih hrest
      refine ⟨?_, List.forall_mem_cons.2 ⟨hname, hnames⟩⟩
      rw [hmore, hsets, List.append_assoc, List.filterMap_cons]
      cases call.draft? <;> rfl

theorem names_of_runAll (h : Call.runAll .empty calls = .ok builder) :
    builder.sets.map EntitySetDraft.name = calls.filterMap Call.name? := by
  obtain ⟨hsets, hnames⟩ := sets_of_runAll h
  have hall : builder.sets = calls.filterMap Call.draft? := hsets
  rw [hall, List.map_filterMap]
  exact List.filterMap_congr hnames

/-! ## Finding a set again -/

theorem name_of_finishSet {types : List ComplexType} {draft : EntitySetDraft} {set : EntitySet}
    (h : finishSet types draft = .ok set) : set.name = draft.name := by
  unfold finishSet at h
  split at h
  · rw [← Except.ok.inj h]
  · split at h
    · rw [← Except.ok.inj h]
    · cases h

/-- The set that the draft of a call becomes is the one that the call registers. -/
theorem Call.makes_of_finishSet {draft : EntitySetDraft} (hdraft : call.draft? = some draft)
    (h : finishSet model.complexTypes draft = .ok set) : call.Makes model set := by
  cases call with
  | registerType => cases hdraft
  | register graph name type key capabilities =>
      obtain ⟨entityType, hkey, rfl⟩ := Option.map_eq_some_iff.1 hdraft
      unfold finishSet at h
      cases key with
      | none =>
          obtain rfl := Except.ok.inj h
          exact ⟨rfl, hkey, rfl, rfl, rfl⟩
      | some keyName =>
          dsimp only at h
          split at h
          · rename_i property hproperty
            obtain rfl := Except.ok.inj h
            obtain ⟨entity, hentity, hfound⟩ := Option.bind_eq_some_iff.1 hproperty
            have hname := List.find?_some hfound
            exact ⟨rfl, hkey, congrArg some (beq_iff_eq.1 hname), hproperty.symm, rfl⟩
          · cases h

/-- The sets of a finished model are those of the calls, as far as none takes another's place. -/
theorem sets_of_build (hcalls : Call.runAll .empty calls = .ok builder)
    (hbuild : builder.build = .ok model) :
    ∃ sets, (calls.filterMap Call.draft?).mapM (finishSet model.complexTypes) = .ok sets ∧
      sets.map EntitySet.name = calls.filterMap Call.name? ∧ model.sets = sets.foldl putSet [] := by
  obtain ⟨htypes, -, sets, hsets, hmodelSets⟩ := build_eq_ok hbuild
  have hdrafts : builder.sets = calls.filterMap Call.draft? := (sets_of_runAll hcalls).1
  refine ⟨sets, by rwa [htypes, ← hdrafts], ?_, hmodelSets⟩
  rw [map_eq_of_mapM (fun _ _ => name_of_finishSet) hsets, names_of_runAll hcalls]

/-- A name finds the set of the last call whose name it is up to case. -/
theorem entitySet_of_last {front back : List Call} {called : String}
    (hcalls : Call.runAll .empty (front ++ call :: back) = .ok builder)
    (hbuild : builder.build = .ok model) (hcalled : call.name? = some called)
    (hsame : sameSetName called name = true)
    (hlater : ∀ later ∈ back, ∀ other, later.name? = some other →
      sameSetName other name = false) :
    ∃ set, model.entitySet name = .ok set ∧ call.Makes model set := by
  obtain ⟨sets, hsets, -, hmodelSets⟩ := sets_of_build hcalls hbuild
  have hnames := (sets_of_runAll hcalls).2
  obtain ⟨draft, hdraft, hname⟩ : ∃ draft, call.draft? = some draft ∧ draft.name = called :=
    Option.map_eq_some_iff.1 ((hnames call (by simp)).trans hcalled)
  rw [List.filterMap_append, List.filterMap_cons, hdraft] at hsets
  obtain ⟨before, set, after, -, hset, hafter, rfl⟩ := exists_of_mapM_append_cons hsets
  refine ⟨set, ?_, Call.makes_of_finishSet hdraft hset⟩
  have hfound : model.sets.find? (fun other => sameSetName other.name name) = some set := by
    rw [hmodelSets]
    refine find?_foldl_putSet ?_ fun other hother => ?_
    · rwa [name_of_finishSet hset, hname]
    · obtain ⟨d, hd, hfinish⟩ := exists_of_mem_mapM hafter hother
      obtain ⟨later, hmem, hmade⟩ := List.mem_filterMap.1 hd
      rw [name_of_finishSet hfinish]
      refine hlater later hmem d.name ?_
      rw [← hnames later (by simp [hmem]), hmade]
      rfl
  rw [Model.entitySet, hfound]

/-- Entity sets are found again, as long as no later name takes their place.

After calls that all succeed, a name finds the set of the last call that registers one under a name
that is the same up to case, and nothing if there is no such call.  Every call that registers a set
has one in the model exactly if no two of the names are the same up to case. -/
theorem entitySet_of_runAll (calls : List Call) (builder : ModelBuilder) (model : Model)
    (hcalls : Call.runAll .empty calls = .ok builder) (hbuild : builder.build = .ok model) :
    (∀ front call back called name, calls = front ++ call :: back →
      call.name? = some called → sameSetName called name = true →
      (∀ later ∈ back, ∀ other, later.name? = some other → sameSetName other name = false) →
      ∃ set, model.entitySet name = .ok set ∧ call.Makes model set) ∧
    (∀ name, (∀ called ∈ calls.filterMap Call.name?, sameSetName called name = false) →
      model.entitySet name = .error (.resolution (.unknownSet name))) ∧
    (model.sets.length = (calls.filterMap Call.name?).length ↔
      (calls.filterMap Call.name?).Pairwise fun a b => sameSetName a b = false) := by
  obtain ⟨sets, -, hsetNames, hmodelSets⟩ := sets_of_build hcalls hbuild
  refine ⟨fun front call back called name hsplit hcalled hsame hlater => ?_,
    fun name hother => ?_, ?_⟩
  · subst hsplit
    exact entitySet_of_last hcalls hbuild hcalled hsame hlater
  · have hnone : model.sets.find? (fun other => sameSetName other.name name) = none := by
      rw [hmodelSets, List.find?_eq_none]
      intro set hset
      rcases mem_of_mem_putSet hset with hmem | hmem
      · cases hmem
      · rw [hother set.name (hsetNames ▸ List.mem_map_of_mem hmem)]
        exact Bool.false_ne_true
    rw [Model.entitySet, hnone]
  · rw [hmodelSets, ← hsetNames, List.length_map, List.pairwise_map]
    exact length_foldl_putSet_iff

/-- A set is found in small letters. -/
theorem entitySet_of_runAll_tree :
    ∃ calls, Call.runAll .empty calls = .ok Sample.treeBuilder ∧
      Sample.treeBuilder.build = .ok Sample.treeModel ∧
      ∃ set, Sample.treeModel.entitySet "nodes" = .ok set ∧ set.name = "Nodes" := by
  let call : Call := .register Sample.treeGraph "Nodes" (.named Sample.nodeKey) (some "Id") .none
  have hrun : Call.runAll .empty [call] = .ok Sample.treeBuilder := by
    rw [Call.runAll, Call.run, Sample.register_tree]
    rfl
  obtain ⟨hfind, -, -⟩ := entitySet_of_runAll [call] _ _ hrun Sample.build_tree
  obtain ⟨set, hset, hname, -⟩ :=
    hfind [] call [] "Nodes" "nodes" rfl rfl (by decide) (by simp)
  exact ⟨[call], hrun, Sample.build_tree, set, hset, hname⟩

/-- Two entity sets whose names differ in the case of a letter that is not an ASCII letter. -/
def acuteCalls : List Call :=
  [.register ⟨[]⟩ "É" (.named ⟨"Upper"⟩) none .none,
    .register ⟨[]⟩ "é" (.named ⟨"Lower"⟩) none .none]

/-- Both are accepted, and the first is gone. -/
theorem entitySet_acute :
    ∃ builder model, Call.runAll .empty acuteCalls = .ok builder ∧ builder.build = .ok model ∧
      (acuteCalls.filterMap Call.name?).length = 2 ∧ model.sets.length = 1 ∧
      model.entitySet "É" = .ok ⟨"é", ⟨"Lower"⟩, none, .none⟩ := by
  have hsame : sameSetName "É" "é" = true := by decide +kernel
  have hback : sameSetName "é" "É" = true := by decide +kernel
  obtain ⟨builder, hcalls⟩ : ∃ builder, Call.runAll .empty acuteCalls = .ok builder := ⟨_, rfl⟩
  have hdrafts : builder.sets = [⟨"É", ⟨"Upper"⟩, none, .none⟩, ⟨"é", ⟨"Lower"⟩, none, .none⟩] :=
    (sets_of_runAll hcalls).1
  have hfinish : builder.sets.mapM (finishSet builder.complexTypes)
      = .ok [⟨"É", ⟨"Upper"⟩, none, .none⟩, ⟨"é", ⟨"Lower"⟩, none, .none⟩] := by
    rw [hdrafts]
    rfl
  have hsound : Sound builder := afterCalls_of_runAll hcalls ▸ sound_afterCalls _
  obtain ⟨model, hbuild⟩ : ∃ model, builder.build = .ok model := by
    rw [hsound.build_eq, assemble, hfinish]
    exact ⟨_, rfl⟩
  obtain ⟨-, -, sets, hsets, hmodelSets⟩ := build_eq_ok hbuild
  obtain rfl := Except.ok.inj (hfinish.symm.trans hsets)
  have hone : model.sets = [⟨"é", ⟨"Lower"⟩, none, .none⟩] := by
    rw [hmodelSets]
    simp [putSet, hsame]
  have hfound : model.sets.find? (fun set => sameSetName set.name "É")
      = some ⟨"é", ⟨"Lower"⟩, none, .none⟩ := by
    rw [hone]
    exact List.find?_cons_of_pos hback
  refine ⟨builder, model, hcalls, hbuild, rfl, by rw [hone]; rfl, ?_⟩
  rw [Model.entitySet, hfound]

end ModelBuilder

end EntityQuery
