import EntityQuery.Proofs.Execution.Pipelines

/-!
# Pipelines refine the list program

A query is answered by two pipelines, one that finds the matching records and one that cuts the page
out of them.  Together they give what the list program gives, errors included: it makes no
difference that the pipelines work record by record and look at no record behind the page.
-/

namespace EntityQuery

open ListProgram

variable {model : Model} {key recordType : TypeKey} {query : Query} {records : List Record}

/-! ## Keys -/

theorem values_eq_mapM (keys : List SortKey) (record : Record) :
    (SortKey.values record keys).mapError QueryError.evaluation =
      keys.mapM fun key => (Expression.readPath key.path record).mapError .evaluation := by
  induction keys with
  | nil => rfl
  | cons key keys ih =>
      rw [SortKey.values, List.mapM_cons, ← ih]
      cases Expression.readPath key.path record with
      | error e => rfl
      | ok value => cases SortKey.values record keys <;> rfl

theorem withKeys_eq_mapM (keys : List SortKey) (records : List Record) :
    (Sorting.withKeys keys records).mapError QueryError.evaluation =
      records.mapM (withValues keys) := by
  induction records with
  | nil => rfl
  | cons record records ih =>
      rw [Sorting.withKeys, List.mapM_cons, ← ih, withValues, ← values_eq_mapM]
      cases SortKey.values record keys with
      | error e => rfl
      | ok values => cases Sorting.withKeys keys records <;> rfl

/-- The order of the result is given by at least one key. -/
theorem parseOrderBy_ne_nil {value : String} {keys : List OrderKey}
    (h : parseOrderBy model key value = .ok keys) : keys ≠ [] := by
  unfold parseOrderBy at h
  cases hitems : value.toList.splitOn ',' with
  | nil => exact absurd hitems (List.splitOn_ne_nil ',' value.toList)
  | cons item items =>
      rw [hitems, List.mapM_cons] at h
      obtain ⟨first, -, h⟩ := bind_eq_ok.1 h
      obtain ⟨others, -, h⟩ := bind_eq_ok.1 h
      rw [← pure_eq_ok.1 h]
      exact List.cons_ne_nil first others

theorem isEmpty_of_orderBy {keys : List OrderKey} (h : query.orderBy = .ok keys) :
    keys.isEmpty = (query.raw.value? .orderBy).isNone := by
  unfold Query.orderBy Query.option at h
  cases hvalue : query.raw.value? .orderBy with
  | none =>
      rw [hvalue] at h
      obtain rfl := Except.ok.inj h
      rfl
  | some value =>
      rw [hvalue] at h
      obtain ⟨found, hfound, rfl⟩ := map_eq_ok.1 h
      obtain ⟨read, hread, rfl⟩ := map_eq_ok.1 hfound
      simpa using parseOrderBy_ne_nil hread

/-! ## The two pipelines -/

/-- The sort that records are sorted with. -/
def insertionSorter : Sorter := fun keys keyed => Sorting.sortedBy (Sorting.precedes keys) keyed

theorem insertionSorter_isStable : insertionSorter.IsStable :=
  fun keys keyed => Sorting.stablySorted_sortedBy (compareKeyed keys) keyed

theorem sort_apply (keys : List SortKey) (flow : Flow Record) :
    Stage.apply (.sort keys) flow = do
      let records ← flow.collect
      let keyed ← records.mapM (withValues keys)
      return .ofList ((insertionSorter keys keyed).map Prod.fst) := by
  simp only [Stage.apply]
  cases flow.collect with
  | error e => rfl
  | ok records =>
      rw [ok_bind, ok_bind, ← withKeys_eq_mapM, Sorting.sortRecords]
      cases Sorting.withKeys keys records <;> rfl

theorem collect_sort (keys : List SortKey) (flow : Flow Record) :
    Stage.applyAll [.sort keys] flow >>= Flow.collect =
      flow.collect >>= arranged insertionSorter (some keys) := by
  simp only [Stage.applyAll, sort_apply]
  cases flow.collect with
  | error e => rfl
  | ok records =>
      simp only [ok_bind, arranged]
      cases records.mapM (withValues keys) with
      | error e => rfl
      | ok keyed => exact Flow.collect_ofList _

theorem matching_eq (plan : Plan) (records : List Record) :
    plan.matching records = filtered plan.filter records >>= arranged insertionSorter
      (if plan.orderBy.isEmpty then none else some (plan.orderBy.map SortKey.ofOrderKey)) := by
  have hunsorted (flow : Flow Record) : Stage.applyAll [] flow >>= Flow.collect =
      flow.collect >>= arranged insertionSorter none := by
    rw [Stage.applyAll, ok_bind]
    cases flow.collect <;> rfl
  -- Above the filter there is a sort or nothing.
  have hsorted (flow : Flow Record) : Stage.applyAll (if plan.orderBy.isEmpty then []
      else [.sort (plan.orderBy.map SortKey.ofOrderKey)]) flow >>= Flow.collect =
      flow.collect >>= arranged insertionSorter (if plan.orderBy.isEmpty then none
        else some (plan.orderBy.map SortKey.ofOrderKey)) := by
    split
    · exact hunsorted flow
    · exact collect_sort _ flow
  rw [Plan.matching, Pipeline.collect_build, Plan.matchStages]
  cases plan.filter with
  | none =>
      rw [filtered, ← Flow.collect_ofList records]
      exact hsorted _
  | some predicate =>
      rw [filtered, ← Flow.collect_filter_ofList]
      exact hsorted _

theorem page_eq (plan : Plan) (matched : List Record) :
    plan.page model key matched =
      (page plan.skip plan.top matched).mapM (Projection.shaped model key plan.shape) := by
  have hstarts := (Pipeline.starts_scan matched).attach (.limit plan.skip plan.top)
  rw [Plan.page]
  refine (ProjectedPipeline.collect_build hstarts model key plan.shape).trans ?_
  rw [ok_bind, Stage.apply, ok_bind, Flow.limit_ofList, Flow.collect_project_ofList]

theorem nextSkip_eq (plan : Plan) (total : Nat) :
    plan.nextSkip total = nextPlace plan.skip plan.top total := by
  unfold Plan.nextSkip nextPlace
  cases plan.top with
  | none => rfl
  | some top => simp [Option.filter]

/-! ## Queries -/

theorem execute_eq_answer_insertionSorter (query : Query) (recordType : TypeKey)
    (records : List Record) :
    query.execute recordType records = answer insertionSorter query recordType records := by
  have hguard : (query.type != recordType) = true ↔ query.type ≠ recordType := bne_iff_ne
  unfold Query.execute answer Plan.ofQuery
  simp only [hguard, bind_assoc, pure_bind]
  split
  · rfl
  · refine bind_congr fun filter => ?_
    cases horder : query.orderBy with
    | error e => rfl
    | ok orderBy =>
        -- There are keys exactly if the option is there.
        have hkeys : (if (query.raw.value? .orderBy).isSome = true
            then some (orderBy.map SortKey.ofOrderKey) else none) =
            if orderBy.isEmpty then none else some (orderBy.map SortKey.ofOrderKey) := by
          rw [isEmpty_of_orderBy horder]
          cases query.raw.value? .orderBy <;> rfl
        simp only [ok_bind, hkeys, matching_eq, page_eq, nextSkip_eq, bind_assoc]

end EntityQuery
