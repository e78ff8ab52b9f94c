import EntityQuery.Proofs.Execution.Dialogue

/-!
# Starting again after a failure

Starting a pipeline fails when one of its sorts does: its source fails while it is drained, or a key
cannot be read.  The stages below that sort have been started by then and have lost what was taken
from them, and they stay so.  Only a scan begins anew.

So it depends on what stands below the sort whether the failure lasts.  A sort right above the scan
fails on the same record each time.  Any other pipeline starts in the end, if it is started often
enough, and goes on with the records that are left (`start_fails_iff`): each failure either starts a
further stage or takes a record.
-/

namespace EntityQuery.Pipeline

variable {pipeline other source started rest : Pipeline} {stage : Stage} {stages upper : List Stage}
  {records : List Record} {keys : List SortKey} {e : QueryError} {cause : EvalError}

/-- The pipeline behind requests. -/
def after (pipeline : Pipeline) (requests : List Request) : Pipeline :=
  requests.foldl (fun pipeline request => (pipeline.respond request).2) pipeline

/-! ## Pipelines that have been started -/

/-- All stages that can be asked for a record have been started.  What is below a sort that has been
started is not asked any more. -/
def Live : Pipeline → Prop
  | scan _ left => left.isSome = true
  | filter _ source started => started = true ∧ source.Live
  | sort _ _ sorted => sorted.isSome = true
  | limit _ _ source counts => counts.isSome = true ∧ source.Live

/-- The outcome of a step of a live pipeline.  It fails on a record that it has taken. -/
def PipelineStep.Spends (before : Nat) : PipelineStep → Prop
  | .yield _ rest | .skip rest => rest.Live ∧ rest.remaining < before
  | .done => True
  | .fail e rest => rest.Live ∧ rest.remaining < before ∧ ∃ cause, e = .evaluation cause

theorem Live.step (h : pipeline.Live) : PipelineStep.Spends pipeline.remaining pipeline.step := by
  induction pipeline with
  | scan records left =>
      obtain ⟨_ | ⟨record, left⟩, rfl⟩ := Option.isSome_iff_exists.1 h
      · trivial
      · exact ⟨rfl, by simp [remaining]⟩
  | sort keys source sorted _ =>
      obtain ⟨_ | ⟨record, sorted⟩, rfl⟩ := Option.isSome_iff_exists.1 h
      · trivial
      · exact ⟨rfl, by simp [remaining]⟩
  | filter predicate source started ih =>
      obtain ⟨rfl, hsource⟩ := h
      have hspends := ih hsource
      rw [Pipeline.step]
      cases hstep : source.step with
      | yield record rest =>
          obtain ⟨hlive, hless⟩ := hstep ▸ hspends
          dsimp only
          cases predicate.test record with
          | ok passes => cases passes <;> exact ⟨⟨rfl, hlive⟩, hless⟩
          | error cause => exact ⟨⟨rfl, hlive⟩, hless, cause, rfl⟩
      | skip rest =>
          obtain ⟨hlive, hless⟩ := hstep ▸ hspends
          exact ⟨⟨rfl, hlive⟩, hless⟩
      | done => trivial
      | fail e rest =>
          obtain ⟨hlive, hless, hcause⟩ := hstep ▸ hspends
          exact ⟨⟨rfl, hlive⟩, hless, hcause⟩
  | limit skip top source counts ih =>
      obtain ⟨hcounts, hsource⟩ := h
      obtain ⟨⟨skipped, returned⟩, rfl⟩ := Option.isSome_iff_exists.1 hcounts
      have hspends := ih hsource
      rw [Pipeline.step]
      split
      · trivial
      · cases hstep : source.step with
        | yield record rest =>
            obtain ⟨hlive, hless⟩ := hstep ▸ hspends
            dsimp only
            split <;> exact ⟨⟨rfl, hlive⟩, hless⟩
        | skip rest =>
            obtain ⟨hlive, hless⟩ := hstep ▸ hspends
            exact ⟨⟨rfl, hlive⟩, hless⟩
        | done => trivial
        | fail e rest =>
            obtain ⟨hlive, hless, hcause⟩ := hstep ▸ hspends
            exact ⟨⟨rfl, hlive⟩, hless, hcause⟩

/-- The outcome of a request to a live pipeline.  A record has been taken, unless there was nothing
to give, and only a record makes it fail. -/
structure Advances {α : Type} (pipeline : Pipeline) (nothing : α)
    (outcome : Except QueryError α × Pipeline) : Prop where
  live : outcome.2.Live
  remaining_le : outcome.2.remaining ≤ pipeline.remaining
  remaining_lt : outcome.1 ≠ .ok nothing → outcome.2.remaining < pipeline.remaining
  exists_cause : ∀ e, outcome.1 = .error e → ∃ cause, e = .evaluation cause

theorem Live.next (h : pipeline.Live) : pipeline.Advances none pipeline.next := by
  fun_induction Pipeline.next pipeline with
  | case1 pipeline record rest hstep =>
      have hspends := h.step
      rw [hstep] at hspends
      exact ⟨hspends.1, hspends.2.le, fun _ => hspends.2, fun e he => by cases he⟩
  | case2 pipeline rest hstep ih =>
      have hspends := h.step
      rw [hstep] at hspends
      have hnext := ih hspends.1
      have hless := hnext.remaining_le.trans_lt hspends.2
      exact ⟨hnext.live, hless.le, fun _ => hless, hnext.exists_cause⟩
  | case3 pipeline hstep => exact ⟨h, le_rfl, fun hne => absurd rfl hne, fun e he => by cases he⟩
  | case4 pipeline e rest hstep =>
      have hspends := h.step
      rw [hstep] at hspends
      obtain ⟨hlive, hless, hcause⟩ := hspends
      refine ⟨hlive, hless.le, fun _ => hless, fun e' he => ?_⟩
      rwa [← Except.error.inj he]

theorem Live.drain (h : pipeline.Live) : pipeline.Advances [] (Supply.drain pipeline) := by
  fun_induction Supply.drain pipeline with
  | case1 pipeline rest hnext =>
      have hadvances := h.next
      rw [show pipeline.next = _ from hnext] at hadvances
      exact ⟨hadvances.live, hadvances.remaining_le, fun hne => absurd rfl hne,
        fun e he => by cases he⟩
  | case2 pipeline rest e hnext =>
      have hadvances := h.next
      rw [show pipeline.next = _ from hnext] at hadvances
      refine ⟨hadvances.live, hadvances.remaining_le,
        fun _ => hadvances.remaining_lt (by simp), fun e' he => ?_⟩
      exact hadvances.exists_cause e' (congrArg Except.error (Except.error.inj he))
  | case3 pipeline record rest hnext items last hdrain ih =>
      have hadvances := h.next
      rw [show pipeline.next = _ from hnext] at hadvances
      have hothers := ih hadvances.live
      rw [hdrain] at hothers
      have hless := hothers.remaining_le.trans_lt (hadvances.remaining_lt (by simp))
      refine ⟨hothers.live, hless.le, fun _ => hless, fun e he => ?_⟩
      cases items with
      | error cause => exact hothers.exists_cause e (congrArg Except.error (Except.error.inj he))
      | ok items => cases he

theorem Running.drain (h : pipeline.Running) : (Supply.drain pipeline).2.Running := by
  fun_induction Supply.drain pipeline with
  | case1 pipeline rest hnext | case2 pipeline rest e hnext =>
      have hrest := h.next
      rwa [show pipeline.next = _ from hnext] at hrest
  | case3 pipeline record rest hnext items last hdrain ih =>
      have hrest := h.next
      rw [show pipeline.next = _ from hnext] at hrest
      have hlast := ih hrest
      rwa [hdrain] at hlast

/-! ## Stages above a pipeline -/

/-- A stage is started by what starts below it. -/
theorem start_attach_congr (h : pipeline.start = other.start) (stage : Stage) :
    (pipeline.attach stage).start = (other.attach stage).start := by
  cases stage <;> simp only [Pipeline.attach, start, h]

theorem start_attachAll_congr (h : pipeline.start = other.start) (stages : List Stage) :
    (stages.foldl attach pipeline).start = (stages.foldl attach other).start := by
  induction stages generalizing pipeline other with
  | nil => exact h
  | cons stage stages ih => exact ih (start_attach_congr h stage)

/-- Stages above one that fails to start are left as they are. -/
theorem start_attachAll_error (h : pipeline.start = (.error e, rest)) (stages : List Stage) :
    (stages.foldl attach pipeline).start = (.error e, stages.foldl attach rest) := by
  induction stages generalizing pipeline rest with
  | nil => exact h
  | cons stage stages ih =>
      have hnext : (pipeline.attach stage).start = (.error e, rest.attach stage) := by
        cases stage <;> simp only [Pipeline.attach, start, h]
      exact ih hnext

/-- Stages that have not been started hand out nothing and stay as they are. -/
theorem next_attachAll (hne : stages ≠ []) (source : Pipeline) :
    (stages.foldl attach source).next.2 = stages.foldl attach source := by
  obtain ⟨front, last, rfl⟩ : ∃ front last, stages = front ++ [last] :=
    ⟨_, _, (List.dropLast_concat_getLast hne).symm⟩
  rw [List.foldl_append]
  exact congrArg Prod.snd (next_attach _ last)

/-- Nothing can always be sorted. -/
theorem ne_nil_of_sortRecords (h : Sorting.sortRecords keys records = .error cause) :
    records ≠ [] := by
  rintro rfl
  cases h

/-- A stage above a live pipeline starts, or is a sort that fails.  It then has taken a record, and
what it has taken cannot be sorted if it was all there was. -/
theorem start_attach (hstart : source.start = (.ok (), started)) (hlive : started.Live)
    (stage : Stage) :
    (∃ above : Pipeline, (source.attach stage).start = (.ok (), above) ∧
        above.Running ∧ above.Live) ∨
      ∃ (cause : EvalError) (rest : Pipeline),
        (source.attach stage).start = (.error (.evaluation cause), rest.attach stage) ∧
        (started.Running → rest.Running) ∧ rest.Live ∧ rest.remaining < started.remaining ∧
        ∃ keys, stage = .sort keys ∧ ∀ items, (Supply.drain started).1 = .ok items →
          Sorting.sortRecords keys items = .error cause := by
  cases stage with
  | filter predicate =>
      exact .inl ⟨filter predicate started true,
        by simp only [Pipeline.attach, start, hstart], rfl, rfl, hlive⟩
  | limit skip top =>
      exact .inl ⟨limit skip top started (some (0, 0)),
        by simp only [Pipeline.attach, start, hstart], rfl, rfl, hlive⟩
  | sort keys =>
      have hadvances := hlive.drain
      have hrunning : started.Running → (Supply.drain started).2.Running := fun h => h.drain
      cases hdrain : Supply.drain started with
      | mk result rest =>
          rw [hdrain] at hadvances hrunning
          cases result with
          | error e =>
              obtain ⟨cause, rfl⟩ := hadvances.exists_cause e rfl
              refine .inr ⟨cause, rest, ?_, hrunning, hadvances.live,
                hadvances.remaining_lt (by simp), keys, rfl, fun items hitems => by cases hitems⟩
              simp only [Pipeline.attach, start, hstart, hdrain]
          | ok records =>
              cases hsort : Sorting.sortRecords keys records with
              | ok sorted =>
                  exact .inl ⟨sort keys rest (some sorted),
                    by simp only [Pipeline.attach, start, hstart, hdrain, hsort], rfl, rfl⟩
              | error cause =>
                  have hne := ne_nil_of_sortRecords hsort
                  refine .inr ⟨cause, rest, ?_, hrunning, hadvances.live,
                    hadvances.remaining_lt (by simpa using hne), keys, rfl, fun items hitems => ?_⟩
                  · simp only [Pipeline.attach, start, hstart, hdrain, hsort]
                  · rwa [← Except.ok.inj hitems]

/-! ## Going on after a failure -/

/-- Stages that have not been started above a running pipeline. -/
def Resumes (pipeline : Pipeline) : Prop :=
  ∃ (stages : List Stage) (source : Pipeline),
    source.Running ∧ source.Live ∧ pipeline = stages.foldl attach source

theorem Resumes.start (h : pipeline.Resumes) : pipeline.start.2.Resumes := by
  obtain ⟨stages, source, hrunning, hlive, rfl⟩ := h
  induction stages generalizing source with
  | nil => exact ⟨[], source, hrunning, hlive, by rw [List.foldl_nil, hrunning.start_eq]⟩
  | cons stage stages ih =>
      rw [List.foldl_cons]
      obtain ⟨above, hstart, habove, hlast⟩ | ⟨cause, rest, hstart, hrest, hlast, -, -⟩ :=
        start_attach hrunning.start_eq hlive stage
      · have hcongr := start_attachAll_congr (hstart.trans habove.start_eq.symm) stages
        rw [hcongr]
        exact ih above habove hlast
      · rw [start_attachAll_error hstart]
        exact ⟨stage :: stages, rest, hrest hrunning, hlast, rfl⟩

theorem Resumes.next (h : pipeline.Resumes) : pipeline.next.2.Resumes := by
  obtain ⟨stages, source, hrunning, hlive, rfl⟩ := h
  by_cases hne : stages = []
  · exact ⟨[], _, hrunning.next, hlive.next.live, by rw [hne]; rfl⟩
  · rw [next_attachAll hne]
    exact ⟨stages, source, hrunning, hlive, rfl⟩

/-- Pipelines that start alike do so again and again. -/
theorem after_start_congr (h : pipeline.start = other.start) (n : Nat) :
    ((pipeline.after (List.replicate n .start)).start).1
      = ((other.after (List.replicate n .start)).start).1 := by
  cases n with
  | zero => exact congrArg Prod.fst h
  | succ n =>
      show ((pipeline.start.2.after (List.replicate n .start)).start).1
        = ((other.start.2.after (List.replicate n .start)).start).1
      rw [h]

/-- Starting often enough succeeds: each failure starts a further stage or takes a record. -/
theorem Resumes.exists_start (h : pipeline.Resumes) :
    ∃ n, (pipeline.after (List.replicate n .start)).start.1 = .ok () := by
  obtain ⟨stages, source, hrunning, hlive, rfl⟩ := h
  induction stages generalizing source with
  | nil => exact ⟨0, congrArg Prod.fst hrunning.start_eq⟩
  | cons stage stages ih =>
      induction hremaining : source.remaining using Nat.strong_induction_on generalizing source with
      | _ remaining ihRemaining =>
          subst hremaining
          obtain ⟨above, hstart, habove, hlast⟩ | ⟨cause, rest, hstart, hrest, hlast, hless, -⟩ :=
            start_attach hrunning.start_eq hlive stage
          · obtain ⟨n, hn⟩ := ih above habove hlast
            have hcongr := start_attachAll_congr (hstart.trans habove.start_eq.symm) stages
            exact ⟨n, (after_start_congr hcongr n).trans hn⟩
          · obtain ⟨n, hn⟩ := ihRemaining _ hless rest (hrest hrunning) hlast rfl
            have hfailed := start_attachAll_error hstart stages
            refine ⟨n + 1, ?_⟩
            show (Pipeline.start (after (Pipeline.start _).2 (List.replicate n .start))).1 = _
            rw [List.foldl_cons, hfailed]
            exact hn

theorem Resumes.after (h : pipeline.Resumes) (requests : List Request) :
    (pipeline.after requests).Resumes := by
  induction requests generalizing pipeline with
  | nil => exact h
  | cons request requests ih =>
      cases request with
      | start => exact ih h.start
      | next => exact ih h.next

/-! ## Stages above a scan -/

theorem exists_next_scan (records : List Record) (left : Option (List Record)) :
    ∃ later, (scan records left).next.2 = scan records later := by
  rcases left with _ | _ | ⟨record, left⟩
  · exact ⟨none, by rw [Pipeline.next]; rfl⟩
  · exact ⟨some [], by rw [Pipeline.next]; rfl⟩
  · exact ⟨some left, by rw [Pipeline.next]; rfl⟩

theorem drain_scan (records left : List Record) :
    Supply.drain (scan records (some left)) = (.ok left, scan records (some [])) := by
  induction left with
  | nil =>
      have hnext : (scan records (some [])).next = (.ok none, scan records (some [])) := by
        rw [Pipeline.next]
        rfl
      rw [Supply.drain]
      split <;> rename_i heq <;> cases hnext.symm.trans heq
      rfl
  | cons record left ih =>
      have hnext : (scan records (some (record :: left))).next =
          (.ok (some record), scan records (some left)) := by
        rw [Pipeline.next]
        rfl
      rw [Supply.drain]
      split <;> rename_i heq <;> cases hnext.symm.trans heq
      rw [ih]
      rfl

/-- A sort right above a scan fails whenever it is started, if the records cannot be sorted. -/
theorem start_scan_error (h : Sorting.sortRecords keys records = .error cause)
    (left : Option (List Record)) (upper : List Stage) :
    ((Stage.sort keys :: upper).foldl attach (scan records left)).start =
      (.error (.evaluation cause),
        (Stage.sort keys :: upper).foldl attach (scan records (some []))) := by
  have hlowest : ((scan records left).attach (.sort keys)).start =
      (.error (.evaluation cause), (scan records (some [])).attach (.sort keys)) := by
    simp only [Pipeline.attach, start, drain_scan, h]
  exact start_attachAll_error hlowest upper

theorem after_scan_error (h : Sorting.sortRecords keys records = .error cause)
    (left : Option (List Record)) (upper : List Stage) (requests : List Request) :
    ∃ later, ((Stage.sort keys :: upper).foldl attach (scan records left)).after requests =
      (Stage.sort keys :: upper).foldl attach (scan records later) := by
  induction requests generalizing left with
  | nil => exact ⟨left, rfl⟩
  | cons request requests ih =>
      rw [Pipeline.after, List.foldl_cons]
      cases request with
      | start =>
          rw [respond, start_scan_error h]
          exact ih (some [])
      | next =>
          rw [respond, next_attachAll (List.cons_ne_nil _ _)]
          exact ih left

/-- Unless a sort fails that stands right above the scan, starting starts the lowest stage. -/
theorem start_scan (records : List Record) (left : Option (List Record)) (hne : stages ≠ [])
    (hsorts : ¬∃ keys upper cause, stages = .sort keys :: upper ∧
      Sorting.sortRecords keys records = .error cause) :
    (stages.foldl attach (scan records left)).start.2.Resumes := by
  cases stages with
  | nil => exact absurd rfl hne
  | cons stage upper =>
      have hstart : (scan records left).start = (.ok (), scan records (some records)) := rfl
      obtain ⟨above, habove, hrunning, hlive⟩ | ⟨cause, rest, -, -, -, -, keys, rfl, hfails⟩ :=
        start_attach hstart rfl stage
      · rw [List.foldl_cons, start_attachAll_congr (habove.trans hrunning.start_eq.symm)]
        exact Resumes.start ⟨upper, above, hrunning, hlive, rfl⟩
      · exact absurd ⟨keys, upper, cause, rfl, hfails records (by rw [drain_scan])⟩ hsorts

/-- Behind any requests, all stages above the scan wait for their start or some have had it. -/
theorem after_scan (records : List Record) (left : Option (List Record)) (stages : List Stage)
    (requests : List Request) :
    (∃ later, (stages.foldl attach (scan records left)).after requests =
        stages.foldl attach (scan records later)) ∨
      ((stages.foldl attach (scan records left)).after requests).Resumes := by
  induction requests generalizing left with
  | nil => exact .inl ⟨left, rfl⟩
  | cons request requests ih =>
      rw [Pipeline.after, List.foldl_cons]
      by_cases hne : stages = []
      · subst hne
        cases request with
        | start => exact ih (some records)
        | next =>
            obtain ⟨later, hlater⟩ := exists_next_scan records left
            rw [List.foldl_nil, respond, hlater]
            exact ih later
      · cases request with
        | next =>
            rw [respond, next_attachAll hne]
            exact ih left
        | start =>
            by_cases hsorts : ∃ keys upper cause, stages = .sort keys :: upper ∧
                Sorting.sortRecords keys records = .error cause
            · obtain ⟨keys, upper, cause, rfl, hsort⟩ := hsorts
              rw [respond, start_scan_error hsort]
              exact ih (some [])
            · exact .inr ((start_scan records left hne hsorts).after requests)

/-- A start that has failed fails again for ever, whatever is asked in between, exactly if it is a
sort right above the scan that cannot sort the records. -/
theorem start_fails_iff {before : List Request} {failed : Pipeline}
    (h : ((build records stages).after before).start = (.error (.evaluation cause), failed)) :
    (∀ requests, ∃ e, (failed.after requests).start.1 = .error e) ↔
      ∃ keys upper, stages = .sort keys :: upper ∧
        Sorting.sortRecords keys records = .error cause := by
  constructor
  · intro hfails
    by_contra hsorts
    have hresumes : failed.Resumes := by
      rw [build] at h
      rcases after_scan records none stages before with ⟨later, hlater⟩ | hlater
      · rw [hlater] at h
        have hne : stages ≠ [] := by
          rintro rfl
          cases (Prod.mk.inj h).1
        have hstart := start_scan records later hne ?_
        · rwa [h] at hstart
        · rintro ⟨keys, upper, cause', rfl, hsort⟩
          rw [start_scan_error hsort] at h
          obtain rfl : cause' = cause :=
            QueryError.evaluation.inj (Except.error.inj (Prod.mk.inj h).1)
          exact hsorts ⟨keys, upper, rfl, hsort⟩
      · have hstart := hlater.start
        rwa [h] at hstart
    -- What has been started goes on, and succeeds at some time.
    obtain ⟨n, hn⟩ := hresumes.exists_start
    obtain ⟨e, he⟩ := hfails (List.replicate n .start)
    rw [hn] at he
    cases he
  · rintro ⟨keys, upper, rfl, hsort⟩ requests
    obtain ⟨later, hlater⟩ := after_scan_error hsort none upper before
    rw [build, hlater, start_scan_error hsort] at h
    obtain ⟨-, rfl⟩ := Prod.mk.inj h
    obtain ⟨last, hlast⟩ := after_scan_error hsort (some []) upper requests
    exact ⟨.evaluation cause, by rw [hlast, start_scan_error hsort]⟩

/-- Three items, the second of which is free. -/
def pricedItems : List Record :=
  [Sample.item 0 "Axe" 20 [], Sample.item 1 "Bolt" 0 [], Sample.item 2 "Cord" 10 []]

/-- A key behind a collection, which cannot be read. -/
def partCount : SortKey :=
  ⟨⟨Sample.property Sample.itemKey "Parts" (.collection (.complex Sample.partKey)),
    [Sample.property Sample.partKey "Count" (.primitive .int32)]⟩, .ascending, .first⟩

/-- A sort that fails right above the scan, with a limit above it. -/
theorem start_fails_iff_sample :
    ∃ cause failed,
      ((build pricedItems [.sort [partCount], .limit 1 none]).after [.next, .start]).start
          = (.error (.evaluation cause), failed) ∧
        ∀ requests, ∃ e, (failed.after requests).start.1 = .error e := by
  obtain ⟨cause, hsort⟩ :
      ∃ cause, Sorting.sortRecords [partCount] pricedItems = .error cause := ⟨_, rfl⟩
  obtain ⟨failed, hfailed⟩ : ∃ failed,
      ((build pricedItems [.sort [partCount], .limit 1 none]).after [.next, .start]).start
        = (.error (.evaluation cause), failed) := by
    obtain ⟨later, hlater⟩ := after_scan_error hsort none [.limit 1 none] [.next, .start]
    exact ⟨_, by rw [build, hlater, start_scan_error hsort]⟩
  exact ⟨cause, failed, hfailed, (start_fails_iff hfailed).2 ⟨_, _, rfl, hsort⟩⟩

/-- `100 div Price ge 0` -/
def quotientFilter : Expression :=
  .binary .ge
    (.binary .div (.literal (.ofKind .int32 "100" (.int32 100)))
      (.path (Sample.step Sample.itemKey "Price" (.primitive .int64)) none))
    (.literal (.ofKind .int32 "0" (.int32 0)))

/-- A sort above a filter that fails on the second item. -/
def quotientStages : List Stage :=
  [.filter quotientFilter,
    .sort [⟨Sample.step Sample.itemKey "Price" (.primitive .int64), .ascending, .first⟩]]

/-- When the sort is started again, it goes on behind the second item, and the first one, which
passes the filter, is lost. -/
theorem start_again_skips :
    quotientFilter.test (Sample.item 0 "Axe" 20 []) = .ok true ∧
      (build pricedItems quotientStages).answers [.start, .start, .next, .next]
        = [.started (.error (.evaluation .divisionByZero)), .started (.ok ()),
          .handed (.ok (some (Sample.item 2 "Cord" 10 []))), .handed (.ok none)] := by
  constructor
  · rfl
  · with_unfolding_all rfl

end EntityQuery.Pipeline
