import EntityQuery.Proofs.Execution.Flow

/-!
# Pipelines as flows

A pipeline that has been started stands for a flow, which is put together from the places of its
stages.  One step takes the first item off the flow or nothing at all, so that draining the pipeline
collects the flow.  Starting a pipeline that was built from stages applies them to the flow of the
records, one stage after another.
-/

namespace EntityQuery

open ListProgram (passes)

/-! ## Draining -/

variable {σ α : Type}

/-- The flow that begins with what is handed out next. -/
def Flow.ofNext (flow : σ → Flow α) : Except QueryError (Option α) × σ → Flow α
  | (.ok none, _) => done
  | (.error e, _) => fail e
  | (.ok (some a), rest) => item a (flow rest)

/-- Something that hands out the items of a flow collects it when it is drained. -/
theorem Supply.drain_eq_collect [Supply σ α] {flow : σ → Flow α}
    (hnext : ∀ s, flow s = .ofNext flow (Supply.next s)) (s : σ) :
    (Supply.drain s).1 = (flow s).collect := by
  fun_induction Supply.drain s with
  | case1 s rest h => rw [hnext, h]; rfl
  | case2 s rest e h => rw [hnext, h]; rfl
  | case3 s a rest h items last hdrain ih =>
      rw [hdrain] at ih
      rw [hnext, h, Flow.ofNext, Flow.collect, ← ih]

namespace Pipeline

variable {records : List Record} {source rest : Pipeline} {stage : Stage} {record : Record}

/-- What a pipeline hands out from where it stands. -/
def flow : Pipeline → Flow Record
  | scan _ (some left) => .ofList left
  | filter predicate source true => source.flow.filter (passes predicate)
  | sort _ _ (some sorted) => .ofList sorted
  | limit skip top source (some (skipped, returned)) =>
    source.flow.limit (skip - skipped) (top.map (· - returned))
  | scan _ none | filter _ _ false | sort _ _ none | limit _ _ _ none =>
    .fail (.usage .notInitialized)

/-- What is left of the flow after a step. -/
def PipelineStep.flow : PipelineStep → Flow Record
  | .yield record rest => .item record rest.flow
  | .skip rest => rest.flow
  | .done => .done
  | .fail e _ => .fail e

theorem flow_limit_step (skip : Nat) (top : Option Nat) (source : Pipeline)
    (skipped returned : Nat) (hsource : PipelineStep.flow source.step = source.flow) :
    PipelineStep.flow (step (limit skip top source (some (skipped, returned)))) =
      flow (limit skip top source (some (skipped, returned))) := by
  rw [flow, ← hsource, step]
  -- The counts say what is still to be left out and what may still be handed out.
  have henough : top.map (· - returned) = some 0 ↔ top.any (· ≤ returned) = true := by
    cases top with
    | none => simp
    | some top => simp [Nat.sub_eq_zero_iff_le]
  by_cases hany : top.any (· ≤ returned) = true
  · rw [if_pos hany, henough.2 hany, Flow.limit_zero]
    rfl
  · have htop : top.map (· - returned) ≠ some 0 := fun heq => hany (henough.1 heq)
    rw [if_neg hany]
    cases source.step with
    | yield record rest =>
        by_cases hskip : skipped < skip
        · obtain ⟨n, hn⟩ : ∃ n, skip - skipped = n + 1 := ⟨skip - skipped - 1, by omega⟩
          have hnext : skip - (skipped + 1) = n := by omega
          simp only [if_pos hskip, PipelineStep.flow, flow, hn, hnext, Flow.limit, if_neg htop]
        · have hzero : skip - skipped = 0 := by omega
          have hone : (top.map (· - returned)).map (· - 1) = top.map (· - (returned + 1)) := by
            cases top <;> rfl
          simp only [if_neg hskip, PipelineStep.flow, flow, hzero, Flow.limit, if_neg htop, hone]
    | skip rest => rfl
    | done => rfl
    | fail e rest => simp only [PipelineStep.flow, Flow.limit, if_neg htop]

/-- A step does not change what is handed out in the end. -/
theorem flow_step (pipeline : Pipeline) : PipelineStep.flow pipeline.step = pipeline.flow := by
  induction pipeline with
  | scan records left => rcases left with _ | _ | ⟨record, left⟩ <;> rfl
  | sort keys source sorted _ => rcases sorted with _ | _ | ⟨record, sorted⟩ <;> rfl
  | filter predicate source started ih =>
      cases started with
      | false => rfl
      | true =>
          rw [flow, ← ih, step]
          cases source.step with
          | yield record rest =>
              simp only [PipelineStep.flow, Flow.filter, passes]
              cases predicate.test record with
              | error e => rfl
              | ok passes => cases passes <;> rfl
          | _ => rfl
  | limit skip top source counts ih =>
      rcases counts with _ | ⟨skipped, returned⟩
      · rfl
      · exact flow_limit_step skip top source skipped returned ih

theorem flow_next (pipeline : Pipeline) : pipeline.flow = .ofNext flow pipeline.next := by
  fun_induction next pipeline with
  | case1 pipeline record rest h => rw [← flow_step, h]; rfl
  | case2 pipeline rest h ih => rw [← flow_step, h]; exact ih
  | case3 pipeline h => rw [← flow_step, h]; rfl
  | case4 pipeline e rest h => rw [← flow_step, h]; rfl

theorem drain_eq_collect (pipeline : Pipeline) :
    (Supply.drain pipeline).1 = pipeline.flow.collect :=
  Supply.drain_eq_collect flow_next pipeline

end Pipeline

/-! ## Starting -/

/-- The flow of a stage above another flow.  A sort collects all of that first. -/
def Stage.apply : Stage → Flow Record → Except QueryError (Flow Record)
  | .filter predicate, flow => .ok (flow.filter (passes predicate))
  | .limit skip top, flow => .ok (flow.limit skip top)
  | .sort keys, flow => do
    let records ← flow.collect
    let sorted ← (Sorting.sortRecords keys records).mapError .evaluation
    return .ofList sorted

/-- The flow of stages above another flow, the lowest one first. -/
def Stage.applyAll : List Stage → Flow Record → Except QueryError (Flow Record)
  | [], flow => .ok flow
  | stage :: stages, flow => stage.apply flow >>= Stage.applyAll stages

namespace Pipeline

variable {records : List Record} {source : Pipeline} {outcome : Except QueryError (Flow Record)}

/-- Starting a pipeline gives a flow or fails. -/
def Starts (pipeline : Pipeline) : Except QueryError (Flow Record) → Prop
  | .ok flow => ∃ started, pipeline.start = (.ok (), started) ∧ started.flow = flow
  | .error e => ∃ rest, pipeline.start = (.error e, rest)

theorem starts_scan (records : List Record) : Starts (scan records none) (.ok (.ofList records)) :=
  ⟨scan records (some records), rfl, rfl⟩

/-- A sort takes all that its source hands out before it is started. -/
theorem starts_sort {flow : Flow Record} (keys : List SortKey) {started : Pipeline}
    (hstarted : source.start = (.ok (), started)) (hflow : started.flow = flow) :
    Starts (sort keys source none) (Stage.apply (.sort keys) flow) := by
  -- What is drained from the source is what its flow collects.
  have hdrain := drain_eq_collect started
  rw [hflow] at hdrain
  cases hsupply : Supply.drain started with
  | mk result rest =>
      rw [hsupply] at hdrain
      subst hdrain
      simp only [Stage.apply]
      cases hcollect : flow.collect with
      | error e =>
          rw [hcollect] at hsupply
          exact ⟨sort keys rest none, by simp only [start, hstarted, hsupply]⟩
      | ok records =>
          rw [hcollect] at hsupply
          rw [ok_bind]
          cases hsort : Sorting.sortRecords keys records with
          | error e => exact ⟨sort keys rest none, by simp only [start, hstarted, hsupply, hsort]⟩
          | ok sorted =>
              exact ⟨sort keys rest (some sorted),
                by simp only [start, hstarted, hsupply, hsort], rfl⟩

/-- A stage is started after what is below it. -/
theorem Starts.attach (h : Starts source outcome) (stage : Stage) :
    Starts (source.attach stage) (outcome >>= stage.apply) := by
  cases outcome with
  | error e =>
      obtain ⟨rest, hrest⟩ := h
      cases stage with
      | filter predicate =>
          exact ⟨filter predicate rest false, by simp only [Pipeline.attach, start, hrest]⟩
      | sort keys => exact ⟨sort keys rest none, by simp only [Pipeline.attach, start, hrest]⟩
      | limit skip top =>
          exact ⟨limit skip top rest none, by simp only [Pipeline.attach, start, hrest]⟩
  | ok flow =>
      obtain ⟨started, hstarted, hflow⟩ := h
      cases stage with
      | filter predicate =>
          refine ⟨filter predicate started true, ?_, ?_⟩
          · simp only [Pipeline.attach, start, hstarted]
          · rw [Pipeline.flow, hflow]
      | limit skip top =>
          refine ⟨limit skip top started (some (0, 0)), ?_, ?_⟩
          · simp only [Pipeline.attach, start, hstarted]
          · rw [Pipeline.flow, hflow]
            cases top <;> rfl
      | sort keys => exact starts_sort keys hstarted hflow

/-- Stages are applied from the bottom to the top. -/
theorem Starts.attachAll (h : Starts source outcome) (stages : List Stage) :
    Starts (stages.foldl Pipeline.attach source) (outcome >>= Stage.applyAll stages) := by
  induction stages generalizing source outcome with
  | nil => cases outcome <;> exact h
  | cons stage stages ih =>
      have hnext := ih (h.attach stage)
      cases outcome <;> exact hnext

theorem Starts.collect_eq (h : Starts source outcome) :
    source.collect = outcome >>= Flow.collect := by
  unfold Pipeline.collect
  cases outcome with
  | error e =>
      obtain ⟨rest, hrest⟩ := h
      rw [hrest]
      rfl
  | ok flow =>
      obtain ⟨started, hstarted, rfl⟩ := h
      rw [hstarted, ok_bind]
      exact drain_eq_collect started

/-- Collecting a pipeline applies its stages to the records. -/
theorem collect_build (records : List Record) (stages : List Stage) :
    (build records stages).collect =
      Stage.applyAll stages (.ofList records) >>= Flow.collect :=
  ((starts_scan records).attachAll stages).collect_eq

end Pipeline

/-! ## Projection -/

namespace ProjectedPipeline

/-- What a pipeline hands out, projected. -/
def flow (pipeline : ProjectedPipeline) : Flow ProjectedRecord :=
  if pipeline.started then
    pipeline.source.flow.project (Projection.shaped pipeline.model pipeline.key pipeline.shape)
  else .fail (.usage .notInitialized)

theorem flow_next (pipeline : ProjectedPipeline) : pipeline.flow = .ofNext flow pipeline.next := by
  unfold next
  cases hstarted : pipeline.started with
  | false => simp [flow, hstarted, Flow.ofNext]
  | true =>
      have hsource := Pipeline.flow_next pipeline.source
      simp only [flow, hstarted, Bool.not_true, if_true]
      rw [hsource]
      rcases pipeline.source.next with ⟨e | _ | record, rest⟩
      · rfl
      · rfl
      · simp only [Flow.ofNext, Flow.project]
        cases Projection.shaped pipeline.model pipeline.key pipeline.shape record with
        | error e => rfl
        | ok projected =>
            simp [Except.map, flow]

/-- Collecting a projection of pages cut out of a list. -/
theorem collect_build {source : Pipeline} {outcome : Except QueryError (Flow Record)}
    (h : Pipeline.Starts source outcome) (model : Model) (key : TypeKey) (shape : Shape) :
    (build model key shape source).collect =
      outcome >>= fun flow => (flow.project (Projection.shaped model key shape)).collect := by
  unfold collect start build
  cases outcome with
  | error e =>
      obtain ⟨rest, hrest⟩ := h
      simp [hrest]
  | ok flow =>
      obtain ⟨started, hstarted, rfl⟩ := h
      simp only [hstarted, ok_bind]
      exact Supply.drain_eq_collect flow_next _

end ProjectedPipeline

end EntityQuery
