import EntityQuery.Execution.Projection
import EntityQuery.Execution.Sorting

/-!
# Pipelines

A pipeline hands out records one at a time.  At its bottom is a scan of given records, above it
stages that filter, sort or limit what comes from below.  It has to be started before it hands out
anything.

Every stage keeps its own place: a scan and a sort keep the records that are left, a limit counts
what it has left out and handed out, and a filter keeps nothing but its source.  The work is cut
into steps that take at most one record off the bottom.  A step may end with nothing to hand out,
because a filter or a limit left the record out; asking for the next record goes on until a step
hands one out, fails or finds the end.

Starting again begins a scan anew and does nothing to a stage that has been started.  A sort takes
all that its source has when it is started; if that fails, the sort is not started and its source
has lost what was taken.
-/

namespace EntityQuery

/-! ## Taking items one at a time -/

/-- Something that hands out items one at a time, and only so many of them. -/
class Supply (σ : Type) (α : outParam Type) where
  next : σ → Except QueryError (Option α) × σ
  /-- A bound on what can still be handed out. -/
  remaining : σ → Nat
  remaining_lt : ∀ {s s' : σ} {a : α}, next s = (.ok (some a), s') → remaining s' < remaining s

namespace Supply

variable {σ α : Type} [Supply σ α]

/-- Takes items up to the end or to the first error. -/
def drain (s : σ) : Except QueryError (List α) × σ :=
  match _h : next s with
  | (.ok none, s') => (.ok [], s')
  | (.error e, s') => (.error e, s')
  | (.ok (some a), s') =>
    let (rest, last) := drain s'
    (rest.map (a :: ·), last)
termination_by remaining s
decreasing_by exact remaining_lt ‹_›

end Supply

/-! ## Stages and their places -/

/-- A step of the processing between the stored records and the result. -/
inductive Stage
  | filter (predicate : Expression)
  | sort (keys : List SortKey)
  | limit (skip : Nat) (top : Option Nat)
  deriving Inhabited

/-- A scan and the stages above it, each with its place once it has been started. -/
inductive Pipeline
  | scan (records : List Record) (left : Option (List Record))
  | filter (predicate : Expression) (source : Pipeline) (started : Bool)
  | sort (keys : List SortKey) (source : Pipeline) (sorted : Option (List Record))
  | limit (skip : Nat) (top : Option Nat) (source : Pipeline) (counts : Option (Nat × Nat))
  deriving Inhabited

/-- The outcome of one step, with the pipeline behind it. -/
inductive PipelineStep
  | yield (record : Record) (rest : Pipeline)
  | skip (rest : Pipeline)
  | done
  | fail (error : QueryError) (rest : Pipeline)

namespace Pipeline

/-- A stage above a pipeline, not started. -/
def attach (source : Pipeline) : Stage → Pipeline
  | .filter predicate => filter predicate source false
  | .sort keys => sort keys source none
  | .limit skip top => limit skip top source none

/-- A pipeline that has not been started: a scan with stages above it, the lowest one first. -/
def build (records : List Record) (stages : List Stage) : Pipeline :=
  stages.foldl attach (scan records none)

/-- What a stage does that has not been started. -/
def refuse (pipeline : Pipeline) : PipelineStep := .fail (.usage .notInitialized) pipeline

/-- One step: at most one record is taken off the bottom, or off the records of a sort. -/
def step : Pipeline → PipelineStep
  | scan records none => refuse (scan records none)
  | scan _ (some []) => .done
  | scan records (some (record :: left)) => .yield record (scan records (some left))
  | filter predicate source false => refuse (filter predicate source false)
  | filter predicate source true =>
    match source.step with
    | .yield record rest =>
      match predicate.test record with
      | .ok true => .yield record (filter predicate rest true)
      | .ok false => .skip (filter predicate rest true)
      | .error e => .fail (.evaluation e) (filter predicate rest true)
    | .skip rest => .skip (filter predicate rest true)
    | .done => .done
    | .fail e rest => .fail e (filter predicate rest true)
  | sort keys source none => refuse (sort keys source none)
  | sort _ _ (some []) => .done
  | sort keys source (some (record :: sorted)) => .yield record (sort keys source (some sorted))
  | limit skip top source none => refuse (limit skip top source none)
  | limit skip top source (some (skipped, returned)) =>
    -- The bound comes first: nothing is taken from the source once enough has been handed out.
    if top.any (· ≤ returned) then .done
    else
      match source.step with
      | .yield record rest =>
        if skipped < skip then .skip (limit skip top rest (some (skipped + 1, returned)))
        else .yield record (limit skip top rest (some (skipped, returned + 1)))
      | .skip rest => .skip (limit skip top rest (some (skipped, returned)))
      | .done => .done
      | .fail e rest => .fail e (limit skip top rest (some (skipped, returned)))

/-- The number of records that steps can still take. -/
def remaining : Pipeline → Nat
  | scan _ left => (left.getD []).length
  | filter _ source _ => source.remaining
  | sort _ _ sorted => (sorted.getD []).length
  | limit _ _ source _ => source.remaining

/-- A step that neither ends nor fails has taken a record. -/
def PipelineStep.takes (before : Nat) : PipelineStep → Prop
  | .yield _ rest | .skip rest => rest.remaining < before
  | .done | .fail _ _ => True

theorem step_takes (pipeline : Pipeline) : PipelineStep.takes pipeline.remaining pipeline.step := by
  induction pipeline with
  | scan records left =>
      rcases left with _ | _ | ⟨record, left⟩ <;>
        simp [step, refuse, PipelineStep.takes, remaining]
  | sort keys source sorted _ =>
      rcases sorted with _ | _ | ⟨record, sorted⟩ <;>
        simp [step, refuse, PipelineStep.takes, remaining]
  | filter predicate source started ih =>
      cases started with
      | false => simp [step, refuse, PipelineStep.takes]
      | true =>
          rw [step]
          cases hsource : source.step with
          | yield record rest =>
              rw [hsource] at ih
              dsimp only
              split
              · simpa [PipelineStep.takes, remaining] using ih
              · simpa [PipelineStep.takes, remaining] using ih
              · simp [PipelineStep.takes]
          | skip rest =>
              rw [hsource] at ih
              simpa [PipelineStep.takes, remaining] using ih
          | done => simp [PipelineStep.takes]
          | fail e rest => simp [PipelineStep.takes]
  | limit skip top source counts ih =>
      rcases counts with _ | ⟨skipped, returned⟩
      · simp [step, refuse, PipelineStep.takes]
      · rw [step]
        split
        · simp [PipelineStep.takes]
        · cases hsource : source.step with
          | yield record rest =>
              rw [hsource] at ih
              dsimp only
              split <;> simpa [PipelineStep.takes, remaining] using ih
          | skip rest =>
              rw [hsource] at ih
              simpa [PipelineStep.takes, remaining] using ih
          | done => simp [PipelineStep.takes]
          | fail e rest => simp [PipelineStep.takes]

theorem remaining_lt_of_skip {pipeline rest : Pipeline} (h : pipeline.step = .skip rest) :
    rest.remaining < pipeline.remaining := by
  simpa [h, PipelineStep.takes] using step_takes pipeline

theorem remaining_lt_of_yield {pipeline rest : Pipeline} {record : Record}
    (h : pipeline.step = .yield record rest) : rest.remaining < pipeline.remaining := by
  simpa [h, PipelineStep.takes] using step_takes pipeline

/-- The next record, if there is one: steps until one of them hands out a record, ends or fails. -/
def next (pipeline : Pipeline) : Except QueryError (Option Record) × Pipeline :=
  match _h : pipeline.step with
  | .yield record rest => (.ok (some record), rest)
  | .skip rest => next rest
  | .done => (.ok none, pipeline)
  | .fail e rest => (.error e, rest)
termination_by pipeline.remaining
decreasing_by exact remaining_lt_of_skip ‹_›

theorem remaining_lt_of_next {pipeline rest : Pipeline} {record : Record}
    (h : pipeline.next = (.ok (some record), rest)) : rest.remaining < pipeline.remaining := by
  fun_induction next pipeline with
  | case1 pipeline record' rest' hstep =>
      obtain ⟨-, rfl⟩ : record' = record ∧ rest' = rest := by simpa using h
      exact remaining_lt_of_yield hstep
  | case2 pipeline rest' hstep ih => exact Nat.lt_trans (ih h) (remaining_lt_of_skip hstep)
  | case3 pipeline hstep => simp at h
  | case4 pipeline e rest' hstep => simp at h

instance : Supply Pipeline Record := ⟨next, remaining, remaining_lt_of_next⟩

/-- Starts a pipeline. -/
def start : Pipeline → Except QueryError Unit × Pipeline
  | scan records _ => (.ok (), scan records (some records))
  | filter predicate source true => (.ok (), filter predicate source true)
  | filter predicate source false =>
    match source.start with
    | (.error e, source) => (.error e, filter predicate source false)
    | (.ok (), source) => (.ok (), filter predicate source true)
  | sort keys source (some sorted) => (.ok (), sort keys source (some sorted))
  | sort keys source none =>
    match source.start with
    | (.error e, source) => (.error e, sort keys source none)
    | (.ok (), source) =>
      match Supply.drain source with
      | (.error e, source) => (.error e, sort keys source none)
      | (.ok records, source) =>
        match Sorting.sortRecords keys records with
        | .error e => (.error (.evaluation e), sort keys source none)
        | .ok sorted => (.ok (), sort keys source (some sorted))
  | limit skip top source (some counts) => (.ok (), limit skip top source (some counts))
  | limit skip top source none =>
    match source.start with
    | (.error e, source) => (.error e, limit skip top source none)
    | (.ok (), source) => (.ok (), limit skip top source (some (0, 0)))

/-- Starts a pipeline and takes all its records. -/
def collect (pipeline : Pipeline) : Except QueryError (List Record) :=
  match pipeline.start with
  | (.error e, _) => .error e
  | (.ok (), started) => (Supply.drain started).1

end Pipeline

/-! ## Projection on top -/

/-- A pipeline whose records are projected as they are handed out. -/
structure ProjectedPipeline where
  model : Model
  key : TypeKey
  shape : Shape
  source : Pipeline
  started : Bool

namespace ProjectedPipeline

/-- A pipeline that has not been started, with a projection on top. -/
def build (model : Model) (key : TypeKey) (shape : Shape) (source : Pipeline) : ProjectedPipeline :=
  ⟨model, key, shape, source, false⟩

/-- Starts the pipeline, once. -/
def start (pipeline : ProjectedPipeline) : Except QueryError Unit × ProjectedPipeline :=
  if pipeline.started then (.ok (), pipeline)
  else
    match pipeline.source.start with
    | (.ok (), source) => (.ok (), { pipeline with source, started := true })
    | (.error e, source) => (.error e, { pipeline with source })

/-- The next projected record, if there is one. -/
def next (pipeline : ProjectedPipeline) :
    Except QueryError (Option ProjectedRecord) × ProjectedPipeline :=
  if !pipeline.started then (.error (.usage .notInitialized), pipeline)
  else
    match pipeline.source.next with
    | (.ok none, source) => (.ok none, { pipeline with source })
    | (.error e, source) => (.error e, { pipeline with source })
    | (.ok (some record), source) =>
      ((Projection.shaped pipeline.model pipeline.key pipeline.shape record).map some,
        { pipeline with source })

theorem remaining_lt_of_next {pipeline rest : ProjectedPipeline} {record : ProjectedRecord}
    (h : pipeline.next = (.ok (some record), rest)) :
    rest.source.remaining < pipeline.source.remaining := by
  unfold next at h
  split at h
  · simp at h
  · split at h
    · simp at h
    · simp at h
    · rename_i r source hsource
      obtain ⟨-, rfl⟩ := Prod.mk.inj h
      exact Pipeline.remaining_lt_of_next hsource

instance : Supply ProjectedPipeline ProjectedRecord :=
  ⟨next, fun pipeline => pipeline.source.remaining, remaining_lt_of_next⟩

/-- Starts a pipeline and takes all its records. -/
def collect (pipeline : ProjectedPipeline) : Except QueryError (List ProjectedRecord) :=
  match pipeline.start with
  | (.error e, _) => .error e
  | (.ok (), started) => (Supply.drain started).1

end ProjectedPipeline

end EntityQuery
