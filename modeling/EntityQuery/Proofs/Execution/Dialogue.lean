import EntityQuery.Proofs.Execution.KeyOrder
import EntityQuery.Proofs.Execution.Refinement

/-!
# Dialogues with a pipeline

A client may start a pipeline and ask for the next record as often and in any order it likes.  If no
stage fails on the records, the answers follow a script: before the first start every request for a
record is refused, and from then on the requests count through a list, whatever else is asked in
between.  That list is what the stages make of the records as functions on lists.

The places of the stages enter through the flow alone.  A pipeline that is running stays so,
starting it again does nothing, and one request takes the first item off its flow.
-/

namespace EntityQuery

open ListProgram

/-- What a client asks for. -/
inductive Request
  | start
  | next
  deriving DecidableEq

/-- What a client is told. -/
inductive Answer
  | started (outcome : Except QueryError Unit)
  | handed (outcome : Except QueryError (Option Record))

namespace Pipeline

/-- The answer to a request, and the pipeline behind it. -/
def respond (pipeline : Pipeline) : Request → Answer × Pipeline
  | .start => (.started pipeline.start.1, pipeline.start.2)
  | .next => (.handed pipeline.next.1, pipeline.next.2)

/-- The answers to requests, one after another. -/
def answers (pipeline : Pipeline) : List Request → List Answer
  | [] => []
  | request :: requests =>
    (pipeline.respond request).1 :: (pipeline.respond request).2.answers requests

/-- The answers that count through a list.  The place is that of the next item, once there has been
a start. -/
def script (items : List Record) : Option Nat → List Request → List Answer
  | _, [] => []
  | none, .next :: requests =>
    .handed (.error (.usage .notInitialized)) :: script items none requests
  | none, .start :: requests => .started (.ok ()) :: script items (some 0) requests
  | some place, .start :: requests => .started (.ok ()) :: script items (some place) requests
  | some place, .next :: requests =>
    .handed (.ok items[place]?) :: script items (some (place + 1)) requests

end Pipeline

/-! ## Stages on lists -/

namespace Stage

/-- No record makes a stage fail: the predicate of a filter has a truth value, and the keys of a
sort can be read. -/
def Applies (records : List Record) : Stage → Prop
  | filter predicate => ∀ r ∈ records, ∃ b, predicate.test r = .ok b
  | sort keys => ∀ r ∈ records, ∃ values, SortKey.values r keys = .ok values
  | limit _ _ => True

/-- Does a record pass a filter? -/
def holds (predicate : Expression) (record : Record) : Bool :=
  (predicate.test record).toOption == some true

/-- A record next to the values of its keys. -/
def keyed (keys : List SortKey) (record : Record) : Sorting.Keyed :=
  (record, (SortKey.values record keys).toOption.getD [])

/-- What a stage makes of a list of records, given a way to sort. -/
def onList (sorter : Sorter) : Stage → List Record → List Record
  | filter predicate, records => records.filter (holds predicate)
  | sort keys, records => (sorter keys (records.map (keyed keys))).map Prod.fst
  | limit skip top, records => page skip top records

/-- What stages make of a list of records, the lowest one first. -/
def onListAll (sorter : Sorter) (stages : List Stage) (records : List Record) : List Record :=
  stages.foldl (fun records stage => stage.onList sorter records) records

variable {records : List Record} {stage : Stage} {stages : List Stage} {keys : List SortKey}
  {predicate : Expression} {sorter : Sorter} {record : Record}

theorem Applies.mono {others : List Record} (h : stage.Applies records)
    (hsub : ∀ r ∈ others, r ∈ records) : stage.Applies others := by
  cases stage with
  | filter predicate => exact fun r hr => h r (hsub r hr)
  | sort keys => exact fun r hr => h r (hsub r hr)
  | limit skip top => trivial

/-- Stages leave records out and move them, and make up none. -/
theorem mem_of_mem_onList (hstable : sorter.IsStable) (h : record ∈ stage.onList sorter records) :
    record ∈ records := by
  cases stage with
  | filter predicate => exact (List.mem_filter.1 h).1
  | sort keys =>
      obtain ⟨entry, hentry, rfl⟩ := List.mem_map.1 h
      have hmem := (hstable keys (records.map (keyed keys))).perm.mem_iff.1 hentry
      obtain ⟨r, hr, rfl⟩ := List.mem_map.1 hmem
      exact hr
  | limit skip top =>
      cases top with
      | none => exact List.mem_of_mem_drop h
      | some top => exact List.mem_of_mem_drop (List.mem_of_mem_take h)

/-! ## Stages on the flows of lists -/

theorem filter_ofList (h : (filter predicate).Applies records) :
    (Flow.ofList records).filter (passes predicate) =
      .ofList (records.filter (holds predicate)) := by
  induction records with
  | nil => rfl
  | cons r records ih =>
      obtain ⟨⟨b, hb⟩, hrest⟩ := List.forall_mem_cons.1 h
      have hpasses : passes predicate r = .ok b := by rw [passes, hb]; rfl
      have hholds : holds predicate r = b := by cases b <;> simp [holds, hb, Except.toOption]
      rw [Flow.ofList, Flow.filter, hpasses, ih hrest]
      cases b with
      | true => rw [List.filter_cons_of_pos hholds, Flow.ofList]
      | false => rw [List.filter_cons_of_neg (by simp [hholds])]

theorem mapM_withValues (h : (sort keys).Applies records) :
    records.mapM (withValues keys) = .ok (records.map (keyed keys)) := by
  induction records with
  | nil => rfl
  | cons r records ih =>
      obtain ⟨⟨values, hvalues⟩, hrest⟩ := List.forall_mem_cons.1 h
      have hkeyed : keyed keys r = (r, values) := by rw [keyed, hvalues]; rfl
      have hwith : withValues keys r = .ok (keyed keys r) := by
        rw [withValues, ← values_eq_mapM, hvalues, hkeyed]
        rfl
      rw [List.mapM_cons, hwith, ih hrest]
      rfl

/-- A stage that applies to the records does to their flow what it does to their list. -/
theorem apply_ofList (h : stage.Applies records) :
    stage.apply (.ofList records) = .ok (.ofList (stage.onList insertionSorter records)) := by
  cases stage with
  | filter predicate => rw [apply, filter_ofList h, onList]
  | sort keys => rw [sort_apply, Flow.collect_ofList, ok_bind, mapM_withValues h]; rfl
  | limit skip top => rw [apply, Flow.limit_ofList, onList]

theorem applyAll_ofList (h : ∀ stage ∈ stages, stage.Applies records) :
    applyAll stages (.ofList records) =
      .ok (.ofList (onListAll insertionSorter stages records)) := by
  induction stages generalizing records with
  | nil => rfl
  | cons stage stages ih =>
      obtain ⟨hstage, hstages⟩ := List.forall_mem_cons.1 h
      rw [applyAll, apply_ofList hstage, ok_bind, ih fun other hother =>
        (hstages other hother).mono fun r hr => mem_of_mem_onList insertionSorter_isStable hr]
      rfl

/-! ## One way to sort -/

/-- A sort has an order to go by: the comparison of its keys orders the records. -/
def HasOrder (records : List Record) : Stage → Prop
  | sort keys => Sorting.Orders (compareKeyed keys) (records.map (keyed keys))
  | filter _ | limit _ _ => True

theorem HasOrder.mono {others : List Record} (h : stage.HasOrder records)
    (hsub : ∀ r ∈ others, r ∈ records) : stage.HasOrder others := by
  cases stage with
  | sort keys =>
      refine Sorting.Orders.mono h fun entry hentry => ?_
      obtain ⟨r, hr, rfl⟩ := List.mem_map.1 hentry
      exact List.mem_map_of_mem (hsub r hr)
  | filter | limit => trivial

/-- The values that a sort reads share a type, key by key, and any two of them that are not null can
be compared. -/
def Comparable (records : List Record) : Stage → Prop
  | sort keys => ∀ key ∈ keys,
    (∃ type, ∀ r ∈ records, ∀ v, Expression.readPath key.path r = .ok v → v.IsOf type) ∧
      ∀ r ∈ records, ∀ s ∈ records, ∀ v w, Expression.readPath key.path r = .ok v →
        Expression.readPath key.path s = .ok w → v ≠ .null → w ≠ .null →
        (v.compare? w).isSome = true
  | filter _ | limit _ _ => True

/-- The value of a key on a record. -/
def valueOn (record : Record) (key : SortKey) : Value :=
  (Expression.readPath key.path record).toOption.getD .null

theorem values_eq_ok {values : List Value} (h : SortKey.values record keys = .ok values) :
    values = keys.map (valueOn record) ∧
      ∀ key ∈ keys, Expression.readPath key.path record = .ok (valueOn record key) := by
  induction keys generalizing values with
  | nil =>
      cases h
      exact ⟨rfl, fun _ h => absurd h List.not_mem_nil⟩
  | cons key keys ih =>
      rw [SortKey.values] at h
      obtain ⟨v, hv, h⟩ := bind_eq_ok.1 h
      obtain ⟨vs, hvs, h⟩ := bind_eq_ok.1 h
      cases h
      obtain ⟨rfl, hkeys⟩ := ih hvs
      have hvalue : valueOn record key = v := by rw [valueOn, hv]; rfl
      rw [List.map_cons, hvalue]
      exact ⟨rfl, List.forall_mem_cons.2 ⟨by rw [hv, hvalue], hkeys⟩⟩

theorem keyed_of_applies (h : (sort keys).Applies records) (hr : record ∈ records) :
    (keyed keys record).2 = keys.map (valueOn record) ∧
      ∀ key ∈ keys, Expression.readPath key.path record = .ok (valueOn record key) := by
  obtain ⟨values, hvalues⟩ := h record hr
  rw [keyed, hvalues]
  exact values_eq_ok hvalues

/-- A sort has an order to go by if each of its keys has. -/
theorem hasOrder_of_keys (happlies : (sort keys).Applies records)
    (h : ∀ key ∈ keys, Sorting.Orders
      (fun r s => key.compare (valueOn r key) (valueOn s key)) records) :
    (sort keys).HasOrder records := by
  refine .of_map _ ((SortKey.orders_compareAll (fun key r => valueOn r key) h).congr ?_)
  intro r hr s hs
  rw [compareKeyed, (keyed_of_applies happlies hr).1, (keyed_of_applies happlies hs).1]

/-- A sort has an order to go by if the values of its keys can be compared. -/
theorem hasOrder_of_comparable (happlies : stage.Applies records)
    (hcomparable : stage.Comparable records) : stage.HasOrder records := by
  cases stage with
  | filter | limit => trivial
  | sort keys =>
      refine hasOrder_of_keys happlies fun key hkey => ?_
      obtain ⟨⟨type, htype⟩, hcompare⟩ := hcomparable key hkey
      have hvalue {r : Record} (hr : r ∈ records) :
          Expression.readPath key.path r = .ok (valueOn r key) :=
        (keyed_of_applies happlies hr).2 key hkey
      have hof : ∀ r ∈ records, (valueOn r key).IsOf type :=
        fun r hr => htype r hr _ (hvalue hr)
      refine SortKey.orders_compare (fun r => valueOn r key) hof fun r hr => ?_
      rw [or_iff_not_imp_left]
      intro hpresent
      -- A scalar that can be compared with itself has a rank.
      have hsome := hcompare r hr r hr _ _ (hvalue hr) (hvalue hr) hpresent hpresent
      have htype := (hof r hr).resolve_left hpresent
      rw [Value.compare?_eq_compareRanks? htype htype] at hsome
      cases hrank : (valueOn r key).rank? with
      | some rank => rfl
      | none =>
          rw [hrank] at hsome
          cases hsome

/-- A sort has an order to go by if the values of each key are null or scalars of one type, and none
of them is a floating point number that is none. -/
theorem hasOrder_of_isOf (happlies : (sort keys).Applies records)
    (h : ∀ key ∈ keys, ∃ type, ∀ r ∈ records,
      (valueOn r key).IsOf type ∧ (valueOn r key).isNaN = false) :
    (sort keys).HasOrder records := by
  refine hasOrder_of_keys happlies fun key hkey => ?_
  obtain ⟨type, htype⟩ := h key hkey
  exact SortKey.orders_compare (fun r => valueOn r key) (fun r hr => (htype r hr).1)
    fun r hr => SortKey.rank?_of_isNaN (htype r hr).1 (htype r hr).2

/-- Two ways to sort agree where there is an order to go by. -/
theorem onListAll_eq {other : Sorter} (hsorter : sorter.IsStable) (hother : other.IsStable)
    (horder : ∀ stage ∈ stages, stage.HasOrder records) :
    onListAll other stages records = onListAll sorter stages records := by
  induction stages generalizing records with
  | nil => rfl
  | cons stage stages ih =>
      obtain ⟨hstage, hstages⟩ := List.forall_mem_cons.1 horder
      have hfirst : stage.onList other records = stage.onList sorter records := by
        cases stage with
        | sort keys => rw [onList, onList, (hother keys _).unique (hsorter keys _) hstage]
        | filter | limit => rfl
      have hsub : ∀ r ∈ stage.onList sorter records, r ∈ records :=
        fun r hr => mem_of_mem_onList hsorter hr
      calc onListAll other (stage :: stages) records
          = onListAll other stages (stage.onList sorter records) := by
            rw [onListAll, List.foldl_cons, hfirst, onListAll]
        _ = onListAll sorter stages (stage.onList sorter records) :=
            ih fun s hs => (hstages s hs).mono hsub

end Stage

/-! ## Running pipelines -/

namespace Pipeline

variable {pipeline source started rest : Pipeline} {record : Record} {e : QueryError}
  {items records : List Record} {stages : List Stage} {stage : Stage}

/-- There is a stage on top, and it has been started. -/
def Running : Pipeline → Prop
  | filter _ _ started => started = true
  | sort _ _ sorted => sorted.isSome = true
  | limit _ _ _ counts => counts.isSome = true
  | scan _ _ => False

theorem Running.start_eq (h : pipeline.Running) : pipeline.start = (.ok (), pipeline) := by
  cases pipeline with
  | scan => cases h
  | filter predicate source started =>
      obtain rfl : started = true := h
      rfl
  | sort keys source sorted =>
      obtain ⟨records, rfl⟩ := Option.isSome_iff_exists.1 h
      rfl
  | limit skip top source counts =>
      obtain ⟨⟨skipped, returned⟩, rfl⟩ := Option.isSome_iff_exists.1 h
      rfl

/-- A stage on top is running after its start. -/
theorem running_of_start (h : (source.attach stage).start = (.ok (), started)) :
    started.Running := by
  cases stage with
  | filter predicate =>
      rw [Pipeline.attach, start] at h
      split at h
      · cases h
      · obtain ⟨-, rfl⟩ := Prod.mk.inj h
        rfl
  | sort keys =>
      rw [Pipeline.attach, start] at h
      split at h
      · cases h
      · split at h
        · cases h
        · split at h
          · cases h
          · obtain ⟨-, rfl⟩ := Prod.mk.inj h
            rfl
  | limit skip top =>
      rw [Pipeline.attach, start] at h
      split at h
      · cases h
      · obtain ⟨-, rfl⟩ := Prod.mk.inj h
        rfl

/-- The pipeline behind a step. -/
def PipelineStep.behind (pipeline : Pipeline) : PipelineStep → Pipeline
  | .yield _ rest | .skip rest | .fail _ rest => rest
  | .done => pipeline

theorem Running.step (h : pipeline.Running) :
    (PipelineStep.behind pipeline pipeline.step).Running := by
  cases pipeline with
  | scan => cases h
  | filter predicate source started =>
      obtain rfl : started = true := h
      unfold Pipeline.step
      cases source.step with
      | yield record rest => dsimp only; split <;> rfl
      | _ => rfl
  | sort keys source sorted =>
      obtain ⟨records, rfl⟩ := Option.isSome_iff_exists.1 h
      cases records <;> rfl
  | limit skip top source counts =>
      obtain ⟨⟨skipped, returned⟩, rfl⟩ := Option.isSome_iff_exists.1 h
      unfold Pipeline.step
      split
      · rfl
      · cases source.step with
        | yield record rest => dsimp only; split <;> rfl
        | _ => rfl

theorem Running.next (h : pipeline.Running) : pipeline.next.2.Running := by
  fun_induction Pipeline.next pipeline with
  | case1 pipeline record rest hstep => simpa [hstep, PipelineStep.behind] using h.step
  | case2 pipeline rest hstep ih => exact ih (by simpa [hstep, PipelineStep.behind] using h.step)
  | case3 pipeline hstep => exact h
  | case4 pipeline e rest hstep => simpa [hstep, PipelineStep.behind] using h.step

/-! ## Requests for a record -/

/-- What has been found to be at its end stays there. -/
theorem flow_of_next_none (h : pipeline.next = (.ok none, rest)) : rest.flow = .done := by
  fun_induction Pipeline.next pipeline with
  | case1 => cases h
  | case2 pipeline rest hstep ih => exact ih h
  | case3 pipeline hstep =>
      obtain ⟨-, rfl⟩ := Prod.mk.inj h
      rw [← flow_step, hstep, PipelineStep.flow]
  | case4 => cases h

/-- A request takes the first item off the flow of a list. -/
theorem next_of_flow_ofList (h : pipeline.flow = .ofList items) :
    pipeline.next.1 = .ok items[0]? ∧ pipeline.next.2.flow = .ofList items.tail := by
  have hnext := flow_next pipeline
  rw [h] at hnext
  cases hrun : pipeline.next with
  | mk outcome rest =>
      rw [hrun] at hnext
      cases items with
      | nil =>
          cases outcome with
          | error e => cases hnext
          | ok handed =>
              cases handed with
              | some record => cases hnext
              | none => exact ⟨rfl, flow_of_next_none hrun⟩
      | cons first others =>
          cases outcome with
          | error e => cases hnext
          | ok handed =>
              cases handed with
              | none => cases hnext
              | some record =>
                  obtain ⟨rfl, hflow⟩ := Flow.item.inj hnext
                  exact ⟨rfl, hflow.symm⟩

/-- A stage that has not been started refuses to hand out a record, and stays as it is. -/
theorem next_attach (source : Pipeline) (stage : Stage) :
    (source.attach stage).next = (.error (.usage .notInitialized), source.attach stage) := by
  have hstep : (source.attach stage).step = refuse (source.attach stage) := by
    cases stage <;> rfl
  rw [Pipeline.next]
  split <;> simp_all [refuse]

theorem next_build (hne : stages ≠ []) :
    (build records stages).next = (.error (.usage .notInitialized), build records stages) := by
  obtain ⟨front, last, rfl⟩ : ∃ front last, stages = front ++ [last] :=
    ⟨_, _, (List.dropLast_concat_getLast hne).symm⟩
  rw [build, List.foldl_append]
  exact next_attach _ last

/-! ## Dialogues -/

/-- From its start on, a pipeline counts through its flow. -/
theorem answers_of_running (h : pipeline.Running) (place : Nat)
    (hflow : pipeline.flow = .ofList (items.drop place)) (requests : List Request) :
    pipeline.answers requests = script items (some place) requests := by
  induction requests generalizing pipeline place with
  | nil => rfl
  | cons request requests ih =>
      cases request with
      | start => rw [answers, respond, h.start_eq, script, ih h place hflow]
      | next =>
          obtain ⟨hfirst, hrest⟩ := next_of_flow_ofList hflow
          rw [List.getElem?_drop, Nat.add_zero] at hfirst
          rw [List.tail_drop] at hrest
          rw [answers, respond, script, hfirst, ih h.next (place + 1) hrest]

/-- Until its start, a stage refuses to hand out records. -/
theorem answers_attach (hstart : (source.attach stage).start = (.ok (), started))
    (hflow : started.flow = .ofList items) (requests : List Request) :
    (source.attach stage).answers requests = script items none requests := by
  induction requests with
  | nil => rfl
  | cons request requests ih =>
      cases request with
      | start =>
          rw [answers, respond, hstart, script]
          rw [answers_of_running (running_of_start hstart) 0 hflow]
      | next => rw [answers, respond, next_attach, script, ih]

theorem answers_build_insertionSorter (hne : stages ≠ [])
    (happlies : ∀ stage ∈ stages, stage.Applies records) (requests : List Request) :
    (build records stages).answers requests =
      script (Stage.onListAll insertionSorter stages records) none requests := by
  have hstarts := (starts_scan records).attachAll stages
  rw [ok_bind, Stage.applyAll_ofList happlies] at hstarts
  obtain ⟨started, hstart, hflow⟩ := hstarts
  obtain ⟨front, last, rfl⟩ : ∃ front last, stages = front ++ [last] :=
    ⟨_, _, (List.dropLast_concat_getLast hne).symm⟩
  rw [List.foldl_append] at hstart
  rw [build, List.foldl_append]
  exact answers_attach hstart hflow requests

/-- Stages answer any requests.  A request for a record before the first start is refused and leaves
everything as it is; from then on requests count through what the stages make of the records as
functions on lists, and starting again changes nothing.  Stages sort in a stable way, and where the
keys order the records there is only one. -/
theorem answers_build : ∃ sorter : Sorter, sorter.IsStable ∧ ∀ (records : List Record)
    (stages : List Stage), stages ≠ [] → (∀ stage ∈ stages, stage.Applies records) →
      (build records stages).next = (.error (.usage .notInitialized), build records stages) ∧
      (∀ requests : List Request, (build records stages).answers requests =
        script (Stage.onListAll sorter stages records) none requests) ∧
      ∀ other : Sorter, other.IsStable → (∀ stage ∈ stages, stage.HasOrder records) →
        Stage.onListAll other stages records = Stage.onListAll sorter stages records := by
  refine ⟨insertionSorter, insertionSorter_isStable, fun records stages hne happlies => ?_⟩
  refine ⟨next_build hne, answers_build_insertionSorter hne happlies, fun other hother horder => ?_⟩
  exact Stage.onListAll_eq insertionSorter_isStable hother horder

/-- Three items, one of them too cheap for the sample filter. -/
def sampleItems : List Record :=
  [Sample.item 0 "Axe" 20 [], Sample.item 1 "Bolt" 5 [], Sample.item 2 "Cord" 10 []]

/-- The items that pass the sample filter, by price, but for the first one. -/
def sampleStages : List Stage :=
  [.filter Sample.filter,
    .sort [⟨Sample.step Sample.itemKey "Price" (.primitive .int64), .ascending, .first⟩],
    .limit 1 none]

theorem answers_build_sample :
    sampleStages ≠ [] ∧ (∀ stage ∈ sampleStages, stage.Applies sampleItems) ∧
      (∀ stage ∈ sampleStages, stage.HasOrder sampleItems) ∧
      (build sampleItems sampleStages).answers [.next, .start, .next, .start, .next] =
        [.handed (.error (.usage .notInitialized)), .started (.ok ()),
          .handed (.ok (some (Sample.item 0 "Axe" 20 []))), .started (.ok ()),
          .handed (.ok none)] := by
  have hne : sampleStages ≠ [] := List.cons_ne_nil _ _
  have happlies : ∀ stage ∈ sampleStages, stage.Applies sampleItems := by
    refine List.forall_mem_cons.2 ⟨?_, List.forall_mem_cons.2 ⟨?_, ?_⟩⟩
    · intro r hr
      fin_cases hr
      · exact ⟨true, rfl⟩
      · exact ⟨false, rfl⟩
      · exact ⟨true, rfl⟩
    · intro r hr
      fin_cases hr <;> exact ⟨_, rfl⟩
    · exact List.forall_mem_singleton.2 trivial
  have hcomparable : ∀ stage ∈ sampleStages, stage.Comparable sampleItems := by
    -- All prices are there, and are integers.
    have hprice : ∀ r ∈ sampleItems, ∀ v, Expression.readPath
        (Sample.step Sample.itemKey "Price" (.primitive .int64)) r = .ok v →
        ∃ n, v = .int64 n := by
      intro r hr v hv
      fin_cases hr <;> cases hv <;> exact ⟨_, rfl⟩
    refine List.forall_mem_cons.2 ⟨trivial, List.forall_mem_cons.2 ⟨?_, ?_⟩⟩
    · refine List.forall_mem_singleton.2 ⟨⟨.primitive .int64, ?_⟩, ?_⟩
      · intro r hr v hv
        obtain ⟨n, rfl⟩ := hprice r hr v hv
        exact .inr rfl
      · intro r hr s hs v w hv hw _ _
        obtain ⟨m, rfl⟩ := hprice r hr v hv
        obtain ⟨n, rfl⟩ := hprice s hs w hw
        rfl
    · exact List.forall_mem_singleton.2 trivial
  have horder : ∀ stage ∈ sampleStages, stage.HasOrder sampleItems := fun stage hstage =>
    Stage.hasOrder_of_comparable (happlies stage hstage) (hcomparable stage hstage)
  obtain ⟨sorter, hstable, h⟩ := answers_build
  obtain ⟨-, hanswers, hunique⟩ := h sampleItems sampleStages hne happlies
  refine ⟨hne, happlies, horder, ?_⟩
  rw [hanswers, ← hunique insertionSorter insertionSorter_isStable horder]
  rfl

end Pipeline

end EntityQuery
