import EntityQuery.Expression.Evaluation
import EntityQuery.Proofs.Result
import EntityQuery.Proofs.Sample

/-!
# What `any` and `all` mean

A lambda asks the elements of its source in order.  An element passes, decides or fails, and the
first one that does not pass settles the outcome: `any` is decided by an element on which the body
is true, `all` by one on which it is false or null.  If all elements pass, `any` is false and `all`
is true.  This determines the outcome for a source of any length (`Question.AnsweredBy`).

Negation turns the two into each other, as long as the body is null on no element: the elements that
pass, decide and fail for `all` are those that do so for `any` with the negated body.  Null would
break this, since it decides `all`, and its negation, which is null again, decides nothing.
-/

namespace EntityQuery.Expression

/-- A lambda without its source, inside other lambdas: what is asked of each element. -/
structure Question where
  record : Record
  bindings : Bindings
  quantifier : Quantifier
  parameter : String
  body : Expression

namespace Question

variable (question : Question)

/-- What the body comes to where the parameter stands for an element. -/
def valueAt (element : Record) : Except EvalError Value :=
  evaluate question.record ((question.parameter, element) :: question.bindings) question.body

/-- What the lambda answers about a source. -/
def answer (source : Expression) : Except EvalError Value :=
  evaluate question.record question.bindings
    (.lambda question.quantifier source question.parameter (some question.body))

/-- The elements of a source.  An absent collection has none. -/
def Ranges (source : Expression) (items : List Value) : Prop :=
  evaluate question.record question.bindings source = .ok (.collection items) ∨
    evaluate question.record question.bindings source = .ok .null ∧ items = []

/-! ## Elements -/

/-- An element after which the answer is still open. -/
inductive Passes : Value → Prop
  | any {r : Record} {v : Value} (hany : question.quantifier = .any)
      (hvalue : question.valueAt r = .ok v) (hv : v = .boolean false ∨ v = .null) :
      Passes (.record r)
  | all {r : Record} (hall : question.quantifier = .all)
      (hvalue : question.valueAt r = .ok (.boolean true)) : Passes (.record r)

/-- An element that gives the answer. -/
inductive Decides : Value → Prop
  | any {r : Record} (hany : question.quantifier = .any)
      (hvalue : question.valueAt r = .ok (.boolean true)) : Decides (.record r)
  | all {r : Record} {v : Value} (hall : question.quantifier = .all)
      (hvalue : question.valueAt r = .ok v) (hv : v = .boolean false ∨ v = .null) :
      Decides (.record r)

/-- An element that cannot be asked: it is no record, or the body has no truth value on it. -/
inductive Fails : Value → EvalError → Prop
  | element {item : Value} (hitem : ∀ r, item ≠ .record r) :
      Fails item (.lambdaElement question.parameter item)
  | body {r : Record} {e : EvalError} (hvalue : question.valueAt r = .error e) :
      Fails (.record r) e
  | truth {r : Record} {v : Value} (hvalue : question.valueAt r = .ok v)
      (hboolean : ∀ b, v ≠ .boolean b) (hnull : v ≠ .null) :
      Fails (.record r) (.notTruth question.body.text v)

/-- An outcome is what the elements make of it. -/
structure AnsweredBy (items : List Value) (outcome : Except EvalError Value) : Prop where
  decided : outcome = .ok (.boolean (question.quantifier == .any)) ↔
    ∃ front item back, items = front ++ item :: back ∧ (∀ i ∈ front, question.Passes i) ∧
      question.Decides item
  undecided : outcome = .ok (.boolean (question.quantifier == .all)) ↔
    ∀ item ∈ items, question.Passes item
  failed : ∀ e, outcome = .error e ↔
    ∃ front item back, items = front ++ item :: back ∧ (∀ i ∈ front, question.Passes i) ∧
      question.Fails item e
  boolean : ∀ v, outcome = .ok v → ∃ b, v = .boolean b

variable {question} {item : Value} {items front rest : List Value} {source : Expression}
  {e : EvalError} {r : Record}

/-- The truth of the body where the parameter stands for an element. -/
def truthAt (question : Question) (element : Record) : Except EvalError Bool := do
  truthOf question.body (← question.valueAt element)

theorem truthAt_of_passes (h : question.Passes (.record r)) :
    question.truthAt r = .ok (question.quantifier == .all) := by
  cases h with
  | any hany hvalue hv =>
      rw [truthAt, hvalue, hany]
      rcases hv with rfl | rfl <;> rfl
  | all hall hvalue =>
      rw [truthAt, hvalue, hall]
      rfl

theorem truthAt_of_decides (h : question.Decides (.record r)) :
    question.truthAt r = .ok (question.quantifier == .any) := by
  cases h with
  | any hany hvalue =>
      rw [truthAt, hvalue, hany]
      rfl
  | all hall hvalue hv =>
      rw [truthAt, hvalue, hall]
      rcases hv with rfl | rfl <;> rfl

theorem truthAt_of_fails (h : question.Fails (.record r) e) : question.truthAt r = .error e := by
  cases h with
  | element hitem => exact absurd rfl (hitem r)
  | body hvalue =>
      rw [truthAt, hvalue]
      rfl
  | @truth _ v hvalue hboolean hnull =>
      rw [truthAt, hvalue, ok_bind]
      cases v with
      | boolean b => exact absurd rfl (hboolean b)
      | null => exact absurd rfl hnull
      | _ => rfl

/-- There is nothing else that an element can do. -/
theorem passes_or_decides_or_fails (question : Question) (item : Value) :
    question.Passes item ∨ question.Decides item ∨ ∃ e, question.Fails item e := by
  cases item with
  | record r =>
      cases hvalue : question.valueAt r with
      | error e => exact .inr (.inr ⟨e, .body hvalue⟩)
      | ok v =>
          cases v with
          | boolean b =>
              cases hquantifier : question.quantifier <;> cases b
              · exact .inl (.any hquantifier hvalue (.inl rfl))
              · exact .inr (.inl (.any hquantifier hvalue))
              · exact .inr (.inl (.all hquantifier hvalue (.inl rfl)))
              · exact .inl (.all hquantifier hvalue)
          | null =>
              cases hquantifier : question.quantifier
              · exact .inl (.any hquantifier hvalue (.inr rfl))
              · exact .inr (.inl (.all hquantifier hvalue (.inr rfl)))
          | _ => exact .inr (.inr ⟨_, .truth hvalue nofun nofun⟩)
  | _ => exact .inr (.inr ⟨_, .element nofun⟩)

/-! ## Asking the elements in order -/

/-- What asking some elements comes to. -/
def ask (question : Question) (items : List Value) : Except EvalError Value :=
  quantify question.quantifier question.parameter question.truthAt items

theorem answer_eq_ask (h : question.Ranges source items) :
    question.answer source = question.ask items := by
  rw [answer, evaluate]
  rcases h with hsource | ⟨hsource, rfl⟩ <;> rw [hsource] <;> rfl

theorem ask_cons_of_passes (h : question.Passes item) :
    question.ask (item :: rest) = question.ask rest := by
  obtain ⟨r, rfl⟩ : ∃ r, item = .record r := by cases h <;> exact ⟨_, rfl⟩
  rw [ask, quantify, truthAt_of_passes h, ok_bind]
  cases hquantifier : question.quantifier <;> simp [ask, hquantifier]

theorem ask_cons_of_decides (h : question.Decides item) :
    question.ask (item :: rest) = .ok (.boolean (question.quantifier == .any)) := by
  obtain ⟨r, rfl⟩ : ∃ r, item = .record r := by cases h <;> exact ⟨_, rfl⟩
  rw [ask, quantify, truthAt_of_decides h, ok_bind]
  cases question.quantifier <;> rfl

theorem ask_cons_of_fails (h : question.Fails item e) :
    question.ask (item :: rest) = .error e := by
  cases item with
  | record r => rw [ask, quantify, truthAt_of_fails h, error_bind]
  | _ =>
      cases h
      rfl

/-- Elements that pass make no difference. -/
theorem ask_append (hfront : ∀ i ∈ front, question.Passes i) :
    question.ask (front ++ rest) = question.ask rest := by
  induction front with
  | nil => rfl
  | cons item front ih =>
      obtain ⟨hitem, hfront⟩ := List.forall_mem_cons.1 hfront
      rw [List.cons_append, ask_cons_of_passes hitem, ih hfront]

/-- How an outcome comes about. -/
inductive Course (question : Question) (items : List Value) : Except EvalError Value → Prop
  | undecided (hitems : ∀ item ∈ items, question.Passes item) :
      Course question items (.ok (.boolean (question.quantifier == .all)))
  | decided {front back : List Value} {item : Value} (hitems : items = front ++ item :: back)
      (hfront : ∀ i ∈ front, question.Passes i) (hitem : question.Decides item) :
      Course question items (.ok (.boolean (question.quantifier == .any)))
  | failed {front back : List Value} {item : Value} {e : EvalError}
      (hitems : items = front ++ item :: back) (hfront : ∀ i ∈ front, question.Passes i)
      (hitem : question.Fails item e) : Course question items (.error e)

theorem Course.ask_eq {outcome : Except EvalError Value} (h : Course question items outcome) :
    question.ask items = outcome := by
  cases h with
  | undecided hitems =>
      rw [← List.append_nil items, ask_append hitems]
      rfl
  | decided hitems hfront hitem => rw [hitems, ask_append hfront, ask_cons_of_decides hitem]
  | failed hitems hfront hitem => rw [hitems, ask_append hfront, ask_cons_of_fails hitem]

/-- The first element that does not pass settles the outcome. -/
theorem exists_course (question : Question) (items : List Value) :
    ∃ outcome, Course question items outcome := by
  induction items with
  | nil => exact ⟨_, .undecided (by simp)⟩
  | cons item items ih =>
      rcases question.passes_or_decides_or_fails item with hitem | hitem | ⟨e, hitem⟩
      · have hcons {front : List Value} (hfront : ∀ i ∈ front, question.Passes i) :
            ∀ i ∈ item :: front, question.Passes i := List.forall_mem_cons.2 ⟨hitem, hfront⟩
        obtain ⟨outcome, hcourse⟩ := ih
        cases hcourse with
        | undecided hitems => exact ⟨_, .undecided (hcons hitems)⟩
        | decided hitems hfront hlast =>
            exact ⟨_, .decided (congrArg (item :: ·) hitems) (hcons hfront) hlast⟩
        | failed hitems hfront hlast =>
            exact ⟨_, .failed (congrArg (item :: ·) hitems) (hcons hfront) hlast⟩
      · exact ⟨_, .decided (List.nil_append _).symm (by simp) hitem⟩
      · exact ⟨_, .failed (List.nil_append _).symm (by simp) hitem⟩

theorem course_ask (question : Question) (items : List Value) :
    Course question items (question.ask items) := by
  obtain ⟨outcome, hcourse⟩ := question.exists_course items
  rwa [hcourse.ask_eq]

theorem Course.eq {outcome other : Except EvalError Value} (h : Course question items outcome)
    (hother : Course question items other) : outcome = other :=
  h.ask_eq.symm.trans hother.ask_eq

/-- An answer and its absence are told apart by the truth value. -/
theorem undecided_ne_decided (question : Question) :
    (.ok (.boolean (question.quantifier == .all)) : Except EvalError Value) ≠
      .ok (.boolean (question.quantifier == .any)) := by
  cases question.quantifier <;> nofun

/-- The course that is taken is told by its outcome. -/
theorem Course.answeredBy {outcome : Except EvalError Value} (h : Course question items outcome) :
    question.AnsweredBy items outcome where
  decided := by
    constructor
    · intro houtcome
      cases h with
      | undecided => exact absurd houtcome question.undecided_ne_decided
      | decided hitems hfront hitem => exact ⟨_, _, _, hitems, hfront, hitem⟩
      | failed => cases houtcome
    · rintro ⟨front, item, back, hitems, hfront, hitem⟩
      exact h.eq (.decided hitems hfront hitem)
  undecided := by
    constructor
    · intro houtcome
      cases h with
      | undecided hitems => exact hitems
      | decided => exact absurd houtcome.symm question.undecided_ne_decided
      | failed => cases houtcome
    · intro hitems
      exact h.eq (.undecided hitems)
  failed := by
    intro e
    constructor
    · intro houtcome
      cases h with
      | failed hitems hfront hitem =>
          obtain rfl := Except.error.inj houtcome
          exact ⟨_, _, _, hitems, hfront, hitem⟩
      | undecided | decided => cases houtcome
    · rintro ⟨front, item, back, hitems, hfront, hitem⟩
      exact h.eq (.failed hitems hfront hitem)
  boolean := by
    intro v hv
    cases h with
    | undecided | decided => exact ⟨_, (Except.ok.inj hv).symm⟩
    | failed => cases hv

/-! ## Negation -/

/-- Is the body true of every element? -/
def universal (question : Question) : Question := { question with quantifier := .all }

/-- Is there any element on which the body is false? -/
def negated (question : Question) : Question :=
  { question with quantifier := .any, body := .unary .not question.body }

theorem valueAt_negated (question : Question) (r : Record) :
    question.negated.valueAt r = question.valueAt r >>= applyUnary .not := by
  rw [valueAt, negated, evaluate]
  rfl

theorem passes_negated (hall : question.quantifier = .all) (h : question.Passes item) :
    question.negated.Passes item := by
  cases h with
  | any hany =>
      rw [hall] at hany
      cases hany
  | all _ hvalue =>
      refine .any rfl ?_ (.inl rfl)
      rw [valueAt_negated, hvalue]
      rfl

theorem decides_negated (hall : question.quantifier = .all)
    (hnull : ∀ r, item = .record r → question.valueAt r ≠ .ok .null) (h : question.Decides item) :
    question.negated.Decides item := by
  cases h with
  | any hany =>
      rw [hall] at hany
      cases hany
  | all _ hvalue hv =>
      rcases hv with rfl | rfl
      · refine .any rfl ?_
        rw [valueAt_negated, hvalue]
        rfl
      · exact absurd hvalue (hnull _ rfl)

theorem fails_negated (h : question.Fails item e) : ∃ e', question.negated.Fails item e' := by
  cases h with
  | element hitem => exact ⟨_, .element hitem⟩
  | body hvalue =>
      refine ⟨e, .body ?_⟩
      rw [valueAt_negated, hvalue]
      rfl
  | @truth r v hvalue hboolean hnull =>
      refine ⟨.unaryOperand .not v, .body ?_⟩
      rw [valueAt_negated, hvalue, ok_bind]
      cases v with
      | boolean b => exact absurd rfl (hboolean b)
      | null => exact absurd rfl hnull
      | _ => rfl

/-- The same truth value, or two failures. -/
inductive Alike : Except EvalError Value → Except EvalError Value → Prop
  | boolean (b : Bool) : Alike (.ok (.boolean b)) (.ok (.boolean b))
  | failed (e e' : EvalError) : Alike (.error e) (.error e')

theorem Alike.eq_boolean {outcome other : Except EvalError Value} {b : Bool}
    (h : Alike outcome other) (houtcome : outcome = .ok (.boolean b)) :
    other = .ok (.boolean b) := by
  cases h with
  | boolean => exact houtcome
  | failed => cases houtcome

/-- The body is true of all elements if it is false of none. -/
theorem ask_negated (hall : question.quantifier = .all)
    (hnull : ∀ r, .record r ∈ items → question.valueAt r ≠ .ok .null) :
    Alike (question.ask items) (question.negated.ask items >>= applyUnary .not) := by
  have hfront' {front : List Value} (hfront : ∀ i ∈ front, question.Passes i) :
      ∀ i ∈ front, question.negated.Passes i := fun i hi => passes_negated hall (hfront i hi)
  have hcourse := question.course_ask items
  generalize question.ask items = outcome at hcourse
  -- The same element settles both outcomes.
  cases hcourse with
  | undecided hitems =>
      have hcourse' : Course question.negated items _ := .undecided (hfront' hitems)
      rw [hcourse'.ask_eq, hall]
      exact .boolean true
  | @decided front back item hitems hfront hitem =>
      have hmem : item ∈ items := by simp [hitems]
      have hdecides := decides_negated hall (fun r hr => hnull r (hr ▸ hmem)) hitem
      have hcourse' : Course question.negated items _ := .decided hitems (hfront' hfront) hdecides
      rw [hcourse'.ask_eq, hall]
      exact .boolean false
  | failed hitems hfront hitem =>
      obtain ⟨e', hfails⟩ := fails_negated hitem
      have hcourse' : Course question.negated items _ := .failed hitems (hfront' hfront) hfails
      rw [hcourse'.ask_eq]
      exact .failed _ e'

end Question

open Question

/-- A lambda over a collection is settled by the first element that does not pass, whatever comes
behind it.  Where the body is null on no element, `all` is the same as `not any` of the negated
body. -/
theorem lambda_answeredBy (question : Question) {source : Expression} {items : List Value}
    (hsource : question.Ranges source items) :
    question.AnsweredBy items (question.answer source) ∧
      (∀ front item back back' other, items = front ++ item :: back →
        (∀ i ∈ front, question.Passes i) → question.Decides item →
        question.Ranges other (front ++ item :: back') →
        question.answer other = question.answer source) ∧
      ((∀ r, .record r ∈ items → question.valueAt r ≠ .ok .null) →
        Alike
          (evaluate question.record question.bindings
            (.lambda .all source question.parameter (some question.body)))
          (evaluate question.record question.bindings
            (.unary .not (.lambda .any source question.parameter
              (some (.unary .not question.body)))))) := by
  refine ⟨?_, ?_, ?_⟩
  · rw [answer_eq_ask hsource]
    exact (question.course_ask items).answeredBy
  · rintro front item back back' other rfl hfront hitem hother
    rw [answer_eq_ask hsource, answer_eq_ask hother, ask_append hfront, ask_append hfront,
      ask_cons_of_decides hitem, ask_cons_of_decides hitem]
  · intro hnull
    have hranges : question.universal.Ranges source items := hsource
    have hranges' : question.universal.negated.Ranges source items := hsource
    have hnot : evaluate question.record question.bindings
        (.unary .not (.lambda .any source question.parameter (some (.unary .not question.body)))) =
          question.universal.negated.answer source >>= applyUnary .not := by
      rw [evaluate]
      rfl
    rw [hnot, answer_eq_ask hranges']
    have halike : Alike (question.universal.ask items) _ := ask_negated rfl hnull
    rwa [← answer_eq_ask hranges] at halike

/-- Are there more than two of every part? -/
def sampleQuestion : Question :=
  ⟨Sample.item 1 "Bolt" 12 [Sample.part 2 3, Sample.part 3 1, Sample.part 4 5], [], .all, "p",
    .binary .gt (.path (Sample.step Sample.partKey "Count" (.primitive .int32)) (some "p"))
      (.literal (.ofKind .int32 "2" (.int32 2)))⟩

/-- The parts of an item. -/
def sampleSource : Expression :=
  .path (Sample.step Sample.itemKey "Parts" (.collection (.complex Sample.partKey))) none

/-- There are three of the first part, and one of the second. -/
def sampleElements : List Value :=
  [.record (Sample.part 2 3), .record (Sample.part 3 1), .record (Sample.part 4 5)]

theorem lambda_answeredBy_parts :
    sampleQuestion.Ranges sampleSource sampleElements ∧
      (∀ r, .record r ∈ sampleElements → sampleQuestion.valueAt r ≠ .ok .null) ∧
      sampleQuestion.answer sampleSource = .ok (.boolean false) ∧
      evaluate sampleQuestion.record [] (.unary .not (.lambda .any sampleSource "p"
        (some (.unary .not sampleQuestion.body)))) = .ok (.boolean false) := by
  have hsource : sampleQuestion.Ranges sampleSource sampleElements := .inl rfl
  have hfirst : sampleQuestion.Passes (.record (Sample.part 2 3)) := .all rfl rfl
  have hsecond : sampleQuestion.Decides (.record (Sample.part 3 1)) := .all rfl rfl (.inl rfl)
  have hnull : ∀ r, .record r ∈ sampleElements → sampleQuestion.valueAt r ≠ .ok .null := by
    intro r hr
    simp only [sampleElements, List.mem_cons, Value.record.injEq, List.not_mem_nil, or_false] at hr
    rcases hr with rfl | rfl | rfl <;> nofun
  obtain ⟨hanswered, -, hnegated⟩ := lambda_answeredBy sampleQuestion hsource
  have hanswer : sampleQuestion.answer sampleSource = .ok (.boolean false) :=
    hanswered.decided.2 ⟨[_], _, [_], rfl, by simpa using hfirst, hsecond⟩
  exact ⟨hsource, hnull, hanswer, (hnegated hnull).eq_boolean hanswer⟩

end EntityQuery.Expression
