import EntityQuery.Proofs.Execution.ListProgram
import EntityQuery.Proofs.Result

/-!
# Flows

A flow is what something hands out: items one after another, until it ends or fails.  The stages of
a pipeline are functions on flows.  On the flow of a list they are the usual list functions, with
the first error in place of the result.
-/

namespace EntityQuery

/-! ## Keeping items of a list -/

namespace ListProgram

variable {α β : Type} {test : α → Except QueryError Bool} {a : α} {as kept : List α}

theorem keep_cons_eq_ok (h : keep test (a :: as) = .ok kept) :
    ∃ b others, test a = .ok b ∧ keep test as = .ok others ∧
      kept = if b then a :: others else others := by
  rw [keep] at h
  obtain ⟨b, hb, h⟩ := bind_eq_ok.1 h
  obtain ⟨others, hothers, h⟩ := bind_eq_ok.1 h
  exact ⟨b, others, hb, hothers, (pure_eq_ok.1 h).symm⟩

theorem keep_sublist (h : keep test as = .ok kept) : kept.Sublist as := by
  induction as generalizing kept with
  | nil =>
      obtain rfl := Except.ok.inj h
      exact .slnil
  | cons a as ih =>
      obtain ⟨b, others, -, hothers, rfl⟩ := keep_cons_eq_ok h
      cases b with
      | false => exact (ih hothers).cons a
      | true => exact (ih hothers).cons_cons a

/-- A test that has an answer on every item keeps the items on which the answer is true. -/
theorem keep_eq_filter {f : α → Bool} (hf : ∀ a b, test a = .ok b → b = f a)
    (h : keep test as = .ok kept) : kept = as.filter f := by
  induction as generalizing kept with
  | nil => exact (Except.ok.inj h).symm
  | cons a as ih =>
      obtain ⟨b, others, hb, hothers, rfl⟩ := keep_cons_eq_ok h
      rw [List.filter_cons, ← hf a b hb, ih hothers]

/-- Items that are found somewhere are kept where they are found. -/
theorem keep_map (f : β → α) (bs : List β) :
    keep test (bs.map f) = (keep (fun b => test (f b)) bs).map (List.map f) := by
  induction bs with
  | nil => rfl
  | cons b bs ih =>
      rw [List.map_cons, keep, keep, ih]
      cases test (f b) with
      | error e => rfl
      | ok passes => cases keep (fun b => test (f b)) bs <;> cases passes <;> rfl

end ListProgram

/-! ## Flows -/

/-- Items, and then the end or an error. -/
inductive Flow (α : Type)
  | done
  | fail (error : QueryError)
  | item (a : α) (rest : Flow α)

namespace Flow

open ListProgram

variable {α β : Type}

/-- The items of a flow that does not fail. -/
def collect : Flow α → Except QueryError (List α)
  | done => .ok []
  | fail e => .error e
  | item a rest => rest.collect.map (a :: ·)

/-- The flow of a list. -/
def ofList : List α → Flow α
  | [] => done
  | a :: as => item a (ofList as)

/-- Keeps the items that pass a test, up to the first one on which the test fails. -/
def filter (test : α → Except QueryError Bool) : Flow α → Flow α
  | done => done
  | fail e => fail e
  | item a rest =>
    match test a with
    | .ok true => item a (rest.filter test)
    | .ok false => rest.filter test
    | .error e => fail e

/-- Leaves out items at the front, and ends behind so many items. -/
def limit (skip : Nat) (top : Option Nat) : Flow α → Flow α
  | done => done
  | fail e => if top = some 0 then done else fail e
  | item a rest =>
    if top = some 0 then done
    else
      match skip with
      | skip + 1 => rest.limit skip top
      | 0 => item a (rest.limit 0 (top.map (· - 1)))

/-- Changes items one by one, up to the first one that cannot be changed. -/
def project (f : α → Except QueryError β) : Flow α → Flow β
  | done => done
  | fail e => fail e
  | item a rest =>
    match f a with
    | .ok b => item b (rest.project f)
    | .error e => fail e

/-! ## Flows of lists -/

theorem collect_ofList (as : List α) : (ofList as).collect = .ok as := by
  induction as with
  | nil => rfl
  | cons a as ih =>
      rw [ofList, collect, ih]
      rfl

/-- Filtering a list stops at the first item that cannot be tested. -/
theorem collect_filter_ofList (test : α → Except QueryError Bool) (as : List α) :
    ((ofList as).filter test).collect = keep test as := by
  induction as with
  | nil => rfl
  | cons a as ih =>
      rw [keep, ← ih, ofList, filter]
      cases test a with
      | error e => rfl
      | ok passes =>
          cases passes <;> cases hcollect : ((ofList as).filter test).collect <;>
            simp [collect, hcollect, Except.map, pure, Except.pure]

theorem limit_zero (flow : Flow α) (skip : Nat) : flow.limit skip (some 0) = done := by
  cases flow <;> simp [limit]

/-- Limiting a list cuts a page out of it. -/
theorem limit_ofList (skip : Nat) (top : Option Nat) (as : List α) :
    (ofList as).limit skip top = ofList (page skip top as) := by
  induction as generalizing skip top with
  | nil => cases top <;> simp [ofList, limit, page]
  | cons a as ih =>
      by_cases htop : top = some 0
      · subst htop
        rw [limit_zero]
        simp [page, ofList]
      · cases skip with
        | succ skip =>
            rw [ofList, limit, if_neg htop, ih]
            cases top <;> rfl
        | zero =>
            rw [ofList, limit, if_neg htop, ih]
            cases top with
            | none => rfl
            | some top =>
                obtain ⟨n, rfl⟩ : ∃ n, top = n + 1 := ⟨top - 1, by simp at htop; omega⟩
                rfl

/-- Projecting a list stops at the first item that cannot be projected. -/
theorem collect_project_ofList (f : α → Except QueryError β) (as : List α) :
    ((ofList as).project f).collect = as.mapM f := by
  induction as with
  | nil => rfl
  | cons a as ih =>
      rw [List.mapM_cons, ← ih, ofList, project]
      cases f a with
      | error e => rfl
      | ok b =>
          cases hcollect : ((ofList as).project f).collect <;>
            simp [collect, hcollect, Except.map, pure, Except.pure]

end Flow

end EntityQuery
