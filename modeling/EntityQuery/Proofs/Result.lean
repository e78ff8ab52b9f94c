/-!
# Steps that succeed

Readers, checks and evaluations are written in steps, any of which may fail.  These lemmas take a
success apart into the successes of the steps.  In the other direction, a failure of the whole is
one of a step: what no step fails with, the whole does not fail with (`FailsWithout`).
-/

namespace EntityQuery

variable {ε α β γ : Type}

@[simp]
theorem ok_bind (a : α) (f : α → Except ε β) : (Except.ok a >>= f) = f a := rfl

@[simp]
theorem error_bind (e : ε) (f : α → Except ε β) : (Except.error e >>= f) = .error e := rfl

theorem bind_eq_ok {x : Except ε α} {f : α → Except ε β} {b : β} :
    (x >>= f) = .ok b ↔ ∃ a, x = .ok a ∧ f a = .ok b := by
  cases x with
  | error e => simp [bind, Except.bind]
  | ok a => simp [bind, Except.bind]

/-- What comes after a step matters only for what the step gives. -/
theorem bind_congr_ok {x : Except ε α} {f g : α → Except ε β} (h : ∀ a, x = .ok a → f a = g a) :
    (x >>= f) = (x >>= g) := by
  cases x with
  | error e => rfl
  | ok a => exact h a rfl

theorem map_eq_ok {x : Except ε α} {f : α → β} {b : β} :
    x.map f = .ok b ↔ ∃ a, x = .ok a ∧ f a = b := by
  cases x <;> simp [Except.map]

theorem mapError_eq_ok {δ : Type} {x : Except ε α} {f : ε → δ} {a : α} :
    x.mapError f = .ok a ↔ x = .ok a := by
  cases x with
  | error e => constructor <;> (intro h; cases h)
  | ok b => constructor <;> (intro h; cases h; rfl)

@[simp]
theorem pure_eq_ok {a b : α} : (pure a : Except ε α) = .ok b ↔ a = b := by
  simp [pure, Except.pure]

@[simp]
theorem throw_ne_ok {e : ε} {a : α} : (throw e : Except ε α) ≠ .ok a := by
  simp [throw, throwThe, MonadExceptOf.throw]

theorem exists_bind_pure_eq_ok {x : Except ε α} {f : α → β} :
    (∃ b, (do return f (← x)) = Except.ok b) ↔ ∃ a, x = .ok a := by
  cases x <;> simp [bind, Except.bind, pure, Except.pure]

/-- Two steps that do not know of each other succeed if both of them do. -/
theorem exists_bind_bind_pure_eq_ok {x : Except ε α} {y : Except ε β} {f : α → β → γ} :
    (∃ c, (do let a ← x; return f a (← y)) = Except.ok c) ↔
      (∃ a, x = .ok a) ∧ ∃ b, y = .ok b := by
  cases x <;> cases y <;> simp [bind, Except.bind, pure, Except.pure]

/-- A step that is only taken unless something is wrong. -/
theorem guard_eq_ok {c : Prop} [Decidable c] {e : ε} {f : γ → Except ε β} {x : Except ε β} {b : β} :
    (if c then (throw e : Except ε γ) >>= f else x) = .ok b ↔ ¬c ∧ x = .ok b := by
  split
  · rename_i hc
    simp [hc, throw, throwThe, MonadExceptOf.throw, bind, Except.bind]
  · rename_i hc
    simp [hc]

theorem mapM_cons_eq_ok {f : α → Except ε β} {a : α} {as : List α} {bs : List β} :
    (a :: as).mapM f = .ok bs ↔ ∃ b rest, f a = .ok b ∧ as.mapM f = .ok rest ∧ bs = b :: rest := by
  simp only [List.mapM_cons, bind_eq_ok, pure_eq_ok]
  constructor
  · rintro ⟨b, hb, rest, hrest, rfl⟩
    exact ⟨b, rest, hb, hrest, rfl⟩
  · rintro ⟨b, rest, hb, hrest, rfl⟩
    exact ⟨b, hb, rest, hrest, rfl⟩

/-- The outcome of a step within a list of steps, between those of the others. -/
theorem exists_of_mapM_append_cons {f : α → Except ε β} {front back : List α} {a : α}
    {bs : List β} (h : (front ++ a :: back).mapM f = .ok bs) :
    ∃ before b after, front.mapM f = .ok before ∧ f a = .ok b ∧ back.mapM f = .ok after ∧
      bs = before ++ b :: after := by
  induction front generalizing bs with
  | nil =>
      obtain ⟨b, after, hb, hafter, rfl⟩ := mapM_cons_eq_ok.1 h
      exact ⟨[], b, after, rfl, hb, hafter, rfl⟩
  | cons first front ih =>
      obtain ⟨c, rest, hc, hrest, rfl⟩ := mapM_cons_eq_ok.1 h
      obtain ⟨before, b, after, hbefore, hb, hafter, rfl⟩ := ih hrest
      exact ⟨c :: before, b, after, mapM_cons_eq_ok.2 ⟨c, before, hc, hbefore, rfl⟩, hb, hafter,
        rfl⟩

/-- What each step keeps, a list of steps keeps. -/
theorem map_eq_of_mapM {f : α → Except ε β} {g : α → γ} {h : β → γ} {as : List α} {bs : List β}
    (hkeep : ∀ a b, f a = .ok b → h b = g a) (hsteps : as.mapM f = .ok bs) :
    bs.map h = as.map g := by
  induction as generalizing bs with
  | nil =>
      obtain rfl := pure_eq_ok.1 hsteps
      rfl
  | cons a as ih =>
      obtain ⟨b, rest, hb, hrest, rfl⟩ := mapM_cons_eq_ok.1 hsteps
      rw [List.map_cons, List.map_cons, hkeep a b hb, ih hrest]

/-- Steps that do the same unless something is wrong with an item. -/
theorem mapM_eq_ok_iff {f : α → Except ε β} {g : α → β} {P : α → Prop}
    (h : ∀ a b, f a = .ok b ↔ P a ∧ b = g a) {as : List α} {bs : List β} :
    as.mapM f = .ok bs ↔ (∀ a ∈ as, P a) ∧ bs = as.map g := by
  induction as generalizing bs with
  | nil =>
      rw [List.mapM_nil, pure_eq_ok]
      simp [eq_comm]
  | cons a as ih =>
      rw [mapM_cons_eq_ok, List.forall_mem_cons]
      constructor
      · rintro ⟨b, rest, hb, hrest, rfl⟩
        obtain ⟨hhere, rfl⟩ := (h a b).1 hb
        obtain ⟨hothers, rfl⟩ := ih.1 hrest
        exact ⟨⟨hhere, hothers⟩, rfl⟩
      · rintro ⟨⟨hhere, hothers⟩, rfl⟩
        exact ⟨_, _, (h a _).2 ⟨hhere, rfl⟩, ih.2 ⟨hothers, rfl⟩, rfl⟩

theorem length_of_mapM_eq_ok {f : α → Except ε β} {as : List α} {bs : List β}
    (h : as.mapM f = .ok bs) : bs.length = as.length := by
  simpa using congrArg List.length
    (map_eq_of_mapM (g := fun _ => ()) (h := fun _ => ()) (fun _ _ _ => rfl) h)

/-- What is in the outcome of a list of steps is the outcome of one of them. -/
theorem exists_of_mem_mapM {f : α → Except ε β} {as : List α} {bs : List β} {b : β}
    (h : as.mapM f = .ok bs) (hb : b ∈ bs) : ∃ a ∈ as, f a = .ok b := by
  induction as generalizing bs with
  | nil =>
      obtain rfl := pure_eq_ok.1 h
      cases hb
  | cons a as ih =>
      obtain ⟨first, others, hfirst, hothers, rfl⟩ := mapM_cons_eq_ok.1 h
      rcases List.mem_cons.1 hb with rfl | hb
      · exact ⟨a, List.mem_cons_self, hfirst⟩
      · obtain ⟨c, hc, hfc⟩ := ih hothers hb
        exact ⟨c, List.mem_cons_of_mem _ hc, hfc⟩

/-- If all steps of a list succeed, so does each of them. -/
theorem exists_mem_of_mapM {f : α → Except ε β} {as : List α} {bs : List β} {a : α}
    (h : as.mapM f = .ok bs) (ha : a ∈ as) : ∃ b ∈ bs, f a = .ok b := by
  obtain ⟨front, back, rfl⟩ := List.append_of_mem ha
  obtain ⟨before, b, after, -, hb, -, rfl⟩ := exists_of_mapM_append_cons h
  exact ⟨b, List.mem_append_right _ List.mem_cons_self, hb⟩

/-- Steps that do not know of each other can be taken in any order. -/
theorem mapM_perm {f : α → Except ε β} {as others : List α} (hperm : as.Perm others)
    {bs : List β} (h : as.mapM f = .ok bs) :
    ∃ results, others.mapM f = .ok results ∧ bs.Perm results := by
  induction hperm generalizing bs with
  | nil => exact ⟨bs, h, .refl _⟩
  | cons a _ ih =>
      obtain ⟨b, rest, hb, hrest, rfl⟩ := mapM_cons_eq_ok.1 h
      obtain ⟨results, hresults, hrest⟩ := ih hrest
      exact ⟨b :: results, mapM_cons_eq_ok.2 ⟨b, results, hb, hresults, rfl⟩, hrest.cons b⟩
  | swap a a' as =>
      obtain ⟨b', more, hb', hmore, rfl⟩ := mapM_cons_eq_ok.1 h
      obtain ⟨b, rest, hb, hrest, rfl⟩ := mapM_cons_eq_ok.1 hmore
      refine ⟨b :: b' :: rest, mapM_cons_eq_ok.2 ⟨b, b' :: rest, hb, ?_, rfl⟩, .swap b b' rest⟩
      exact mapM_cons_eq_ok.2 ⟨b', rest, hb', hrest, rfl⟩
  | trans _ _ ih ih' =>
      obtain ⟨results, hresults, hfirst⟩ := ih h
      obtain ⟨last, hlast, hsecond⟩ := ih' hresults
      exact ⟨last, hlast, hfirst.trans hsecond⟩

theorem mapM_congr {f g : α → Except ε β} {as : List α} (h : ∀ a ∈ as, f a = g a) :
    as.mapM f = as.mapM g := by
  induction as with
  | nil => rfl
  | cons a as ih =>
      obtain ⟨ha, has⟩ := List.forall_mem_cons.1 h
      rw [List.mapM_cons, List.mapM_cons, ha, ih has]

/-! ## Failures that do not occur -/

/-- If a step fails, then with an error of another sort. -/
def FailsWithout (sort : ε → Bool) (x : Except ε α) : Prop := ∀ e, x = .error e → sort e = false

namespace FailsWithout

variable {sort : ε → Bool} {x : Except ε α} {e : ε}

theorem ok (a : α) : FailsWithout sort (.ok a) := fun _ h => nomatch h

theorem error (h : sort e = false) : FailsWithout sort (.error e : Except ε α) := by
  rintro _ ⟨⟩
  exact h

theorem bind {f : α → Except ε β} (hx : FailsWithout sort x)
    (hf : ∀ a, x = .ok a → FailsWithout sort (f a)) : FailsWithout sort (x >>= f) := by
  cases x with
  | error e => exact error (hx e rfl)
  | ok a => exact hf a rfl

theorem map (f : α → β) (hx : FailsWithout sort x) : FailsWithout sort (x.map f) := by
  cases x with
  | error e => exact error (hx e rfl)
  | ok a => exact ok (f a)

theorem guard {c : Prop} [Decidable c] {f : γ → Except ε α} (he : sort e = false)
    (hx : ¬c → FailsWithout sort x) :
    FailsWithout sort (if c then (throw e : Except ε γ) >>= f else x) := by
  split
  · exact error he
  · exact hx ‹_›

end FailsWithout

end EntityQuery
