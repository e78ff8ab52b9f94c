import EntityQuery.Filter.Lexer

/-!
# Where a scanner stops

A scanner that is put together from classes of characters cannot tell a character outside of all its
classes from the end of the text.  `Avoids ds a` says that the scanner `a` is built without the
characters `ds`, and `Avoids.stopsAt` draws the conclusion: whatever follows a first one of them has
no influence on what `a` takes.

Quoted literals do contain every character between their quotation marks, so the argument does not
apply to them.  What they take is settled by their closing mark instead: `Closed a` says that a text
which `a` takes as a whole is taken as a whole in front of any other text as well.
-/

namespace EntityQuery.Filter.Scan

/-- A scanner takes no more than there is. -/
def Bounded (a : Scan) : Prop :=
  ∀ ⦃cs : List Char⦄ ⦃n : Nat⦄, a cs = some n → n ≤ cs.length

/-- A character looks to a scanner like the end of the text. -/
def StopsAt (d : Char) (a : Scan) : Prop :=
  ∀ cs rest : List Char, a (cs ++ d :: rest) = a cs

/-- Scanners that are built without given characters. -/
inductive Avoids (ds : List Char) : Scan → Prop
  | word {w : List Char} (h : ∀ d ∈ ds, d ∉ w) : Avoids ds (word w)
  | one {p : Char → Bool} (h : ∀ d ∈ ds, p d = false) : Avoids ds (one p)
  | many {p : Char → Bool} (h : ∀ d ∈ ds, p d = false) : Avoids ds (many p)
  | some1 {p : Char → Bool} (h : ∀ d ∈ ds, p d = false) : Avoids ds (some1 p)
  | exactly {n : Nat} {p : Char → Bool} (h : ∀ d ∈ ds, p d = false) : Avoids ds (exactly n p)
  | optional {a : Scan} (h : Avoids ds a) : Avoids ds (optional a)
  | star {a : Scan} (h : Avoids ds a) : Avoids ds (star a)
  | nil : Avoids ds (inOrder [])
  | cons {a : Scan} {as : List Scan} (ha : Avoids ds a) (has : Avoids ds (inOrder as)) :
      Avoids ds (inOrder (a :: as))
  | noChoice : Avoids ds (firstOf [])
  | choice {a : Scan} {as : List Scan} (ha : Avoids ds a) (has : Avoids ds (firstOf as)) :
      Avoids ds (firstOf (a :: as))

/-- A property of the characters of a list is decided along the list, not over all characters. -/
instance (priority := high) decidableForallMem (ds : List Char) (p : Char → Prop)
    [DecidablePred p] : Decidable (∀ d ∈ ds, p d) :=
  List.decidableBAll p ds

variable {ds : List Char} {d : Char} {a : Scan} {as bs : List Scan} {p : Char → Bool}
  {cs rest : List Char}

theorem Avoids.firstOf (h : ∀ a ∈ as, Avoids ds a) : Avoids ds (firstOf as) := by
  induction as with
  | nil => exact .noChoice
  | cons a as ih => exact .choice (h a (by simp)) (ih fun b hb => h b (by simp [hb]))

theorem Avoids.mono {es : List Char} (h : Avoids ds a) (hsub : ∀ d ∈ es, d ∈ ds) :
    Avoids es a := by
  induction h with
  | word h => exact .word fun d hd => h d (hsub d hd)
  | one h => exact .one fun d hd => h d (hsub d hd)
  | many h => exact .many fun d hd => h d (hsub d hd)
  | some1 h => exact .some1 fun d hd => h d (hsub d hd)
  | exactly h => exact .exactly fun d hd => h d (hsub d hd)
  | optional _ ih => exact .optional ih
  | star _ ih => exact .star ih
  | nil => exact .nil
  | cons _ _ iha ihas => exact .cons iha ihas
  | noChoice => exact .noChoice
  | choice _ _ iha ihas => exact .choice iha ihas

/-! ## No scanner takes more than there is -/

theorem length_takeWhile_le (p : Char → Bool) (cs : List Char) :
    (cs.takeWhile p).length ≤ cs.length :=
  (List.takeWhile_sublist p).length_le

theorem bounded_word (w : List Char) : Bounded (word w) := by
  intro cs n hn
  unfold word at hn
  split at hn
  · rename_i hprefix
    obtain rfl := Option.some.inj hn
    exact (List.isPrefixOf_iff_prefix.1 hprefix).length_le
  · cases hn

theorem bounded_one (p : Char → Bool) : Bounded (one p) := by
  intro cs n hn
  cases cs with
  | nil => cases hn
  | cons c rest =>
      rw [one] at hn
      split at hn
      · obtain rfl := Option.some.inj hn
        simp
      · cases hn

theorem bounded_many (p : Char → Bool) : Bounded (many p) := by
  intro cs n hn
  obtain rfl := Option.some.inj hn
  exact length_takeWhile_le p cs

theorem bounded_some1 (p : Char → Bool) : Bounded (some1 p) := by
  intro cs n hn
  unfold some1 at hn
  dsimp only at hn
  split at hn
  · cases hn
  · obtain rfl := Option.some.inj hn
    exact length_takeWhile_le p cs

theorem bounded_exactly (count : Nat) (p : Char → Bool) : Bounded (exactly count p) := by
  intro cs n hn
  unfold exactly at hn
  split at hn
  · rename_i htake
    obtain rfl := Option.some.inj hn
    simp only [Bool.and_eq_true, beq_iff_eq, List.length_take] at htake
    omega
  · cases hn

theorem bounded_optional (h : Bounded a) : Bounded (optional a) := by
  intro cs n hn
  obtain rfl := Option.some.inj hn
  cases hinner : a cs with
  | none => exact Nat.zero_le _
  | some m => exact h hinner

theorem bounded_nil : Bounded (inOrder []) := by
  intro cs n hn
  obtain rfl := Option.some.inj hn
  exact Nat.zero_le _

theorem bounded_cons (ha : Bounded a) (has : Bounded (inOrder as)) :
    Bounded (inOrder (a :: as)) := by
  intro cs n hn
  rw [inOrder, Option.bind_eq_some_iff] at hn
  obtain ⟨first, hfirst, hn⟩ := hn
  obtain ⟨later, hlater, rfl⟩ := Option.map_eq_some_iff.1 hn
  have h₁ : first ≤ cs.length := ha hfirst
  have h₂ : later ≤ (cs.drop first).length := has hlater
  rw [List.length_drop] at h₂
  omega

theorem bounded_times (h : Bounded a) (limit : Nat) : Bounded (times a limit) := by
  induction limit with
  | zero =>
      intro cs n hn
      obtain rfl : 0 = n := by simpa [times] using hn
      exact Nat.zero_le _
  | succ limit ih =>
      intro cs n hn
      rw [times] at hn
      split at hn
      · rename_i first hfirst
        obtain ⟨later, hlater, rfl⟩ := Option.map_eq_some_iff.1 hn
        have h₁ : first + 1 ≤ cs.length := h hfirst
        have h₂ : later ≤ (cs.drop (first + 1)).length := ih hlater
        rw [List.length_drop] at h₂
        omega
      · obtain rfl : 0 = n := by simpa using hn
        exact Nat.zero_le _

/-- The first scanner that takes anything decides. -/
theorem bounded_choice (ha : Bounded a) (has : Bounded (firstOf as)) :
    Bounded (firstOf (a :: as)) := by
  intro cs n hn
  simp only [firstOf, List.findSome?_cons] at hn
  cases hfirst : a cs with
  | none =>
      rw [hfirst] at hn
      exact has hn
  | some m =>
      rw [hfirst] at hn
      obtain rfl := Option.some.inj hn
      exact ha hfirst

theorem Avoids.bounded (h : Avoids ds a) : Bounded a := by
  induction h with
  | word => exact bounded_word _
  | one => exact bounded_one _
  | many => exact bounded_many _
  | some1 => exact bounded_some1 _
  | exactly => exact bounded_exactly _ _
  | optional _ ih => exact bounded_optional ih
  | star _ ih => exact fun cs n hn => bounded_times ih _ hn
  | nil => exact bounded_nil
  | cons _ _ iha ihas => exact bounded_cons iha ihas
  | noChoice => exact fun cs n hn => by cases hn
  | choice _ _ iha ihas => exact bounded_choice iha ihas

/-! ## A foreign character ends the text -/

theorem isPrefixOf_append_cons {w : List Char} (h : d ∉ w) :
    w.isPrefixOf (cs ++ d :: rest) = w.isPrefixOf cs := by
  induction w generalizing cs with
  | nil => simp
  | cons c w ih =>
      have hne : c ≠ d := fun heq => h (by simp [heq])
      cases cs with
      | nil => simp [List.isPrefixOf, hne]
      | cons b cs => simp [List.isPrefixOf, ih (fun hmem => h (by simp [hmem]))]

theorem takeWhile_eq_self (h : ∀ c ∈ cs, p c = true) : cs.takeWhile p = cs := by
  induction cs with
  | nil => rfl
  | cons c cs ih =>
      obtain ⟨hc, hcs⟩ := List.forall_mem_cons.1 h
      rw [List.takeWhile_cons_of_pos hc, ih hcs]

theorem takeWhile_append_cons (h : p d = false) :
    (cs ++ d :: rest).takeWhile p = cs.takeWhile p := by
  induction cs with
  | nil => simp [h]
  | cons c cs ih => simp [List.takeWhile_cons, ih]

theorem stopsAt_exactly (h : p d = false) (n : Nat) : StopsAt d (exactly n p) := by
  intro cs rest
  unfold exactly
  rcases Nat.lt_or_ge cs.length n with hshort | hlong
  · -- Too short a text would have to be filled up with the foreign character.
    have hmem : d ∈ (cs ++ d :: rest).take n := by
      rw [List.take_append, List.take_of_length_le (Nat.le_of_lt hshort)]
      obtain ⟨k, hk⟩ := Nat.exists_eq_succ_of_ne_zero (Nat.sub_ne_zero_of_lt hshort)
      rw [hk]
      simp
    have hall : ((cs ++ d :: rest).take n).all p = false := by
      rw [List.all_eq_false]
      exact ⟨d, hmem, by simp [h]⟩
    have hlength : ((cs.take n).length == n) = false := by
      rw [List.length_take, beq_eq_false_iff_ne]
      omega
    rw [hall, hlength, Bool.and_false, Bool.false_and]
  · rw [List.take_append_of_le_length hlong]

theorem stopsAt_cons (hbounded : Bounded a) (ha : StopsAt d a) (has : StopsAt d (inOrder as)) :
    StopsAt d (inOrder (a :: as)) := by
  intro cs rest
  rw [inOrder, inOrder, ha]
  cases hfirst : a cs with
  | none => rfl
  | some n =>
      simp only [Option.bind_some]
      rw [List.drop_append_of_le_length (hbounded hfirst), has]

/-- Once the limit covers the text, it plays no part in what is taken. -/
theorem times_append_cons (hbounded : Bounded a) (hstops : StopsAt d a) :
    ∀ (limit larger : Nat) (cs : List Char), cs.length ≤ limit →
      (cs ++ d :: rest).length ≤ larger →
        times a larger (cs ++ d :: rest) = times a limit cs := by
  intro limit
  induction limit with
  | zero =>
      intro larger cs hlimit hlarger
      obtain rfl := List.length_eq_zero_iff.1 (Nat.le_zero.1 hlimit)
      obtain ⟨k, rfl⟩ : ∃ k, larger = k + 1 := ⟨larger - 1, by simp at hlarger; omega⟩
      -- The text is at its end, and nothing is taken off what follows it.
      have hnothing : ∀ n, a ([] ++ d :: rest) ≠ some (n + 1) := by
        intro n hn
        rw [hstops] at hn
        exact absurd (hbounded hn) (by simp)
      rw [times, times]
      split
      · rename_i n hn
        exact absurd hn (hnothing n)
      · rfl
  | succ limit ih =>
      intro larger cs hlimit hlarger
      obtain ⟨k, rfl⟩ : ∃ k, larger = k + 1 := ⟨larger - 1, by simp at hlarger; omega⟩
      rw [times, times, hstops]
      split
      · rename_i n hn
        have hn := hbounded hn
        -- What is taken off lies in front of the foreign character, which still ends the rest.
        rw [List.drop_append_of_le_length hn, ih k (cs.drop (n + 1))]
        · rw [List.length_drop]
          omega
        · simp only [List.length_append, List.length_drop, List.length_cons] at hlarger ⊢
          omega
      · rfl

theorem Avoids.stopsAt (h : Avoids ds a) (hd : d ∈ ds) : StopsAt d a := by
  induction h with
  | word h =>
      intro cs rest
      simp only [Scan.word, isPrefixOf_append_cons (h d hd)]
  | one h =>
      intro cs rest
      cases cs with
      | nil => simp [Scan.one, h d hd]
      | cons c cs => rfl
  | many h =>
      intro cs rest
      simp only [Scan.many, takeWhile_append_cons (h d hd)]
  | some1 h =>
      intro cs rest
      simp only [Scan.some1, takeWhile_append_cons (h d hd)]
  | exactly h => exact stopsAt_exactly (h d hd) _
  | optional h ih =>
      intro cs rest
      simp only [Scan.optional, ih cs rest]
  | star h ih =>
      intro cs rest
      exact times_append_cons h.bounded ih _ _ cs (Nat.le_refl _) (Nat.le_refl _)
  | nil =>
      intro cs rest
      rfl
  | cons ha _ iha ihas => exact stopsAt_cons ha.bounded iha ihas
  | noChoice =>
      intro cs rest
      rfl
  | choice _ _ iha ihas =>
      intro cs rest
      have has := ihas cs rest
      simp only [Scan.firstOf] at has
      simp only [Scan.firstOf, List.findSome?_cons, iha cs rest, has]

/-! ## A closing mark settles what is taken -/

/-- What a scanner takes off one text it takes in front of any other. -/
structure Closed (a : Scan) : Prop where
  bounded : Bounded a
  whole : ∀ ⦃t rest : List Char⦄, a (t ++ rest) = some t.length →
    ∀ other, a (t ++ other) = some t.length

theorem inOrder_append (cs : List Char) :
    inOrder (as ++ bs) cs =
      (inOrder as cs).bind fun n => (inOrder bs (cs.drop n)).map (n + ·) := by
  induction as generalizing cs with
  | nil => simp [inOrder]
  | cons a as ih =>
      rw [List.cons_append, inOrder, inOrder]
      cases a cs with
      | none => rfl
      | some n =>
          simp only [Option.bind_some, ih]
          cases inOrder as (cs.drop n) with
          | none => rfl
          | some m =>
              simp only [Option.bind_some, Option.map_some, List.drop_drop, Option.map_map]
              congr 1
              funext k
              exact (Nat.add_assoc n m k).symm

theorem bounded_inOrder_append (has : Bounded (inOrder as)) (hbs : Bounded (inOrder bs)) :
    Bounded (inOrder (as ++ bs)) := by
  intro cs n h
  rw [inOrder_append, Option.bind_eq_some_iff] at h
  obtain ⟨first, hfirst, h⟩ := h
  obtain ⟨later, hlater, rfl⟩ := Option.map_eq_some_iff.1 h
  have h₁ : first ≤ cs.length := has hfirst
  have h₂ : later ≤ (cs.drop first).length := hbs hlater
  rw [List.length_drop] at h₂
  omega

theorem closed_inOrder_append (has : Closed (inOrder as)) (hbs : Closed (inOrder bs)) :
    Closed (inOrder (as ++ bs)) := by
  refine ⟨bounded_inOrder_append has.bounded hbs.bounded, fun t rest h other => ?_⟩
  rw [inOrder_append, Option.bind_eq_some_iff] at h
  obtain ⟨n, hn, h⟩ := h
  obtain ⟨m, hm, hsum⟩ := Option.map_eq_some_iff.1 h
  -- The text falls into what the first scanners take and what the others take.
  obtain ⟨u, v, rfl, rfl⟩ : ∃ u v, t = u ++ v ∧ n = u.length :=
    ⟨t.take n, t.drop n, by simp, by rw [List.length_take]; omega⟩
  obtain rfl : m = v.length := by
    rw [List.length_append] at hsum
    omega
  rw [List.append_assoc] at hn hm ⊢
  rw [List.drop_left] at hm
  rw [inOrder_append, has.whole hn, Option.bind_some, List.drop_left, hbs.whole hm]
  simp

theorem closed_word (w : List Char) : Closed (word w) := by
  have hbuilt : Avoids [] (word w) := .word (by simp)
  refine ⟨hbuilt.bounded, fun t rest h other => ?_⟩
  unfold word at h ⊢
  split at h
  · rename_i hprefix
    have hlength : w.length = t.length := Option.some.inj h
    have heq : w = t := by
      obtain ⟨tail, htail⟩ := List.isPrefixOf_iff_prefix.1 hprefix
      exact (List.append_inj htail hlength).1
    subst heq
    simp
  · cases h

theorem inOrder_single (a : Scan) : inOrder [a] = a := by
  funext cs
  cases hcs : a cs <;> simp [inOrder, hcs]

theorem closed_inOrder_word (w : List Char) : Closed (inOrder [word w]) := by
  rw [inOrder_single]
  exact closed_word w

theorem inOrder_mark_eq_some (as : List Scan) {bs : List Scan} {n : Nat}
    (h : inOrder (as ++ mark d :: bs) cs = some n) :
    ∃ u v k, cs = u ++ d :: v ∧ inOrder as cs = some u.length ∧ inOrder bs v = some k ∧
      n = u.length + 1 + k := by
  rw [inOrder_append, Option.bind_eq_some_iff] at h
  obtain ⟨m, hm, h⟩ := h
  obtain ⟨l, hl, rfl⟩ := Option.map_eq_some_iff.1 h
  rw [inOrder, Option.bind_eq_some_iff] at hl
  obtain ⟨taken, hone, hl⟩ := hl
  obtain ⟨k, hk, rfl⟩ := Option.map_eq_some_iff.1 hl
  cases hdrop : cs.drop m with
  | nil =>
      rw [hdrop] at hone
      cases hone
  | cons c v =>
      rw [hdrop, mark, Scan.one] at hone
      split at hone
      · rename_i hc
        obtain rfl : c = d := by simpa using hc
        obtain rfl := Option.some.inj hone
        have hlength : (cs.take m).length = m := by
          have hshort := congrArg List.length hdrop
          simp only [List.length_drop, List.length_cons] at hshort
          rw [List.length_take]
          omega
        refine ⟨cs.take m, v, k, ?_, ?_, ?_, ?_⟩
        · rw [← hdrop, List.take_append_drop]
        · rw [hlength]
          exact hm
        · simpa [hdrop] using hk
        · omega
      · cases hone

/-- A mark that the scanners before it cannot take closes what they take. -/
theorem closed_inOrder_mark (h : Avoids ds (inOrder as)) (hd : d ∈ ds) :
    Closed (inOrder (as ++ [mark d])) := by
  have hmark : Avoids [] (inOrder [mark d]) := .cons (.one (by simp)) .nil
  refine ⟨bounded_inOrder_append h.bounded hmark.bounded, fun t rest ht other => ?_⟩
  obtain ⟨u, v, k, hsplit, hu, hk, hlength⟩ := inOrder_mark_eq_some as ht
  obtain rfl : 0 = k := Option.some.inj hk
  obtain ⟨rfl, -⟩ : t = u ++ [d] ∧ rest = v := by
    refine List.append_inj ?_ ?_
    · rw [hsplit, List.append_assoc, List.singleton_append]
    · rw [hlength, List.length_append, List.length_singleton]
  have hstops : StopsAt d (inOrder as) := h.stopsAt hd
  rw [List.append_assoc, List.singleton_append, hstops] at hu
  rw [inOrder_append, List.append_assoc, List.singleton_append, hstops, hu, Option.bind_some,
    List.drop_left]
  simp [inOrder, mark, one]

end EntityQuery.Filter.Scan
