import EntityQuery.Proofs.Filter.Words
import EntityQuery.Proofs.Filter.Identifiers

/-!
# Texts that are one token

A text that is written the way a scanner reads is taken as a whole.  `Takes a t r` says so of the
scanner `a` and the text `t` in front of `r`, and is put together the way the scanner is.  For the
text to be a token, the rules before the one of the scanner must not apply: most of them look for a
character that is not there.
-/

namespace EntityQuery.Filter

namespace Scan

/-- A scanner takes a text as a whole where another one follows. -/
def Takes (a : Scan) (t r : List Char) : Prop := a (t ++ r) = some t.length

variable {a : Scan} {as bs : List Scan} {p : Char → Bool} {c : Char} {n : Nat}
  {cs t u r w number : List Char}

/-! ## Scanners that accept -/

theorem takes_nil : Takes (inOrder []) [] r := rfl

theorem Takes.cons (ha : Takes a t (u ++ r)) (has : Takes (inOrder as) u r) :
    Takes (inOrder (a :: as)) (t ++ u) r := by
  unfold Takes at ha has ⊢
  rw [List.append_assoc, inOrder, ha, Option.bind_some, List.drop_left, has, Option.map_some,
    List.length_append]

theorem Takes.last (ha : Takes a t r) : Takes (inOrder [a]) t r := by
  have hnil : Takes (inOrder [a]) (t ++ []) r := Takes.cons ha takes_nil
  rwa [List.append_nil] at hnil

theorem takes_word (w : List Char) : Takes (word w) w r := by
  simp [Takes, word]

theorem takes_one (hc : p c = true) : Takes (one p) [c] r := by
  simp [Takes, one, hc]

theorem takes_mark (c : Char) : Takes (mark c) [c] r := takes_one (beq_self_eq_true c)

theorem Takes.mark_cons (has : Takes (inOrder as) u r) :
    Takes (inOrder (mark c :: as)) (c :: u) r := Takes.cons (takes_mark c) has

theorem Takes.optional (h : Takes a t r) : Takes (optional a) t r := by
  unfold Takes at h ⊢
  rw [Scan.optional, h]
  rfl

theorem takes_optional_of_none (h : a r = none) : Takes (optional a) [] r := by
  rw [Takes, List.nil_append, Scan.optional, h]
  rfl

theorem Takes.firstOf (h : Takes a t r) : Takes (firstOf (a :: as)) t r := by
  unfold Takes at h ⊢
  rw [Scan.firstOf, List.findSome?_cons, h]

theorem Takes.firstOf_of_none (hnone : a (t ++ r) = none) (h : Takes (Scan.firstOf as) t r) :
    Takes (Scan.firstOf (a :: as)) t r := by
  unfold Takes at h ⊢
  rw [Scan.firstOf, List.findSome?_cons, hnone]
  exact h

theorem takeWhile_append (ht : ∀ c ∈ t, p c = true) (hr : ∀ d ∈ r.head?, p d = false) :
    (t ++ r).takeWhile p = t := by
  cases r with
  | nil => rw [List.append_nil, takeWhile_eq_self ht]
  | cons d r => rw [takeWhile_append_cons (hr d rfl), takeWhile_eq_self ht]

theorem takes_many (ht : ∀ c ∈ t, p c = true) (hr : ∀ d ∈ r.head?, p d = false) :
    Takes (many p) t r := by
  rw [Takes, many, takeWhile_append ht hr]

theorem takes_some1 (hne : t ≠ []) (ht : ∀ c ∈ t, p c = true) (hr : ∀ d ∈ r.head?, p d = false) :
    Takes (some1 p) t r := by
  have hlength : t.length ≠ 0 := fun h => hne (List.length_eq_zero_iff.1 h)
  simp [Takes, some1, takeWhile_append ht hr, hlength]

theorem takes_exactly (hlength : t.length = n) (ht : ∀ c ∈ t, p c = true) :
    Takes (exactly n p) t r := by
  subst hlength
  have hall : t.all p = true := List.all_eq_true.2 ht
  simp [Takes, exactly, hall]

/-! ## Scanners that refuse -/

theorem one_eq_none (hr : ∀ d ∈ r.head?, p d = false) : one p r = none := by
  cases r with
  | nil => rfl
  | cons d r => simp [one, hr d rfl]

theorem some1_eq_none (hr : ∀ d ∈ r.head?, p d = false) : some1 p r = none := by
  cases r with
  | nil => rfl
  | cons d r => simp [some1, hr d rfl]

theorem exactly_eq_none (hc : c ∈ cs.take n) (hp : p c = false) : exactly n p cs = none := by
  have hall : (cs.take n).all p = false := List.all_eq_false.2 ⟨c, hc, by simp [hp]⟩
  simp [exactly, hall]

theorem word_eq_none_of_not_mem (hc : c ∈ w) (ht : c ∉ t) : word w t = none := by
  have hfalse : w.isPrefixOf t = false := by
    rw [Bool.eq_false_iff]
    exact fun hprefix => ht ((List.isPrefixOf_iff_prefix.1 hprefix).subset hc)
  simp [word, hfalse]

/-- A scanner of a sequence refuses every end of the text. -/
theorem inOrder_eq_none (as : List Scan) (h : ∀ n, a (cs.drop n) = none) :
    inOrder (as ++ a :: bs) cs = none := by
  rw [inOrder_append]
  cases inOrder as cs with
  | none => rfl
  | some n =>
      rw [Option.bind_some, inOrder, h]
      rfl

/-- A character that a sequence of scanners looks for is not there. -/
theorem inOrder_one_eq_none (as : List Scan) (h : ∀ c ∈ cs, p c = false) :
    inOrder (as ++ one p :: bs) cs = none :=
  inOrder_eq_none as fun _ =>
    one_eq_none fun d hd => h d (List.mem_of_mem_drop (List.mem_of_mem_head? hd))

theorem inOrder_mark_eq_none_of_not_mem (as : List Scan) (h : c ∉ cs) :
    inOrder (as ++ mark c :: bs) cs = none :=
  inOrder_one_eq_none as fun d hd => by
    rw [beq_eq_false_iff_ne]
    rintro rfl
    exact h hd

theorem inOrder_markOf_eq_none_of_not_mem (as : List Scan) {ds : List Char}
    (h : ∀ d ∈ ds, d ∉ cs) : inOrder (as ++ markOf ds :: bs) cs = none :=
  inOrder_one_eq_none as fun c hc => by
    rw [Bool.eq_false_iff, ne_eq, List.contains_iff_mem]
    exact fun hmem => h c hmem hc

end Scan

/-! ## Tokens -/

variable {rule : TokenRule} {kind : TokenKind} {t : List Char} {text : String}

theorem TokenRule.length?_eq_none (h : rule.scan t = none) : rule.length? t = none := by
  rw [TokenRule.length?, h]
  rfl

/-- A text that a rule takes as a whole, and that no rule before it applies to. -/
theorem firstToken?_of_takes {i : Nat} (hi : tokenRules[i]? = some rule)
    (hbefore : ∀ other ∈ tokenRules.take i, other.length? t = none)
    (hfollow : rule.follow ≠ .openParen) (hne : t ≠ []) (h : Scan.Takes rule.scan t []) :
    firstToken? t = some (rule.kind, t.length) := by
  have hpos : 0 < t.length := List.length_pos_iff.2 hne
  rw [Scan.Takes, List.append_nil] at h
  refine firstToken?_eq_of_take hi hbefore ?_
  simp [TokenRule.length?, h, Option.filter, hpos, Follow.accepts, hfollow]

/-- A text that is its own first token has no other. -/
theorem tokenize_of_firstToken? (hkind : kind.isLiteral = true)
    (h : firstToken? text.toList = some (kind, text.toList.length)) :
    tokenize text = .ok [⟨kind, text, 0⟩] := by
  have hblank : (kind == .whitespace) = false := by
    rw [beq_eq_false_iff_ne]
    rintro rfl
    cases hkind
  have hparameter : kind ≠ .lambdaParameter := by
    rintro rfl
    cases hkind
  rw [tokenize, tokenizeFrom_of_firstToken? h, List.take_length, List.drop_length, tokenizeFrom,
    tokenText_toList hparameter, hblank]
  rfl

end EntityQuery.Filter
