import EntityQuery.Guid
import Mathlib.Tactic.Ring

/-!
# Reading identifiers

The digits of an identifier are taken apart into five groups when it is written, and put together
again when it is read.
-/

namespace EntityQuery

namespace Text

theorem hexValue?_hexDigit {n : Nat} (h : n < 16) : hexValue? (hexDigit n) = some n := by
  have hall : ∀ m < 16, hexValue? (hexDigit m) = some m := by decide
  exact hall n h

theorem length_hexDigits (width n : Nat) : (hexDigits width n).length = width := by
  induction width generalizing n with
  | zero => rfl
  | succ width ih => rw [hexDigits, List.length_append, ih, List.length_singleton]

theorem mem_hexDigits {width n : Nat} {c : Char} (h : c ∈ hexDigits width n) :
    ∃ d < 16, c = hexDigit d := by
  induction width generalizing n with
  | zero => cases h
  | succ width ih =>
      rcases List.mem_append.1 h with hfront | hlast
      · exact ih hfront
      · exact ⟨n % 16, Nat.mod_lt _ (by decide), List.mem_singleton.1 hlast⟩

theorem hexRun?_append (high : Nat) (cs ds : List Char) :
    hexRun? high (cs ++ ds) = (hexRun? high cs).bind fun value => hexRun? value ds := by
  induction cs generalizing high with
  | nil => rfl
  | cons c cs ih =>
      rw [List.cons_append, hexRun?, hexRun?, Option.bind_assoc]
      simp only [ih]

theorem hexRun?_hexDigits (width n high : Nat) :
    hexRun? high (hexDigits width n) = some (high * 16 ^ width + n % 16 ^ width) := by
  induction width generalizing n with
  | zero => simp [hexDigits, hexRun?, Nat.mod_one]
  | succ width ih =>
      rw [hexDigits, hexRun?_append, ih, Option.bind_some, hexRun?,
        hexValue?_hexDigit (Nat.mod_lt _ (by decide)), Option.bind_some, hexRun?, Nat.pow_succ,
        Nat.mul_comm (16 ^ width) 16, Nat.mod_mul, Option.some.injEq]
      ring

end Text

namespace Guid

open Text

variable {a b c d e : List Char}

/-- Five groups of digits with hyphens between them. -/
def hyphenated (a b c d e : List Char) : List Char :=
  a ++ '-' :: b ++ '-' :: c ++ '-' :: d ++ '-' :: e

theorem dropHyphens?_hyphenated (ha : a.length = 8) (hb : b.length = 4) (hc : c.length = 4)
    (hd : d.length = 4) :
    dropHyphens? (hyphenated a b c d e) = some (a ++ b ++ c ++ d ++ e) := by
  simp [dropHyphens?, hyphenated, List.getElem?_append, List.drop_append, List.drop_of_length_le,
    ha, hb, hc, hd]

/-- The groups of digits that an identifier is written with. -/
theorem toList_text (g : Guid) : ∃ a b c d e, g.text.toList = hyphenated a b c d e ∧
    a.length = 8 ∧ b.length = 4 ∧ c.length = 4 ∧ d.length = 4 ∧ e.length = 12 ∧
      a ++ b ++ c ++ d ++ e = hexDigits 32 g.value := by
  have hlength : (hexDigits 32 g.value).length = 32 := length_hexDigits 32 g.value
  generalize hds : hexDigits 32 g.value = ds at hlength
  refine ⟨ds.take 8, (ds.drop 8).take 4, (ds.drop 12).take 4, (ds.drop 16).take 4, ds.drop 20, ?_,
    ?_, ?_, ?_, ?_, ?_, ?_⟩
  · rw [text, hds]
    exact String.toList_ofList
  · rw [List.length_take, hlength]
    rfl
  · rw [List.length_take, List.length_drop, hlength]
    rfl
  · rw [List.length_take, List.length_drop, hlength]
    rfl
  · rw [List.length_take, List.length_drop, hlength]
    rfl
  · rw [List.length_drop, hlength]
  · rw [← List.take_add, ← List.take_add, ← List.take_add]
    exact List.take_append_drop 20 ds

theorem length_text (g : Guid) : g.text.toList.length = 36 := by
  obtain ⟨a, b, c, d, e, htext, ha, hb, hc, hd, he, -⟩ := toList_text g
  simp [htext, hyphenated, ha, hb, hc, hd, he]

/-- The characters that identifiers are written with. -/
def alphabet : List Char := "-0123456789abcdef".toList

theorem mem_alphabet (g : Guid) {x : Char} (hx : x ∈ g.text.toList) : x ∈ alphabet := by
  have hall : ∀ n < 16, hexDigit n ∈ alphabet := by decide
  obtain ⟨a, b, c, d, e, htext, -, -, -, -, -, hdigits⟩ := toList_text g
  have hhex : x = '-' ∨ x ∈ hexDigits 32 g.value := by
    rw [htext, hyphenated] at hx
    rw [← hdigits]
    simp only [List.mem_append, List.mem_cons] at hx ⊢
    grind
  rcases hhex with rfl | hhex
  · decide
  · obtain ⟨n, hn, rfl⟩ := mem_hexDigits hhex
    exact hall n hn

/-- An identifier is read back from its text. -/
theorem ofChars?_text (g : Guid) : ofChars? g.text.toList = some g := by
  obtain ⟨a, b, c, d, e, htext, ha, hb, hc, hd, he, hdigits⟩ := toList_text g
  have hlength : (hyphenated a b c d e).length = 36 := by
    simp [hyphenated, ha, hb, hc, hd, he]
  have hvalue : hexRun? 0 (hexDigits 32 g.value) = some g.value := by
    rw [hexRun?_hexDigits, Nat.zero_mul, Nat.zero_add]
    exact congrArg some (Nat.mod_eq_of_lt g.value_lt)
  have hunwrap : unwrap? (hyphenated a b c d e) = some (hyphenated a b c d e) := by
    rw [unwrap?, hlength]
    rfl
  rw [htext, ofChars?, hlength, if_neg (by decide), hunwrap, Option.bind_some,
    dropHyphens?_hyphenated ha hb hc hd, Option.bind_some, hdigits, hvalue, Option.bind_some,
    ofNat?, dif_pos g.value_lt]

end Guid

end EntityQuery
