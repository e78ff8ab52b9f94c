import EntityQuery.Text.Base64
import Mathlib.Tactic.Common

/-!
# Reading base 64

What bytes are written as is read back.  Padding is not mistaken for a group of four characters,
since no character of six bits is an equality sign.
-/

namespace EntityQuery.Text

variable {n : Nat} {a b c d : Char} {rest : List Char}

theorem base64Value?_base64Char (h : n < 64) : base64Value? (base64Char n) = some n := by
  have hall : ∀ m < 64, base64Value? (base64Char m) = some m := by decide
  exact hall n h

theorem base64Char_ne (h : n < 64) : base64Char n ≠ '=' := by
  have hall : ∀ m < 64, base64Char m ≠ '=' := by decide
  exact hall n h

theorem base64Decode?_group (hd : d ≠ '=') :
    base64Decode? (a :: b :: c :: d :: rest) = (do
      let n := (← base64Value? a) * 262144 + (← base64Value? b) * 4096 + (← base64Value? c) * 64 +
        (← base64Value? d)
      let bytes ← base64Decode? rest
      some (UInt8.ofNat (n / 65536) :: UInt8.ofNat (n / 256 % 256) :: UInt8.ofNat (n % 256) ::
        bytes)) := by
  rw [base64Decode?]
  · exact fun _ heq _ => hd heq
  · exact fun heq _ => hd heq

theorem base64Decode?_short (hc : c ≠ '=') :
    base64Decode? [a, b, c, '='] = (do
      let n := (← base64Value? a) * 4096 + (← base64Value? b) * 64 + (← base64Value? c)
      if n % 4 == 0 then some [UInt8.ofNat (n / 1024), UInt8.ofNat (n / 4 % 256)] else none) := by
  rw [base64Decode?]
  exact hc

theorem ofNat_eq (byte : UInt8) {m : Nat} (h : m = byte.toNat) : UInt8.ofNat m = byte := by
  rw [h, UInt8.ofNat_toNat]

/-- Bytes are read back from their characters. -/
theorem base64Decode?_base64Encode (bytes : List UInt8) :
    base64Decode? (base64Encode bytes) = some bytes := by
  induction bytes using base64Encode.induct with
  | case1 => rfl
  | case2 a =>
      have ha : a.toNat < 256 := a.toNat_lt
      have hvalue : a.toNat * 16 / 64 * 64 + a.toNat * 16 % 64 = a.toNat * 16 := by omega
      have hzero : (a.toNat * 16 % 16 == 0) = true := by simp
      rw [base64Encode, base64Decode?, base64Value?_base64Char (by omega),
        base64Value?_base64Char (by omega)]
      simp only [Option.bind_eq_bind, Option.bind_some, hvalue, hzero, if_true]
      rw [ofNat_eq a (by omega)]
  | case3 a b =>
      have ha : a.toNat < 256 := a.toNat_lt
      have hb : b.toNat < 256 := b.toNat_lt
      have hvalue (n : Nat) : n / 4096 * 4096 + n / 64 % 64 * 64 + n % 64 = n := by omega
      have hzero : ((a.toNat * 256 + b.toNat) * 4 % 4 == 0) = true := by simp
      rw [base64Encode, base64Decode?_short (base64Char_ne (by omega)),
        base64Value?_base64Char (by omega), base64Value?_base64Char (by omega),
        base64Value?_base64Char (by omega)]
      simp only [Option.bind_eq_bind, Option.bind_some, hvalue, hzero, if_true]
      rw [ofNat_eq a (by omega), ofNat_eq b (by omega)]
  | case4 a b c rest ih =>
      have ha : a.toNat < 256 := a.toNat_lt
      have hb : b.toNat < 256 := b.toNat_lt
      have hc : c.toNat < 256 := c.toNat_lt
      have hvalue (n : Nat) :
          n / 262144 * 262144 + n / 4096 % 64 * 4096 + n / 64 % 64 * 64 + n % 64 = n := by
        omega
      rw [base64Encode, base64Decode?_group (base64Char_ne (by omega)),
        base64Value?_base64Char (by omega), base64Value?_base64Char (by omega),
        base64Value?_base64Char (by omega), base64Value?_base64Char (by omega), ih]
      simp only [Option.bind_eq_bind, Option.bind_some, hvalue]
      rw [ofNat_eq a (by omega), ofNat_eq b (by omega), ofNat_eq c (by omega)]

/-- Bytes are characters of six bits, filled up with at most two equality signs. -/
theorem exists_base64Encode (bytes : List UInt8) : ∃ body padding,
    base64Encode bytes = body ++ padding ∧ (∀ c ∈ body, ∃ n < 64, c = base64Char n) ∧
      padding ∈ [[], ['='], ['=', '=']] := by
  induction bytes using base64Encode.induct with
  | case1 => exact ⟨[], [], rfl, by simp, by simp⟩
  | case2 a =>
      have ha : a.toNat < 256 := a.toNat_lt
      refine ⟨[_, _], ['=', '='], rfl, ?_, by simp⟩
      simp only [List.forall_mem_cons]
      exact ⟨⟨_, by omega, rfl⟩, ⟨_, by omega, rfl⟩, by simp⟩
  | case3 a b =>
      have ha : a.toNat < 256 := a.toNat_lt
      have hb : b.toNat < 256 := b.toNat_lt
      refine ⟨[_, _, _], ['='], rfl, ?_, by simp⟩
      simp only [List.forall_mem_cons]
      exact ⟨⟨_, by omega, rfl⟩, ⟨_, by omega, rfl⟩, ⟨_, by omega, rfl⟩, by simp⟩
  | case4 a b c rest ih =>
      have ha : a.toNat < 256 := a.toNat_lt
      have hb : b.toNat < 256 := b.toNat_lt
      have hc : c.toNat < 256 := c.toNat_lt
      obtain ⟨body, padding, hrest, hbody, hpadding⟩ := ih
      have hbytes : a.toNat * 65536 + b.toNat * 256 + c.toNat < 16777216 := by omega
      simp only [base64Encode, hrest]
      generalize a.toNat * 65536 + b.toNat * 256 + c.toNat = n at hbytes
      refine ⟨base64Char (n / 262144) :: base64Char (n / 4096 % 64) :: base64Char (n / 64 % 64) ::
        base64Char (n % 64) :: body, padding, rfl, ?_, hpadding⟩
      simp only [List.forall_mem_cons]
      exact ⟨⟨_, by omega, rfl⟩, ⟨_, by omega, rfl⟩, ⟨_, by omega, rfl⟩, ⟨_, by omega, rfl⟩, hbody⟩

end EntityQuery.Text
