/-!
# Hexadecimal digits
-/

namespace EntityQuery.Text

/-- The value of a hexadecimal digit of either case. -/
def hexValue? (c : Char) : Option Nat :=
  if c.isDigit then some (c.toNat - 48)
  else if 'a' ≤ c && c ≤ 'f' then some (c.toNat - 87)
  else if 'A' ≤ c && c ≤ 'F' then some (c.toNat - 55)
  else none

/-- The small hexadecimal digit of a number below 16. -/
def hexDigit (n : Nat) : Char := Char.ofNat (if n < 10 then 48 + n else 87 + n)

/-- The capital hexadecimal digit of a number below 16. -/
def hexCapital (n : Nat) : Char := Char.ofNat (if n < 10 then 48 + n else 55 + n)

/-- The `width` lowest hexadecimal digits of a number. -/
def hexDigits : Nat → Nat → List Char
  | 0, _ => []
  | width + 1, n => hexDigits width (n / 16) ++ [hexDigit (n % 16)]

/-- The value of a run of hexadecimal digits, continuing from `high`. -/
def hexRun? (high : Nat) : List Char → Option Nat
  | [] => some high
  | c :: rest => (hexValue? c).bind fun d => hexRun? (high * 16 + d) rest

/-- The hexadecimal digits of a number, without leading zeros. -/
def shortHex (n : Nat) : List Char := Nat.toDigits 16 n

end EntityQuery.Text
