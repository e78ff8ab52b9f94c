/-!
# Decimal digits

Reading and writing natural numbers and integers in decimal notation.  Every number of the library
is written with the digits of ASCII; a reader takes any number of leading zeros and, where a sign is
allowed, at most one.
-/

namespace EntityQuery.Number

/-- Powers are those of the core library, also where an algebraic one is at hand. -/
instance (priority := high) corePower {α : Type} [NatPow α] : Pow α Nat := instPowNat

/-- The value of a run of digits, continuing from `high`. -/
def digitsValue (high : Nat) (digits : List Char) : Nat :=
  digits.foldl (fun n c => n * 10 + (c.toNat - 48)) high

/-- A nonempty run of digits and nothing else. -/
def readNat? (cs : List Char) : Option Nat :=
  if cs.isEmpty || !cs.all Char.isDigit then none else some (digitsValue 0 cs)

/-- A number without a sign, or after a plus. -/
def readUnsigned? : List Char → Option Nat
  | '+' :: rest => readNat? rest
  | cs => readNat? cs

/-- A number after an optional sign. -/
def readInt? : List Char → Option Int
  | '-' :: rest => (readNat? rest).map fun n => -(n : Int)
  | cs => (readUnsigned? cs).map fun n => (n : Int)

/-- An integer between two bounds, both included. -/
def readIntIn? (low high : Int) (cs : List Char) : Option Int :=
  (readInt? cs).filter fun n => low ≤ n && n ≤ high

/-- A natural number up to a bound. -/
def readUnsignedUpTo? (high : Nat) (cs : List Char) : Option Nat :=
  (readUnsigned? cs).filter (· ≤ high)

/-- The digits of a number. -/
def digits (n : Nat) : List Char := Nat.toDigits 10 n

/-- The digits of a number with zeros in front up to a width. -/
def paddedDigits (width n : Nat) : List Char :=
  List.replicate (width - (digits n).length) '0' ++ digits n

/-- A number as text, with zeros in front up to a width. -/
def padded (width n : Nat) : String := String.ofList (paddedDigits width n)

/-- An integer as text, with a minus where it is negative. -/
def intText (n : Int) : String :=
  if n < 0 then "-" ++ toString n.natAbs else toString n.natAbs

theorem digitsValue_nil (high : Nat) : digitsValue high [] = high := by
  simp [digitsValue]

theorem digitsValue_cons (high : Nat) (c : Char) (rest : List Char) :
    digitsValue high (c :: rest) = digitsValue (high * 10 + (c.toNat - 48)) rest := by
  simp [digitsValue]

end EntityQuery.Number
