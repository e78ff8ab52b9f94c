import EntityQuery.Number.Digits

/-!
# Rounding a quotient

A quotient of two natural numbers is rounded to a neighbouring natural number.  The two rules differ
only in the quotients that lie half way: one takes the even neighbour, the other the larger one.
-/

namespace EntityQuery.Number

/-- Which of two neighbours that are equally near is taken. -/
inductive Tie
  | toEven
  | up
  deriving DecidableEq

/-- Does a number that lies half way behind a whole number go up to the next one? -/
def Tie.goesUp (tie : Tie) (below : Nat) : Bool :=
  match tie with
  | toEven => below % 2 == 1
  | up => true

/-- The nearest whole number to `num / den`; a tie goes to the even one. -/
def divHalfEven (num den : Nat) : Nat :=
  let quotient := num / den
  let twice := 2 * (num % den)
  if twice > den || (twice == den && quotient % 2 == 1) then quotient + 1 else quotient

/-- The nearest whole number to `num / den`; a tie goes up. -/
def divHalfUp (num den : Nat) : Nat :=
  if 2 * (num % den) ≥ den then num / den + 1 else num / den

/-- The smallest whole number that is not below `num / den`. -/
def divCeil (num den : Nat) : Nat :=
  if num % den == 0 then num / den else num / den + 1

/-- A quotient that comes out even is not changed by rounding. -/
theorem divHalfEven_mul {k den : Nat} (h : 0 < den) : divHalfEven (k * den) den = k := by
  simp [divHalfEven, Nat.mul_div_cancel _ h, Nat.mul_mod_left]
  omega

end EntityQuery.Number
