import EntityQuery.Text.Blank

/-!
# Scanners

A scanner looks at the front of a text and says how many characters it takes, if it accepts it at
all.  Scanners are put together from classes of characters by sequence, choice, option and
repetition.  None of them looks back: an option that can be taken is taken.
-/

namespace EntityQuery.Filter

/-- Takes a number of characters off the front of a text, or refuses it. -/
abbrev Scan := List Char → Option Nat

namespace Scan

/-- One of the letters of ASCII, or an underscore. -/
def isNameStart (c : Char) : Bool := c.isAlpha || c == '_'

/-- A letter or digit of ASCII, or an underscore. -/
def isNameChar (c : Char) : Bool := c.isAlphanum || c == '_'

/-- A given text. -/
def word (w : List Char) : Scan := fun cs => if w.isPrefixOf cs then some w.length else none

/-- One character of a class. -/
def one (p : Char → Bool) : Scan
  | [] => none
  | c :: _ => if p c then some 1 else none

/-- As many characters of a class as there are. -/
def many (p : Char → Bool) : Scan := fun cs => some (cs.takeWhile p).length

/-- As many characters of a class as there are, and at least one. -/
def some1 (p : Char → Bool) : Scan := fun cs =>
  let n := (cs.takeWhile p).length
  if n == 0 then none else some n

/-- A fixed number of characters of a class. -/
def exactly (n : Nat) (p : Char → Bool) : Scan := fun cs =>
  if (cs.take n).length == n && (cs.take n).all p then some n else none

/-- What a scanner accepts, or nothing. -/
def optional (a : Scan) : Scan := fun cs => some ((a cs).getD 0)

/-- One scanner after another. -/
def inOrder : List Scan → Scan
  | [], _ => some 0
  | a :: rest, cs => (a cs).bind fun n => (inOrder rest (cs.drop n)).map (n + ·)

/-- The first scanner that accepts. -/
def firstOf (choices : List Scan) : Scan := fun cs => choices.findSome? fun a => a cs

/-- A scanner again and again, at most `limit` times. -/
def times (a : Scan) : Nat → Scan
  | 0, _ => some 0
  | limit + 1, cs =>
    match a cs with
    | some (n + 1) => (times a limit (cs.drop (n + 1))).map (n + 1 + ·)
    | _ => some 0

/-- A scanner as often as it accepts. -/
def star (a : Scan) : Scan := fun cs => times a cs.length cs

/-- One given character. -/
def mark (c : Char) : Scan := one (· == c)

/-- One of some given characters. -/
def markOf (cs : List Char) : Scan := one cs.contains

/-- At least one digit. -/
def digits : Scan := some1 Char.isDigit

/-- A fixed number of digits. -/
def digitCount (n : Nat) : Scan := exactly n Char.isDigit

/-- A name: a letter or underscore, and letters, digits and underscores. -/
def name : Scan := inOrder [one isNameStart, many isNameChar]

theorem times_zero (a : Scan) (cs : List Char) : times a 0 cs = some 0 := by
  simp [times]

end Scan

end EntityQuery.Filter
