import EntityQuery.Text.Hex
import EntityQuery.Text.Utf8

/-!
# Percent encoding

In a link a byte may be written as a percent sign and two hexadecimal digits.  Encoding does so with
every byte that is not unreserved.  Decoding is lenient: a percent sign that no two digits follow
stands for itself.
-/

namespace EntityQuery.Text

/-- The characters that a link may contain anywhere. -/
def isUnreserved (c : Char) : Bool :=
  c.isAlphanum || c == '-' || c == '.' || c == '_' || c == '~'

/-- A byte in a link. -/
def percentByte (b : UInt8) : List Char :=
  ['%', hexCapital (b.toNat / 16), hexCapital (b.toNat % 16)]

/-- A character in a link. -/
def percentChar (c : Char) : List Char :=
  if isUnreserved c then [c] else (String.utf8EncodeChar c).flatMap percentByte

/-- A text in a link. -/
def percentEncode (cs : List Char) : List Char := cs.flatMap percentChar

/-- The byte that two digits stand for. -/
def hexPair? (a b : Char) : Option UInt8 :=
  match hexValue? a, hexValue? b with
  | some high, some low => some (UInt8.ofNat (high * 16 + low))
  | _, _ => none

/-- The bytes of a piece of a link. -/
def percentBytes : List Char → List UInt8
  | '%' :: a :: b :: rest =>
    match hexPair? a b with
    | some byte => byte :: percentBytes rest
    | none => String.utf8EncodeChar '%' ++ percentBytes (a :: b :: rest)
  | c :: rest => String.utf8EncodeChar c ++ percentBytes rest
  | [] => []

/-- The text of a piece of a link. -/
def percentDecode (cs : List Char) : Except Utf8Problem (List Char) := utf8Decode (percentBytes cs)

end EntityQuery.Text
