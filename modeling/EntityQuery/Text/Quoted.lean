import EntityQuery.Text.Hex
import EntityQuery.Text.Printable

/-!
# Quoted texts

A message shows a text or a string of bytes between quotes, with escapes for whatever would not show
itself.
-/

namespace EntityQuery.Text

/-- A character inside a quoted text. -/
def quoteChar (c : Char) : List Char :=
  if c == '"' || c == '\\' then ['\\', c]
  else if c == '\t' then ['\\', 't']
  else if c == '\r' then ['\\', 'r']
  else if c == '\n' then ['\\', 'n']
  else if c.val == 0 then ['\\', '0']
  else if isVisible c then [c]
  else '\\' :: 'u' :: '\x7b' :: (shortHex c.toNat ++ ['\x7d'])

/-- A text between quotes. -/
def quoted (text : String) : String :=
  String.ofList ('"' :: (text.toList.flatMap quoteChar ++ ['"']))

/-- A byte inside a quoted string of bytes. -/
def quoteByte (b : UInt8) : List Char :=
  let c := Char.ofNat b.toNat
  if c == '"' || c == '\\' then ['\\', c]
  else if c == '\t' then ['\\', 't']
  else if c == '\r' then ['\\', 'r']
  else if c == '\n' then ['\\', 'n']
  else if b == 0 then ['\\', '0']
  else if 32 ≤ b && b < 127 then [c]
  else '\\' :: 'x' :: hexDigits 2 b.toNat

/-- A string of bytes between quotes, marked as such. -/
def quotedBytes (bytes : List UInt8) : String :=
  String.ofList ('b' :: '"' :: (bytes.flatMap quoteByte ++ ['"']))

end EntityQuery.Text
