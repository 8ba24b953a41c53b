import SchemaGraph.Text.Printable

/-!
# Text in quotes

Messages show a text between double quotes. The quote, the backslash and the
common controls have short escapes; whatever else cannot be seen is written by
its code point in hexadecimal.
-/

set_option autoImplicit false

namespace SchemaGraph.Text

/-- The code point in lower-case hexadecimal, without leading zeros. -/
def hexOf (c : Char) : List Char := Nat.toDigits 16 c.toNat

def quotedChar (c : Char) : List Char :=
  if c = '\x00' then ['\\', '0']
  else if c = '\t' then ['\\', 't']
  else if c = '\r' then ['\\', 'r']
  else if c = '\n' then ['\\', 'n']
  else if c = '\\' then ['\\', '\\']
  else if c = '"' then ['\\', '"']
  else if c.val < 0x7f ∧ 0x20 ≤ c.val then [c]
  else if isPrintable c then [c]
  else ['\\', 'u', '\x7b'] ++ hexOf c ++ ['\x7d']

/-- The text between double quotes. -/
def quoted (s : String) : String :=
  String.ofList ('"' :: s.toList.flatMap quotedChar ++ ['"'])

end SchemaGraph.Text
