import SchemaGraph.Value.Basic
import SchemaGraph.Json.Printer

/-!
# Literals

A value as the schema language writes it, for instance as the default of an
argument. Strings escape quote, backslash and the common controls; any other
control is written by its code point in four decimal digits.
-/

set_option autoImplicit false

namespace SchemaGraph.Value

def isControl (c : Char) : Bool := c.val < 0x20 || (0x7f ≤ c.val && c.val < 0xa0)

def literalChar (c : Char) : List Char :=
  if c = '\r' then ['\\', 'r']
  else if c = '\n' then ['\\', 'n']
  else if c = '\t' then ['\\', 't']
  else if c = '"' then ['\\', '"']
  else if c = '\\' then ['\\', '\\']
  else if isControl c then
    let digits := Nat.toDigits 10 c.toNat
    ['\\', 'u'] ++ List.replicate (4 - digits.length) '0' ++ digits
  else [c]

def literalString (s : String) : String :=
  String.ofList ('"' :: s.toList.flatMap literalChar ++ ['"'])

mutual

def literal : Value → String
  | .null => "null"
  | .bool b => if b then "true" else "false"
  | .num n => n.render
  | .str s => literalString s
  | .enum name => name
  | .binary bytes => "[" ++ ", ".intercalate (bytes.map fun b => toString b.toNat) ++ "]"
  | .list items => "[" ++ ", ".intercalate (literalItems items) ++ "]"
  | .obj entries => "\x7b" ++ ", ".intercalate (literalEntries entries) ++ "\x7d"
termination_by structural v => v

def literalItems : List Value → List String
  | [] => []
  | v :: rest => literal v :: literalItems rest
termination_by structural items => items

def literalEntries : List (String × Value) → List String
  | [] => []
  | (k, v) :: rest => (k ++ ": " ++ literal v) :: literalEntries rest
termination_by structural entries => entries

end

end SchemaGraph.Value
