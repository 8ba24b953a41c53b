import SchemaGraph.Json.Basic

/-!
# Writing JSON

The compact form: no blanks, keys in their order, floating point numbers by
their shortest decimal. Only what must be escaped is.
-/

set_option autoImplicit false

namespace SchemaGraph.Json

def escapedChar (c : Char) : List Char :=
  if c = '"' then ['\\', '"']
  else if c = '\\' then ['\\', '\\']
  else if c = '\n' then ['\\', 'n']
  else if c = '\r' then ['\\', 'r']
  else if c = '\t' then ['\\', 't']
  else if c.val < 0x20 then
    let digits := Nat.toDigits 16 c.toNat
    ['\\', 'u'] ++ List.replicate (4 - digits.length) '0' ++ digits
  else [c]

def renderString (s : String) : String :=
  String.ofList ('"' :: s.toList.flatMap escapedChar ++ ['"'])

mutual

def render : Json → String
  | .null => "null"
  | .bool b => if b then "true" else "false"
  | .num n => n.render
  | .str s => renderString s
  | .arr items => "[" ++ ",".intercalate (renderItems items) ++ "]"
  | .obj entries => "\x7b" ++ ",".intercalate (renderEntries entries) ++ "\x7d"
termination_by structural j => j

def renderItems : List Json → List String
  | [] => []
  | j :: rest => render j :: renderItems rest
termination_by structural items => items

def renderEntries : List (String × Json) → List String
  | [] => []
  | (k, j) :: rest => (renderString k ++ ":" ++ render j) :: renderEntries rest
termination_by structural entries => entries

end

end SchemaGraph.Json
