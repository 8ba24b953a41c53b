import SchemaGraph.Json.Basic

/-!
# Values of the query language

What fields answer and what arguments carry: the values of a document, and two
kinds that documents do not have, enum names and binaries. Turning a value into
a document writes an enum by its name and a binary as the list of its bytes;
turning a document into a value loses nothing.
-/

set_option autoImplicit false

namespace SchemaGraph

inductive Value where
  | null
  | bool (value : Bool)
  | num (value : Number)
  | str (value : String)
  | enum (name : String)
  | binary (bytes : List UInt8)
  | list (items : List Value)
  | obj (entries : List (String × Value))
deriving Repr, Inhabited

namespace Value

def isNull : Value → Bool
  | .null => true
  | _ => false

def get? (k : String) : Value → Option Value
  | .obj entries => Entries.find? entries k
  | _ => none

/-- An object with the given entries, brought into order. -/
def object (entries : List (String × Value)) : Value := .obj (Entries.ofList entries)

mutual

def toJson : Value → Json
  | .null => .null
  | .bool b => .bool b
  | .num n => .num n
  | .str s => .str s
  | .enum name => .str name
  | .binary bytes => .arr (bytes.map fun b => .num (.int b.toNat))
  | .list items => .arr (toJsonItems items)
  | .obj entries => .obj (toJsonEntries entries)
termination_by structural v => v

def toJsonItems : List Value → List Json
  | [] => []
  | v :: rest => toJson v :: toJsonItems rest
termination_by structural items => items

def toJsonEntries : List (String × Value) → List (String × Json)
  | [] => []
  | (k, v) :: rest => (k, toJson v) :: toJsonEntries rest
termination_by structural entries => entries

end

mutual

def ofJson : Json → Value
  | .null => .null
  | .bool b => .bool b
  | .num n => .num n
  | .str s => .str s
  | .arr items => .list (ofJsonItems items)
  | .obj entries => .obj (ofJsonEntries entries)
termination_by structural j => j

def ofJsonItems : List Json → List Value
  | [] => []
  | j :: rest => ofJson j :: ofJsonItems rest
termination_by structural items => items

def ofJsonEntries : List (String × Json) → List (String × Value)
  | [] => []
  | (k, j) :: rest => (k, ofJson j) :: ofJsonEntries rest
termination_by structural entries => entries

end

end Value

end SchemaGraph
