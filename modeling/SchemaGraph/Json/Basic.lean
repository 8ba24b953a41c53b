import SchemaGraph.Number.Basic
import SchemaGraph.Json.Entries

/-!
# JSON documents

Documents carry configuration, default values, internal enum values and the
data of host values. An object keeps its entries sorted by key, so two
documents that differ only in the order of their keys are one document.
-/

set_option autoImplicit false

namespace SchemaGraph

inductive Json where
  | null
  | bool (value : Bool)
  | num (value : Number)
  | str (value : String)
  | arr (items : List Json)
  | obj (entries : List (String × Json))
deriving Repr, Inhabited

namespace Json

/-- An object with the given entries, brought into order. -/
def object (entries : List (String × Json)) : Json := .obj (Entries.ofList entries)

def get? (k : String) : Json → Option Json
  | .obj entries => Entries.find? entries k
  | _ => none

def isNull : Json → Bool
  | .null => true
  | _ => false

/-! ## Equality of documents

Numbers are compared as numbers, so zeros of either sign are equal while `1`
and `1.0` are not. -/

mutual

def same : Json → Json → Bool
  | .null, .null => true
  | .bool a, .bool b => a = b
  | .num a, .num b => a.same b
  | .str a, .str b => a = b
  | .arr a, .arr b => sameItems a b
  | .obj a, .obj b => sameEntries a b
  | _, _ => false
termination_by structural a => a

def sameItems : List Json → List Json → Bool
  | [], [] => true
  | a :: as, b :: bs => same a b && sameItems as bs
  | _, _ => false
termination_by structural a => a

def sameEntries : List (String × Json) → List (String × Json) → Bool
  | [], [] => true
  | (k, a) :: as, (l, b) :: bs => k = l && same a b && sameEntries as bs
  | _, _ => false
termination_by structural a => a

end

end Json

end SchemaGraph
