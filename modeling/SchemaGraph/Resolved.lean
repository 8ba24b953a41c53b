import SchemaGraph.Host.Instance

/-!
# What resolvers answer

A resolver answers a plain value, an instance, or a list of answers. A plain
value may itself be a list; the two kinds of list are told apart until the
answer reaches the query.
-/

set_option autoImplicit false

namespace SchemaGraph

inductive Resolved where
  | value (v : Value)
  | instance (i : Instance)
  | list (items : List Resolved)
deriving Repr, Inhabited

namespace Resolved

def null : Resolved := .value .null

def isNull : Resolved → Bool
  | .value .null => true
  | _ => false

/-- Apply `f` to the elements of a list of either kind; anything else stays as
it is. -/
def mapItems (f : Resolved → Resolved) : Resolved → Resolved
  | .list items => .list (items.map f)
  | .value (.list items) => .list (items.map fun v => f (.value v))
  | r => r

/-- The name of the type for messages; only instances have one. -/
def runtimeTypeName : Resolved → String
  | .instance i => i.type.shortName
  | _ => "Unknown"

/-- A floating point number; what is not finite becomes null. -/
def ofFloat (f : Binary64) : Resolved :=
  if f.isFinite then .value (.num (.float f)) else null

end Resolved

end SchemaGraph
