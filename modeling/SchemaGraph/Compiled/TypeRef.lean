/-!
# Type references

A reference to a named type under list and non-null modifiers, as the schema
language writes it.
-/

set_option autoImplicit false

namespace SchemaGraph

inductive TypeRef where
  | named (name : String)
  | list (item : TypeRef)
  | nonNull (inner : TypeRef)
deriving DecidableEq, Repr, Inhabited

namespace TypeRef

/-- Lists in brackets, non-null with an exclamation mark. -/
def render : TypeRef → String
  | .named name => name
  | .list item => "[" ++ render item ++ "]"
  | .nonNull inner => render inner ++ "!"

/-- The name at the core. -/
def coreName : TypeRef → String
  | .named name => name
  | .list item => coreName item
  | .nonNull inner => coreName inner

/-- Whether there is no modifier. -/
def isNamed : TypeRef → Bool
  | .named _ => true
  | _ => false

def isNonNull : TypeRef → Bool
  | .nonNull _ => true
  | _ => false

end TypeRef

end SchemaGraph
