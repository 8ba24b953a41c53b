import SchemaGraph.Declared.Node

/-!
# Shapes of input values

Before a resolver sees an argument, enum names in it are replaced by internal
values and omitted fields get their defaults. Where that has to happen is the
shape of the input: enums, lists and input objects, everything else being
plain. Input objects may contain each other, so a shape refers to an input
object by the number of its node, and a table holds what is known of each. An
entry is made before the fields are known; until they are it is unfilled.
-/

set_option autoImplicit false

namespace SchemaGraph

inductive ValueShape where
  | plain
  | enum (d : EnumDef)
  | list (item : ValueShape)
  | input (id : NodeId)
deriving Repr, Inhabited

structure InputFieldShape where
  name : String
  shape : ValueShape
  default? : Option Json
deriving Repr, Inhabited

structure InputObjectShape where
  name : String
  fields : List InputFieldShape
  constructor : InputConstructor

/-- What is known of the input objects and argument bundles met so far. -/
abbrev ShapeTable := OrderedMap NodeId (Option InputObjectShape)

/-- The shape of an input object, once it is filled. -/
def ShapeTable.filled? (table : ShapeTable) (id : NodeId) : Option InputObjectShape :=
  (table.find? id).join

/-- How the raw arguments of a field become what its resolver sees. -/
inductive ArgumentMapping where
  | none
  /-- A single argument, passed by value. -/
  | raw (name : String) (shape : ValueShape)
  /-- A single argument of an input object type, built into a host value. -/
  | instance (name : String) (input : NodeId)
  /-- All arguments, built into a host value. -/
  | bundle (args : NodeId)
deriving Repr, Inhabited

end SchemaGraph
