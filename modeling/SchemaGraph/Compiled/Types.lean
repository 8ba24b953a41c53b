import SchemaGraph.Compiled.TypeRef
import SchemaGraph.Compiled.FieldResolver

/-!
# Compiled types

What the compiler makes of declared types: references in place of type
expressions, resolvers in place of declarations, and one name per type.
-/

set_option autoImplicit false

namespace SchemaGraph

inductive NamedKind where
  | object
  | interface
  | union
  | inputObject
  | scalar
  | enum
deriving DecidableEq, Repr

namespace NamedKind

def isOutput : NamedKind → Bool
  | .inputObject => false
  | _ => true

/-- Whether arguments and input fields can be of this kind. -/
def isInput : NamedKind → Bool
  | .inputObject => true
  | .scalar => true
  | .enum => true
  | _ => false

/-- Whether types of this kind have no fields and are not made of types that
have. -/
def isLeaf : NamedKind → Bool
  | .scalar => true
  | .enum => true
  | _ => false

end NamedKind

/-- A compiled type expression. -/
structure CompiledRef where
  typeRef : TypeRef
  /-- The kind of the type at the core. -/
  kind : NamedKind
  hook? : Option (Resolved → Resolved)
  dispatch? : Option Dispatch

structure CompiledInput where
  name : String
  description : Option String
  typeRef : TypeRef
  default? : Option Json

structure CompiledField where
  name : String
  description : Option String
  deprecation : Option String
  typeRef : TypeRef
  args : OrderedMap String CompiledInput
  resolver : FieldResolver

structure CompiledObject where
  name : String
  description : Option String
  interfaces : List String
  fields : OrderedMap String CompiledField

structure CompiledInterface where
  name : String
  description : Option String
  fields : OrderedMap String CompiledField
  dispatch : Dispatch

structure CompiledInputObject where
  name : String
  description : Option String
  fields : OrderedMap String CompiledInput

structure CompiledUnion where
  name : String
  description : Option String
  possibleTypes : List String
  dispatch : Dispatch

inductive CompiledType where
  | object (t : CompiledObject)
  | interface (t : CompiledInterface)
  | inputObject (t : CompiledInputObject)
  | union (t : CompiledUnion)
  | enum (d : EnumDef)
  | scalar (d : ScalarDef)

namespace CompiledType

def name : CompiledType → String
  | .object t => t.name
  | .interface t => t.name
  | .inputObject t => t.name
  | .union t => t.name
  | .enum d => d.name
  | .scalar d => d.name

def kind : CompiledType → NamedKind
  | .object _ => .object
  | .interface _ => .interface
  | .inputObject _ => .inputObject
  | .union _ => .union
  | .enum _ => .enum
  | .scalar _ => .scalar

def description : CompiledType → Option String
  | .object t => t.description
  | .interface t => t.description
  | .inputObject t => t.description
  | .union t => t.description
  | .enum d => d.description
  | .scalar d => d.description

def object? : CompiledType → Option CompiledObject
  | .object t => some t
  | _ => none

end CompiledType

end SchemaGraph
