import SchemaGraph.Compile.Types

/-!
# Requests to the compiler

What can be asked of a compiler: a reference to a type, a type in output or
input position, a declared type, the definition behind a named reference.
-/

set_option autoImplicit false

namespace SchemaGraph

namespace Compile

/-- Compile a reference; `nonNull` makes it required unless it is nullable. -/
def type (r : Registry) (l : Link) (nonNull : Bool) : CompileM CompiledRef :=
  link r (enter r) l nonNull

def outputType (r : Registry) (l : Link) (nonNull : Bool) (owner field : String) :
    CompileM CompiledRef :=
  outputLink r (enter r) l nonNull owner field

/-- Compile the type of the argument or input field `owner.field`. -/
def inputType (r : Registry) (l : Link) (nonNull : Bool) (owner field : String) :
    CompileM CompiledRef :=
  inputLink r (enter r) l nonNull owner field

def object (r : Registry) (id : NodeId) : CompileM CompiledObject :=
  objectWith r (enter r) id

def interface (r : Registry) (id : NodeId) : CompileM CompiledInterface :=
  interfaceWith r (enter r) id

def inputObject (r : Registry) (id : NodeId) : CompileM CompiledInputObject :=
  inputObjectWith r (enter r) id

def fieldMap (r : Registry) (owner : String) (ids : List NodeId) :
    CompileM (OrderedMap String CompiledField) :=
  fields r (enter r) owner ids ∅

/-- The kept definition that a reference of this name means. A declared type is
looked up by its node, everything else by the name. -/
def keptDefinition (r : Registry) (l : Link) (name : String) (s : CompileState) :
    Option CompiledType :=
  match l with
  | .node id =>
    match r.node id with
    | .object _ => (s.objects.find? id).map .object
    | .interface _ => (s.interfaces.find? id).map .interface
    | .inputObject _ => (s.inputObjects.find? id).map .inputObject
    | _ => none
  | .given (.scalar d) => if d.builtin then some (.scalar d) else s.given.find? name
  | .given _ => s.given.find? name

/-- Compile a reference that must be a bare name, and answer what the name
means. -/
def namedType (r : Registry) (l : Link) : CompileM CompiledType := do
  let c ← type r l false
  let name := c.typeRef.render
  if !c.typeRef.isNamed then throw (.notNamedType name)
  match keptDefinition r l name (← get) with
  | some t => return t
  | none => throw (.typeNotFound name)

end Compile

end SchemaGraph
