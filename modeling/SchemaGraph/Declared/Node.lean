import SchemaGraph.FieldCall
import SchemaGraph.TypeExpr.Basic

/-!
# Nodes of the type graph

Every declaration becomes a node: the types themselves, their fields and input
fields, single arguments, and the edges by which an object implements an
interface. Nodes refer to each other by number. A type expression inside a
declaration is linked to the node it means only when somebody asks, so a
declaration may refer to a type that is declared later.
-/

set_option autoImplicit false

namespace SchemaGraph

/-- The number of a node: its position in the order of declaration. -/
abbrev NodeId := Nat

/-- An output field as declared. Without a resolver it answers the property of
its name. -/
structure FieldDecl where
  name : String
  type? : Option TypeExpr := none
  description : Option String := none
  deprecation : Option String := none
  /-- The type that bundles all arguments. -/
  args? : Option HostType := none
  /-- The type of the single argument. -/
  arg? : Option TypeExpr := none
  resolver? : Option Resolver := none

/-- An input field or a single argument as declared. -/
structure InputDecl where
  name : String
  type? : Option TypeExpr := none
  description : Option String := none
  default? : Option Json := none

/-- Builds host values of one type from documents. -/
structure InputConstructor where
  type : HostType
  construct : Json → Except DecodeError HostValue

def InputConstructor.ofShape (t : HostShape) : InputConstructor where
  type := t.type
  construct j := (t.read j).map fun data => ⟨t.type, data, []⟩

structure TypeMetadata where
  name : String
  description : Option String
deriving DecidableEq, Repr

structure ObjectNode where
  metadata : TypeMetadata
  type : HostType
  fields : List NodeId
  implementEdges : List NodeId
  extends? : Option Extends

structure InterfaceNode where
  metadata : TypeMetadata
  type : HostType
  fields : List NodeId
  /-- The objects that declare to implement the interface, once for each such
  declaration. -/
  implementers : List NodeId

structure InputObjectNode where
  metadata : TypeMetadata
  type : HostType
  inputFields : List NodeId
  constructor : InputConstructor

structure FieldNode where
  type : HostType
  decl : FieldDecl
  /-- The single arguments attached to the field. -/
  args : List NodeId

structure ArgsNode where
  type : HostType
  inputFields : List NodeId
  constructor : InputConstructor

structure ArgNode where
  type : HostType
  /-- The field that the argument was declared for. -/
  field : String
  decl : InputDecl

structure InputFieldNode where
  type : HostType
  decl : InputDecl

structure ImplementNode where
  type : HostType
  interface : NodeId

inductive Node where
  | object (n : ObjectNode)
  | interface (n : InterfaceNode)
  | inputObject (n : InputObjectNode)
  | field (n : FieldNode)
  | args (n : ArgsNode)
  | arg (n : ArgNode)
  | inputField (n : InputFieldNode)
  | implement (n : ImplementNode)

inductive NodeKind where
  | object
  | interface
  | inputObject
  | field
  | args
  | arg
  | inputField
  | implement
deriving DecidableEq, Repr

def NodeKind.description : NodeKind → String
  | .object => "object"
  | .interface => "interface"
  | .inputObject => "input object"
  | .field => "field"
  | .args => "args"
  | .arg => "arg"
  | .inputField => "input field"
  | .implement => "implement"

namespace Node

def kind : Node → NodeKind
  | .object _ => .object
  | .interface _ => .interface
  | .inputObject _ => .inputObject
  | .field _ => .field
  | .args _ => .args
  | .arg _ => .arg
  | .inputField _ => .inputField
  | .implement _ => .implement

/-- The host type on whose behalf the node was declared. -/
def type : Node → HostType
  | .object n => n.type
  | .interface n => n.type
  | .inputObject n => n.type
  | .field n => n.type
  | .args n => n.type
  | .arg n => n.type
  | .inputField n => n.type
  | .implement n => n.type

def metadata? : Node → Option TypeMetadata
  | .object n => some n.metadata
  | .interface n => some n.metadata
  | .inputObject n => some n.metadata
  | _ => none

/-- The name for messages: the schema name of types, the name of the host type
of everything else. -/
def displayName (n : Node) : String :=
  match n.metadata? with
  | some m => m.name
  | none => n.type.shortName

def isSchemaType : Node → Bool
  | .object _ => true
  | .interface _ => true
  | .inputObject _ => true
  | _ => false

/-- Whether the node can be the type of a field. -/
def isOutputType : Node → Bool
  | .object _ => true
  | .interface _ => true
  | _ => false

def object? : Node → Option ObjectNode
  | .object n => some n
  | _ => none

def interface? : Node → Option InterfaceNode
  | .interface n => some n
  | _ => none

def inputObject? : Node → Option InputObjectNode
  | .inputObject n => some n
  | _ => none

def field? : Node → Option FieldNode
  | .field n => some n
  | _ => none

def arg? : Node → Option ArgNode
  | .arg n => some n
  | _ => none

def inputField? : Node → Option InputFieldNode
  | .inputField n => some n
  | _ => none

def implement? : Node → Option ImplementNode
  | .implement n => some n
  | _ => none

def isObject (n : Node) : Bool := n.object?.isSome

def isInterface (n : Node) : Bool := n.interface?.isSome

def isInputObject (n : Node) : Bool := n.inputObject?.isSome

def inputFields? : Node → Option (List NodeId)
  | .inputObject n => some n.inputFields
  | .args n => some n.inputFields
  | _ => none

def constructor? : Node → Option InputConstructor
  | .inputObject n => some n.constructor
  | .args n => some n.constructor
  | _ => none

/-- The name of a field, an input field or an argument. -/
def memberName? : Node → Option String
  | .field n => some n.decl.name
  | .inputField n => some n.decl.name
  | .arg n => some n.decl.name
  | _ => none

/-- What is read where no node is. -/
def absent : Node := .arg ⟨⟨""⟩, "", { name := "" }⟩

instance : Inhabited Node := ⟨absent⟩

end Node

end SchemaGraph
