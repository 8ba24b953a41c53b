import SchemaGraph.Declared.Node
import SchemaGraph.Text.Name

/-!
# The registry

All nodes declared so far, and where they belong. Members (fields, input
fields, arguments, implements edges) are declared before the type that owns
them; until that type is declared they wait in the waiting room of its host
type. An argument whose field turns out not to exist goes astray and is
remembered as such.
-/

set_option autoImplicit false

namespace SchemaGraph

structure Registry where
  nodes : Array Node := #[]
  /-- The object, interface and input object declared for each host type. -/
  types : OrderedMap HostType NodeId := ∅
  /-- The argument bundle declared for each host type. -/
  args : OrderedMap HostType NodeId := ∅
  waiting : OrderedMap HostType (List NodeId) := ∅
  stray : List NodeId := []

namespace Registry

def empty : Registry := {}

instance : Inhabited Registry := ⟨empty⟩

def node (r : Registry) (id : NodeId) : Node := r.nodes.getD id .absent

/-- How many nodes there are, waiting ones included. -/
def size (r : Registry) : Nat := r.nodes.size

def isEmpty (r : Registry) : Bool := r.nodes.isEmpty

/-- The node declared for a host type: its type, else its argument bundle. -/
def find? (r : Registry) (t : HostType) : Option NodeId :=
  (r.types.find? t).or (r.args.find? t)

def getNode (r : Registry) (t : HostType) : Except SchemaError NodeId :=
  match r.find? t with
  | some id => .ok id
  | none => .error (.notDeclared t.shortName)

def getArgsNode (r : Registry) (t : HostType) : Except SchemaError NodeId :=
  match r.args.find? t with
  | some id => .ok id
  | none => .error (.argsNotDeclared t.shortName)

/-- The schema name of a host type, or its own name if it has none yet. -/
def ownerName (r : Registry) (t : HostType) : String :=
  match r.types.find? t with
  | some id => (r.node id).displayName
  | none => t.shortName

/-- The object, interface and input object nodes in the order of their
declaration. -/
def schemaTypes (r : Registry) : List NodeId := r.types.values

def objects (r : Registry) : List NodeId :=
  r.schemaTypes.filter fun id => (r.node id).isObject

/-- The host types with members waiting for a declaration. -/
def orphanedTypes (r : Registry) : List HostType := r.waiting.keys

/-- The arguments declared for fields that do not exist, as `Type.field`. -/
def orphanedArgs (r : Registry) : List String :=
  r.stray.filterMap fun id =>
    (r.node id).arg?.map fun a => r.ownerName a.type ++ "." ++ a.field

/-! ## Changes -/

def push (r : Registry) (n : Node) : Registry := { r with nodes := r.nodes.push n }

def modifyNode (r : Registry) (id : NodeId) (f : Node → Node) : Registry :=
  { r with nodes := r.nodes.modify id f }

/-- Add a node to the waiting room of a host type. -/
def stage (r : Registry) (t : HostType) (n : Node) : Registry :=
  let r' := r.push n
  { r' with waiting := r'.waiting.insert t ((r'.waiting.find? t).getD [] ++ [r.size]) }

/-- The members waiting for a host type. -/
def staged (r : Registry) (t : HostType) : List NodeId := (r.waiting.find? t).getD []

/-- The waiting members of one kind. -/
def stagedOf (r : Registry) (t : HostType) (kind : NodeKind) : List NodeId :=
  (r.staged t).filter fun id => (r.node id).kind = kind

/-- Empty the waiting room of a host type. -/
def unstage (r : Registry) (t : HostType) : Registry :=
  { r with waiting := r.waiting.erase t }

/-- Attach an argument to the first of `fields` it was declared for, or let it
go astray. -/
def attachArg (r : Registry) (fields : List NodeId) (arg : NodeId) : Registry :=
  match (r.node arg).arg? with
  | none => r
  | some a =>
    match fields.find? fun id => (r.node id).memberName? = some a.field with
    | some field =>
      r.modifyNode field fun
        | .field n => .field { n with args := n.args ++ [arg] }
        | n => n
    | none => { r with stray := r.stray ++ [arg] }

def attachArgs (r : Registry) (fields args : List NodeId) : Registry :=
  args.foldl (fun r arg => r.attachArg fields arg) r

/-- Note an object with the interface at the end of an implements edge. -/
def noteImplementer (r : Registry) (object : NodeId) (edge : NodeId) : Registry :=
  match (r.node edge).implement? with
  | none => r
  | some e =>
    r.modifyNode e.interface fun
      | .interface n => .interface { n with implementers := n.implementers ++ [object] }
      | n => n

end Registry

end SchemaGraph
