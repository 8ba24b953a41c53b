import SchemaGraph.Declared.Registry

/-!
# Declaring

Members are staged one by one; declaring the type that owns them claims what
was staged. Each operation answers the number of its node or fails, and the
registry it leaves behind is the same in both cases: the one in the state.

A declaration of a whole type stages its members in order and then declares
the type. After the first failing member no further one is staged, and the
failure is what the declaration ends with.
-/

set_option autoImplicit false

namespace SchemaGraph

/-- Work on a registry that may fail. What was changed before a failure stays
changed. -/
abbrev RegistryM := EStateM SchemaError Registry

structure ObjectDecl where
  name? : Option String := none
  description : Option String := none
  extends? : Option Extends := none
deriving Repr

/-- What is said about an interface or an input object type. -/
structure TypeDecl where
  name? : Option String := none
  description : Option String := none
deriving Repr

def checkName (name : String) : Except SchemaError Unit :=
  if Text.isName name then .ok () else .error (.invalidName name)

/-- The metadata of a type: unless it is named it takes the name of the host
type. -/
def TypeMetadata.ofDecl (t : HostType) (name? description : Option String) :
    Except SchemaError TypeMetadata :=
  let name := name?.getD t.shortName
  match checkName name with
  | .ok () => .ok ⟨name, description⟩
  | .error e => .error e

namespace Registry

def checkUndeclared (r : Registry) (t : HostType) : Except SchemaError Unit :=
  if r.types.contains t then .error (.alreadyDeclared t.shortName) else .ok ()

/-- Declare an object type: it claims the fields, arguments and implements
edges that wait for it, and each interface notes it. -/
def declareObject (r : Registry) (t : HostType) (decl : ObjectDecl)
    (metadata : TypeMetadata) : Registry :=
  let fields := r.stagedOf t .field
  let edges := r.stagedOf t .implement
  let args := r.stagedOf t .arg
  let r := (r.unstage t).attachArgs fields args
  let id := r.size
  let r := r.push (.object ⟨metadata, t, fields, edges, decl.extends?⟩)
  let r := edges.foldl (fun r edge => r.noteImplementer id edge) r
  { r with types := r.types.insert t id }

/-- Declare an interface: it claims the fields and arguments that wait for
it. -/
def declareInterface (r : Registry) (t : HostType) (metadata : TypeMetadata) : Registry :=
  let fields := r.stagedOf t .field
  let args := r.stagedOf t .arg
  let r := (r.unstage t).attachArgs fields args
  let id := r.size
  let r := r.push (.interface ⟨metadata, t, fields, []⟩)
  { r with types := r.types.insert t id }

/-- Declare an input object: it claims the input fields that wait for it. -/
def declareInputObject (r : Registry) (c : InputConstructor) (metadata : TypeMetadata) :
    Registry :=
  let inputFields := r.stagedOf c.type .inputField
  let r := r.unstage c.type
  let id := r.size
  let r := r.push (.inputObject ⟨metadata, c.type, inputFields, c⟩)
  { r with types := r.types.insert c.type id }

/-- Declare an argument bundle: it claims the input fields that wait for
it. -/
def declareArgs (r : Registry) (c : InputConstructor) : Registry :=
  let inputFields := r.stagedOf c.type .inputField
  let r := r.unstage c.type
  let id := r.size
  let r := r.push (.args ⟨c.type, inputFields, c⟩)
  { r with args := r.args.insert c.type id }

end Registry

/-! ## Operations -/

namespace Declare

def check {α : Type} (f : Registry → Except SchemaError α) : RegistryM α := fun r =>
  match f r with
  | .ok a => .ok a r
  | .error e => .error e r

def object (t : HostType) (decl : ObjectDecl) : RegistryM NodeId := do
  check (·.checkUndeclared t)
  let metadata ← check fun _ => TypeMetadata.ofDecl t decl.name? decl.description
  let id := (← get).size
  modify (·.declareObject t decl metadata)
  return id

/-- An interface must not implement anything; the members that wait for it
are given up when it does. -/
def interface (t : HostType) (decl : TypeDecl) : RegistryM NodeId := do
  check (·.checkUndeclared t)
  let metadata ← check fun _ => TypeMetadata.ofDecl t decl.name? decl.description
  if (← get).stagedOf t .implement ≠ [] then
    modify (·.unstage t)
    throw (.notAnObject metadata.name)
  let id := (← get).size
  modify (·.declareInterface t metadata)
  return id

def inputObject (c : InputConstructor) (decl : TypeDecl) : RegistryM NodeId := do
  check (·.checkUndeclared c.type)
  let metadata ← check fun _ => TypeMetadata.ofDecl c.type decl.name? decl.description
  let id := (← get).size
  modify (·.declareInputObject c metadata)
  return id

def args (c : InputConstructor) : RegistryM NodeId := do
  if (← get).args.contains c.type then
    throw (.alreadyDeclared c.type.shortName)
  let id := (← get).size
  modify (·.declareArgs c)
  return id

/-- Put a node into the waiting room of its host type. -/
def stage (n : Node) : RegistryM NodeId := do
  let id := (← get).size
  modify (·.stage n.type n)
  return id

def field (t : HostType) (decl : FieldDecl) : RegistryM NodeId := do
  check fun _ => checkName decl.name
  stage (.field ⟨t, decl, []⟩)

def inputField (t : HostType) (decl : InputDecl) : RegistryM NodeId := do
  check fun _ => checkName decl.name
  stage (.inputField ⟨t, decl⟩)

/-- Whether an argument for this field is waiting already. -/
def argIsStaged (r : Registry) (t : HostType) (field : String) : Bool :=
  (r.staged t).any fun id =>
    match (r.node id).arg? with
    | some a => a.field = field
    | none => false

/-- A field takes one single argument. -/
def arg (t : HostType) (field : String) (decl : InputDecl) : RegistryM NodeId := do
  check fun _ => checkName decl.name
  if argIsStaged (← get) t field then
    throw (.duplicateArg t.shortName field)
  stage (.arg ⟨t, field, decl⟩)

def implement (t : HostType) (interface : HostType) : RegistryM NodeId := do
  let id ← check (·.getNode interface)
  if ((← get).node id).isInterface then
    stage (.implement ⟨t, id⟩)
  else
    throw (.notAnInterface t.shortName interface.shortName)

/-! ## Whole types -/

inductive Member where
  | field (decl : FieldDecl)
  | inputField (decl : InputDecl)
  | arg (field : String) (decl : InputDecl)
  | implements (interface : HostType)

def member (t : HostType) : Member → RegistryM NodeId
  | .field decl => field t decl
  | .inputField decl => inputField t decl
  | .arg f decl => arg t f decl
  | .implements interface => implement t interface

/-- Stage members in order, up to the first that fails. -/
def members (t : HostType) : List Member → RegistryM Unit
  | [] => pure ()
  | m :: rest => do
    let _ ← member t m
    members t rest

end Declare

end SchemaGraph
