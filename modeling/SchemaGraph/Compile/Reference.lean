import SchemaGraph.Compile.State

/-!
# Compiling type expressions

A type expression becomes a reference by name under list and non-null
modifiers, together with its output hook and, for interfaces and unions, its
dispatch table. On the way every type it mentions gets compiled: `enter` does
that for declared types, the others are kept here under their names.
-/

set_option autoImplicit false

namespace SchemaGraph

namespace Compile

/-- The dispatch table of an interface: its implementers. -/
def interfaceDispatch (r : Registry) (id : NodeId) : CompileM Dispatch := do
  match (← get).dispatches.find? id with
  | some d => return d
  | none =>
    let implementers ← lift (r.implementers id)
    let d : Dispatch :=
      ⟨(r.node id).displayName, .interface,
        implementers.map fun i => ((r.node i).type, (r.node i).displayName)⟩
    keepDispatch id d
    return d

def nodeRef (r : Registry) (enter : NodeId → CompileM Unit) (id : NodeId) :
    CompileM CompiledRef := do
  let n := r.node id
  let typeRef := TypeRef.named n.displayName
  match n with
  | .object _ =>
    enter id
    return ⟨typeRef, .object, none, none⟩
  | .interface _ =>
    enter id
    return ⟨typeRef, .interface, none, some (← interfaceDispatch r id)⟩
  | .inputObject _ =>
    enter id
    return ⟨typeRef, .inputObject, none, none⟩
  | n => throw (.typeNotFound n.displayName)

/-- Keep a custom scalar, unless something of its name is kept. -/
def keepScalar (d : ScalarDef) : CompileM Unit := do
  if !d.builtin ∧ !(← get).given.contains d.name then
    lift (checkName d.name)
    keepGiven (.scalar d)

/-- Keep an enum, unless something of its name is kept. -/
def keepEnum (d : EnumDef) : CompileM Unit := do
  if !(← get).given.contains d.name then
    lift (checkName d.name)
    lift (d.values.forM fun v => checkName v.name)
    keepGiven (.enum d)

/-- The members of a union with their names, and the objects that extend them
with the name of the member they extend. Members are compiled on the way. -/
def unionMembers (r : Registry) (enter : NodeId → CompileM Unit) :
    List HostType → CompileM (List (HostType × String) × List (HostType × String))
  | [] => return ([], [])
  | t :: rest => do
    let id ← lift (r.getNode t)
    let n := r.node id
    if !n.isObject then throw (.notAnObject n.displayName)
    enter id
    let name := n.displayName
    let extending ← lift (r.descendants id)
    let (members, descendants) ← unionMembers r enter rest
    return ((t, name) :: members,
      extending.map (fun o => ((r.node o).type, name)) ++ descendants)

/-- The dispatch table of a union: its members, then the objects that extend
them. A union may be met again with the same members only. -/
def unionDispatch (r : Registry) (enter : NodeId → CompileM Unit) (d : UnionDef) :
    CompileM Dispatch := do
  let s ← get
  match s.given.find? d.name with
  | some (.union kept) =>
    if s.unionMembers.find? d.name = some d.members then return kept.dispatch
    else throw (.nameCollision d.name)
  | some _ => throw (.nameCollision d.name)
  | none =>
    lift (checkName d.name)
    let (members, descendants) ← unionMembers r enter d.members
    let dispatch : Dispatch := ⟨d.name, .union, members ++ descendants⟩
    modify fun s => { s with unionMembers := s.unionMembers.insert d.name d.members }
    keepGiven (.union ⟨d.name, d.description, members.map (·.2), dispatch⟩)
    return dispatch

/-- Make a reference required, unless its type is nullable. -/
def require (c : CompiledRef) (nonNull nullable : Bool) : CompiledRef :=
  if nonNull ∧ !nullable then { c with typeRef := .nonNull c.typeRef } else c

def expr (r : Registry) (enter : NodeId → CompileM Unit) (nonNull : Bool) :
    TypeExpr → CompileM CompiledRef
  | .ref t => do
    let id ← lift (r.getNode t)
    return require (← nodeRef r enter id) nonNull false
  | .scalar d => do
    keepScalar d
    return require ⟨.named d.name, .scalar, d.hook?, none⟩ nonNull false
  | .enum d => do
    keepEnum d
    return require ⟨.named d.name, .enum, some d.encode, none⟩ nonNull false
  | .union d => do
    let dispatch ← unionDispatch r enter d
    return require ⟨.named d.name, .union, none, some dispatch⟩ nonNull false
  | .list item => do
    let c ← expr r enter true item
    return require ⟨.list c.typeRef, c.kind, (TypeExpr.list item).hook?, c.dispatch?⟩
      nonNull false
  | .nullable inner => do
    let c ← expr r enter false inner
    return { c with hook? := (TypeExpr.nullable inner).hook? }

def link (r : Registry) (enter : NodeId → CompileM Unit) (l : Link) (nonNull : Bool) :
    CompileM CompiledRef := do
  match l with
  | .node id => return require (← nodeRef r enter id) nonNull false
  | .given t => expr r enter nonNull t

/-- Compile the type of the field `owner.field`. -/
def outputLink (r : Registry) (enter : NodeId → CompileM Unit) (l : Link) (nonNull : Bool)
    (owner field : String) : CompileM CompiledRef := do
  let c ← link r enter l nonNull
  if c.kind.isOutput then return c else throw (.notOutputType owner field)

/-- Compile the type of the argument or input field `owner.field`. -/
def inputLink (r : Registry) (enter : NodeId → CompileM Unit) (l : Link) (nonNull : Bool)
    (owner field : String) : CompileM CompiledRef := do
  let c ← link r enter l nonNull
  if c.kind.isInput then return c else throw (.notInputType owner field)

end Compile

end SchemaGraph
