import SchemaGraph.Compile.Reference
import SchemaGraph.Compile.InputShape

/-!
# Compiling declared types

An object implements every interface that is implemented somewhere on its
chain, and it has the fields of those interfaces, of its ancestors and its own;
the nearer declaration replaces the farther one, and between interfaces the one
implemented first wins. Compiling an interface compiles its implementers too,
since its fields may answer any of them.

Compiling a type leads to the types it mentions. `compileWithin` ties the knot:
a node that is in progress is passed over, and every other node is marked while
the types it leads to are compiled, so the nesting is never deeper than there
are nodes.
-/

set_option autoImplicit false

namespace SchemaGraph

namespace Compile

/-- Compile input fields, owned by `owner`; a later one replaces an earlier one
of its name. -/
def inputs (r : Registry) (enter : NodeId → CompileM Unit) (owner : String) :
    List NodeId → OrderedMap String CompiledInput →
    CompileM (OrderedMap String CompiledInput)
  | [], compiled => return compiled
  | id :: rest, compiled => do
    let field ← lift (r.linkInput id)
    let name := field.decl.name
    let c ← inputLink r enter field.type true owner name
    inputs r enter owner rest
      (compiled.insert name ⟨name, field.decl.description, c.typeRef, field.decl.default?⟩)

/-- How a single argument is materialized: an input object is built into a host
value, everything else is passed by value. -/
def argMapping (r : Registry) (arg : LinkedArg) : CompileM ArgumentMapping := do
  let byValue : CompileM ArgumentMapping :=
    return .raw arg.decl.name (← valueShape r arg.type)
  match arg.type with
  | .node id =>
    if (r.node id).isInputObject then
      inputShape r id
      return .instance arg.decl.name id
    else byValue
  | .given _ => byValue

/-- Compile the arguments of a field, and how they are materialized. -/
def arguments (r : Registry) (enter : NodeId → CompileM Unit) (owner : String)
    (field : LinkedField) :
    CompileM (OrderedMap String CompiledInput × ArgumentMapping) := do
  match field.arg?, field.args? with
  | some _, some _ => throw (.argAndArgs owner field.decl.name)
  | some arg, none =>
    let name := arg.decl.name
    let c ← inputLink r enter arg.type true owner name
    let mapping ← argMapping r arg
    return (OrderedMap.ofList
      [(name, ⟨name, arg.decl.description, c.typeRef, arg.decl.default?⟩)], mapping)
  | none, some id =>
    let n := r.node id
    let inputFields := n.inputFields?.getD []
    if inputFields.isEmpty then throw (.noArgsFound n.type.shortName)
    let compiled ← inputs r enter n.type.shortName inputFields ∅
    inputShape r id
    return (compiled, .bundle id)
  | none, none => return (∅, .none)

def field (r : Registry) (enter : NodeId → CompileM Unit) (owner : String) (id : NodeId) :
    CompileM CompiledField := do
  let f ← lift (r.linkField id)
  let c ← outputLink r enter f.type true owner f.decl.name
  let (args, mapping) ← arguments r enter owner f
  return {
    name := f.decl.name
    description := f.decl.description
    deprecation := f.decl.deprecation
    typeRef := c.typeRef
    args
    resolver := ⟨f.decl.name, f.decl.resolver?, c.hook?, mapping, c.dispatch?, r.lineage⟩ }

/-- Compile fields, owned by `owner`; a later one replaces an earlier one of its
name. -/
def fields (r : Registry) (enter : NodeId → CompileM Unit) (owner : String) :
    List NodeId → OrderedMap String CompiledField →
    CompileM (OrderedMap String CompiledField)
  | [], compiled => return compiled
  | id :: rest, compiled => do
    let f ← field r enter owner id
    fields r enter owner rest (compiled.insert f.name f)

/-! ## Objects -/

/-- The interfaces implemented along a chain, in the order in which they are
met first. -/
def chainInterfaces (r : Registry) (chain : List NodeId) : List NodeId :=
  let edges := chain.flatMap fun id =>
    match (r.node id).object? with
    | some n => n.implementEdges
    | none => []
  edges.foldl
    (fun found edge =>
      match (r.node edge).implement? with
      | some e => if found.contains e.interface then found else found ++ [e.interface]
      | none => found)
    []

/-- Add the fields in `ids` by their names, giving way to what is there. -/
def offerFields (r : Registry) (chosen : OrderedMap String NodeId) (ids : List NodeId) :
    OrderedMap String NodeId :=
  ids.foldl
    (fun chosen id =>
      match (r.node id).memberName? with
      | some name => chosen.insertNew name id
      | none => chosen)
    chosen

/-- Add the fields in `ids` by their names, replacing what is there. -/
def overrideFields (r : Registry) (chosen : OrderedMap String NodeId)
    (ids : List NodeId) : OrderedMap String NodeId :=
  ids.foldl
    (fun chosen id =>
      match (r.node id).memberName? with
      | some name => chosen.insert name id
      | none => chosen)
    chosen

def interfaceFields (r : Registry) (id : NodeId) : List NodeId :=
  match (r.node id).interface? with
  | some n => n.fields
  | none => []

def objectFields (r : Registry) (id : NodeId) : List NodeId :=
  match (r.node id).object? with
  | some n => n.fields
  | none => []

/-- The field declarations that count for an object with this chain and these
interfaces. -/
def chosenFields (r : Registry) (chain interfaces : List NodeId) :
    OrderedMap String NodeId :=
  let offered := interfaces.foldl (fun m id => offerFields r m (interfaceFields r id)) ∅
  chain.reverse.foldl (fun m id => overrideFields r m (objectFields r id)) offered

def interfaceNames (r : Registry) (enter : NodeId → CompileM Unit) :
    List NodeId → CompileM (List String)
  | [] => return []
  | id :: rest => do
    let _ ← nodeRef r enter id
    let names ← interfaceNames r enter rest
    return (r.node id).displayName :: names

def objectBody (r : Registry) (enter : NodeId → CompileM Unit) (id : NodeId) :
    CompileM (List String × OrderedMap String CompiledField) := do
  let chain ← lift (r.chain id)
  let interfaces := chainInterfaces r chain
  let chosen := chosenFields r chain interfaces
  let names ← interfaceNames r enter interfaces
  let compiled ← fields r enter (r.node id).displayName chosen.values ∅
  return (names, compiled)

def objectWith (r : Registry) (enter : NodeId → CompileM Unit) (id : NodeId) :
    CompileM CompiledObject := do
  match (← get).objects.find? id with
  | some compiled => return compiled
  | none =>
    match r.node id with
    | .object n =>
      let (interfaces, fields) ← inProgress id (objectBody r enter id)
      let compiled : CompiledObject :=
        ⟨n.metadata.name, n.metadata.description, interfaces, fields⟩
      keepObject id compiled
      return compiled
    | n => throw (.notAnObject n.displayName)

/-! ## Interfaces and input objects -/

/-- Compile an interface, keep it, and then compile every implementer. -/
def interfaceWith (r : Registry) (enter : NodeId → CompileM Unit) (id : NodeId) :
    CompileM CompiledInterface := do
  match (← get).interfaces.find? id with
  | some compiled => return compiled
  | none =>
    match r.node id with
    | .interface n =>
      let fields ← inProgress id (fields r enter n.metadata.name n.fields ∅)
      let dispatch ← interfaceDispatch r id
      let compiled : CompiledInterface :=
        ⟨n.metadata.name, n.metadata.description, fields, dispatch⟩
      keepInterface id compiled
      let implementers ← lift (r.implementers id)
      implementers.forM enter
      return compiled
    | n => throw (.notAnInterface n.displayName n.displayName)

def inputObjectWith (r : Registry) (enter : NodeId → CompileM Unit) (id : NodeId) :
    CompileM CompiledInputObject := do
  match (← get).inputObjects.find? id with
  | some compiled => return compiled
  | none =>
    match r.node id with
    | .inputObject n =>
      let fields ← inProgress id (inputs r enter n.metadata.name n.inputFields ∅)
      let compiled : CompiledInputObject :=
        ⟨n.metadata.name, n.metadata.description, fields⟩
      keepInputObject id compiled
      return compiled
    | n => throw (.typeNotFound n.displayName)

/-! ## Tying the knot -/

/-- Compile a node unless it is compiled or being compiled, at most `depth`
others inside each other. -/
def compileWithin (r : Registry) : Nat → NodeId → CompileM Unit
  | 0, id => throw (.endless (r.node id).displayName)
  | depth + 1, id => do
    if (← get).inProgress.contains id then return
    match r.node id with
    | .object _ => discard (objectWith r (compileWithin r depth) id)
    | .interface _ => discard (interfaceWith r (compileWithin r depth) id)
    | .inputObject _ => discard (inputObjectWith r (compileWithin r depth) id)
    | n => throw (.typeNotFound n.displayName)

/-- Compile a node unless it is compiled or being compiled. -/
def enter (r : Registry) (id : NodeId) : CompileM Unit := compileWithin r (r.size + 1) id

end Compile

end SchemaGraph
