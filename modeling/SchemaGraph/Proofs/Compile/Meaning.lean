import SchemaGraph.Compile.Types

/-!
# What compilation means

The compiler answers from caches that it fills on the way, in whatever order it
is asked. What it answers does not depend on any of that: types refer to each
other by name, so a compiled type can be read off the registry alone, one type
at a time and without compiling another. This file says what that reading is,
definition by definition beside the compiler's own, with the same checks and
without the state.

A reading can succeed where the compiler fails, because the compiler also has
to get through everything the type leads to. It cannot differ from what the
compiler answers, which is what the invariant of the caches says.
-/

set_option autoImplicit false

namespace SchemaGraph.Meaning

theorem bind_eq_ok {α β : Type} {x : Except SchemaError α} {f : α → Except SchemaError β}
    {b : β} : (x >>= f) = .ok b ↔ ∃ a, x = .ok a ∧ f a = .ok b := by
  cases x with
  | ok a =>
      constructor
      · intro h
        exact ⟨a, rfl, h⟩
      · rintro ⟨_, ha, h⟩
        cases ha
        exact h
  | error e =>
      constructor
      · intro h
        cases h
      · rintro ⟨_, ha, -⟩
        cases ha

theorem map_eq_ok {α β : Type} {x : Except SchemaError α} {f : α → β} {b : β} :
    x.map f = .ok b ↔ ∃ a, x = .ok a ∧ f a = b := by
  cases x with
  | ok a => simp [Except.map]
  | error e => simp [Except.map]

/-! ## References -/

/-- The dispatch table of an interface. -/
def interfaceDispatch (r : Registry) (id : NodeId) : Except SchemaError Dispatch :=
  (r.implementers id).map fun implementers =>
    ⟨(r.node id).displayName, .interface,
      implementers.map fun i => ((r.node i).type, (r.node i).displayName)⟩

/-- A reference to a declared type. -/
def node (r : Registry) (id : NodeId) : Except SchemaError CompiledRef :=
  let typeRef := TypeRef.named (r.node id).displayName
  match r.node id with
  | .object _ => .ok ⟨typeRef, .object, none, none⟩
  | .interface _ =>
    (interfaceDispatch r id).map fun d => ⟨typeRef, .interface, none, some d⟩
  | .inputObject _ => .ok ⟨typeRef, .inputObject, none, none⟩
  | n => .error (.typeNotFound n.displayName)

/-- The members of a union with their names, and the objects that extend them
with the name of the member they extend. -/
def unionMembers (r : Registry) :
    List HostType → Except SchemaError (List (HostType × String) × List (HostType × String))
  | [] => .ok ([], [])
  | t :: rest => do
    let id ← r.getNode t
    let name := (r.node id).displayName
    if (r.node id).isObject then
      let extending ← r.descendants id
      let (members, descendants) ← unionMembers r rest
      return ((t, name) :: members,
        extending.map (fun o => ((r.node o).type, name)) ++ descendants)
    else .error (.notAnObject name)

/-- A union type. -/
def union (r : Registry) (d : UnionDef) : Except SchemaError CompiledUnion :=
  (unionMembers r d.members).map fun (members, descendants) =>
    ⟨d.name, d.description, members.map (·.2), ⟨d.name, .union, members ++ descendants⟩⟩

/-- A type expression. -/
def expr (r : Registry) (nonNull : Bool) : TypeExpr → Except SchemaError CompiledRef
  | .ref t => do
    let id ← r.getNode t
    return Compile.require (← node r id) nonNull false
  | .scalar d => .ok (Compile.require ⟨.named d.name, .scalar, d.hook?, none⟩ nonNull false)
  | .enum d => .ok (Compile.require ⟨.named d.name, .enum, some d.encode, none⟩ nonNull false)
  | .union d => do
    let u ← union r d
    return Compile.require ⟨.named d.name, .union, none, some u.dispatch⟩ nonNull false
  | .list item => do
    let c ← expr r true item
    return Compile.require ⟨.list c.typeRef, c.kind, (TypeExpr.list item).hook?, c.dispatch?⟩
      nonNull false
  | .nullable inner => do
    let c ← expr r false inner
    return { c with hook? := (TypeExpr.nullable inner).hook? }

/-- A linked type expression. -/
def link (r : Registry) (l : Link) (nonNull : Bool) : Except SchemaError CompiledRef :=
  match l with
  | .node id => (node r id).map fun c => Compile.require c nonNull false
  | .given t => expr r nonNull t

/-- The type of a field. -/
def output (r : Registry) (l : Link) (nonNull : Bool) (owner field : String) :
    Except SchemaError CompiledRef := do
  let c ← link r l nonNull
  if c.kind.isOutput then return c else .error (.notOutputType owner field)

/-- The type of an argument or an input field. -/
def input (r : Registry) (l : Link) (nonNull : Bool) (owner field : String) :
    Except SchemaError CompiledRef := do
  let c ← link r l nonNull
  if c.kind.isInput then return c else .error (.notInputType owner field)

/-! ## Shapes of inputs -/

def nodeShape (r : Registry) (id : NodeId) : ValueShape :=
  if (r.node id).isInputObject then .input id else .plain

def exprShape (r : Registry) : TypeExpr → Except SchemaError ValueShape
  | .ref t => (r.getNode t).map (nodeShape r)
  | .scalar _ => .ok .plain
  | .enum d => .ok (.enum d)
  | .union _ => .ok .plain
  | .list item => (exprShape r item).map .list
  | .nullable inner => exprShape r inner

def linkShape (r : Registry) : Link → Except SchemaError ValueShape
  | .node id => .ok (nodeShape r id)
  | .given t => exprShape r t

def fieldShapes (r : Registry) : List NodeId → Except SchemaError (List InputFieldShape)
  | [] => .ok []
  | id :: rest => do
    let field ← r.linkInput id
    let shape ← linkShape r field.type
    let rest ← fieldShapes r rest
    return ⟨field.decl.name, shape, field.decl.default?⟩ :: rest

/-- The shape of an input object or an argument bundle. -/
def shape (r : Registry) (id : NodeId) : Except SchemaError InputObjectShape :=
  match (r.node id).inputFields?, (r.node id).constructor? with
  | some inputFields, some constructor =>
    (fieldShapes r inputFields).map fun fields =>
      ⟨(r.node id).displayName, fields, constructor⟩
  | _, _ => .error (.typeNotFound (r.node id).displayName)

/-! ## Fields -/

/-- Input fields, owned by `owner`, stored after `compiled`. -/
def inputs (r : Registry) (owner : String) :
    List NodeId → OrderedMap String CompiledInput →
    Except SchemaError (OrderedMap String CompiledInput)
  | [], compiled => .ok compiled
  | id :: rest, compiled => do
    let field ← r.linkInput id
    let name := field.decl.name
    let c ← input r field.type true owner name
    inputs r owner rest
      (compiled.insert name ⟨name, field.decl.description, c.typeRef, field.decl.default?⟩)

/-- How a single argument is materialized. -/
def argMapping (r : Registry) (arg : LinkedArg) : Except SchemaError ArgumentMapping :=
  match arg.type with
  | .node id =>
    .ok (if (r.node id).isInputObject then .instance arg.decl.name id
      else .raw arg.decl.name .plain)
  | .given t => (exprShape r t).map (.raw arg.decl.name)

/-- The input fields of an argument bundle. -/
def bundleFields (r : Registry) (id : NodeId) : List NodeId :=
  (r.node id).inputFields?.getD []

/-- The arguments of a field, and how they are materialized. -/
def arguments (r : Registry) (owner : String) (field : LinkedField) :
    Except SchemaError (OrderedMap String CompiledInput × ArgumentMapping) :=
  match field.arg?, field.args? with
  | some _, some _ => .error (.argAndArgs owner field.decl.name)
  | some arg, none => do
    let name := arg.decl.name
    let c ← input r arg.type true owner name
    let mapping ← argMapping r arg
    return (OrderedMap.ofList
      [(name, ⟨name, arg.decl.description, c.typeRef, arg.decl.default?⟩)], mapping)
  | none, some id => do
    let compiled ← inputs r (r.node id).type.shortName (bundleFields r id) ∅
    return (compiled, .bundle id)
  | none, none => .ok (∅, .none)

/-- A field of the type `owner`. -/
def field (r : Registry) (owner : String) (id : NodeId) :
    Except SchemaError CompiledField := do
  let f ← r.linkField id
  let c ← output r f.type true owner f.decl.name
  let (args, mapping) ← arguments r owner f
  return {
    name := f.decl.name
    description := f.decl.description
    deprecation := f.decl.deprecation
    typeRef := c.typeRef
    args
    resolver := ⟨f.decl.name, f.decl.resolver?, c.hook?, mapping, c.dispatch?, r.lineage⟩ }

/-- Fields, owned by `owner`, stored after `compiled`. -/
def fields (r : Registry) (owner : String) :
    List NodeId → OrderedMap String CompiledField →
    Except SchemaError (OrderedMap String CompiledField)
  | [], compiled => .ok compiled
  | id :: rest, compiled => do
    let f ← field r owner id
    fields r owner rest (compiled.insert f.name f)

/-! ## Declared types -/

/-- The declarations that count for an object with this chain. -/
def objectFieldIds (r : Registry) (chain : List NodeId) : List NodeId :=
  (Compile.chosenFields r chain (Compile.chainInterfaces r chain)).values

/-- The interfaces and fields of an object. -/
def objectBody (r : Registry) (id : NodeId) :
    Except SchemaError (List String × OrderedMap String CompiledField) := do
  let chain ← r.chain id
  let compiled ← fields r (r.node id).displayName (objectFieldIds r chain) ∅
  return ((Compile.chainInterfaces r chain).map fun i => (r.node i).displayName, compiled)

def object (r : Registry) (id : NodeId) : Except SchemaError CompiledObject :=
  match r.node id with
  | .object n =>
    (objectBody r id).map fun (interfaces, fields) =>
      ⟨n.metadata.name, n.metadata.description, interfaces, fields⟩
  | n => .error (.notAnObject n.displayName)

def interface (r : Registry) (id : NodeId) : Except SchemaError CompiledInterface :=
  match r.node id with
  | .interface n => do
    let fields ← fields r n.metadata.name n.fields ∅
    let dispatch ← interfaceDispatch r id
    return ⟨n.metadata.name, n.metadata.description, fields, dispatch⟩
  | n => .error (.notAnInterface n.displayName n.displayName)

def inputObject (r : Registry) (id : NodeId) : Except SchemaError CompiledInputObject :=
  match r.node id with
  | .inputObject n =>
    (inputs r n.metadata.name n.inputFields ∅).map fun fields =>
      ⟨n.metadata.name, n.metadata.description, fields⟩
  | n => .error (.typeNotFound n.displayName)

/-- A declared type, as what it is. -/
def type (r : Registry) (id : NodeId) : Except SchemaError CompiledType :=
  match r.node id with
  | .object _ => (object r id).map .object
  | .interface _ => (interface r id).map .interface
  | .inputObject _ => (inputObject r id).map .inputObject
  | n => .error (.typeNotFound n.displayName)

end SchemaGraph.Meaning
