import SchemaGraph.Declared.Registry

/-!
# Linked declarations

What a field, an argument or an input field means once its type expressions
are linked to declared nodes. Linking can fail: the type may be missing or
undeclared, and arguments may be declared in ways that contradict each other.
-/

set_option autoImplicit false

namespace SchemaGraph

/-- A type expression whose outermost reference is linked. -/
inductive Link where
  | node (id : NodeId)
  | given (t : TypeExpr)

structure LinkedArg where
  decl : InputDecl
  type : Link

structure LinkedField where
  decl : FieldDecl
  type : Link
  args? : Option NodeId
  arg? : Option LinkedArg

structure LinkedInput where
  decl : InputDecl
  type : Link

namespace Registry

def link (r : Registry) : TypeExpr → Except SchemaError Link
  | .ref t => (r.getNode t).map .node
  | t => .ok (.given t)

/-- The argument node attached to a field; of several the first. -/
def attachedArg? (r : Registry) (n : FieldNode) : Option ArgNode :=
  n.args.head?.bind fun id => (r.node id).arg?

/-- The bundle of arguments of a field; it must not be empty. -/
def linkArgs (r : Registry) : Option HostType → Except SchemaError (Option NodeId)
  | none => .ok none
  | some t => do
    let id ← r.getArgsNode t
    if ((r.node id).inputFields?.getD []).isEmpty then .error (.noArgsFound t.shortName)
    else .ok (some id)

/-- The single argument of a field; both its type and its declaration are
needed. -/
def linkArg (r : Registry) (owner field : String) (type? : Option TypeExpr)
    (node? : Option ArgNode) : Except SchemaError (Option LinkedArg) :=
  match type?, node? with
  | some t, some n => (r.link t).map fun link => some ⟨n.decl, link⟩
  | some _, none => .error (.missingArg owner field)
  | none, some _ => .error (.missingType owner field)
  | none, none => .ok none

/-- The type of a single argument: from the field, else from the argument. -/
def argType? (n : FieldNode) (arg? : Option ArgNode) : Option TypeExpr :=
  n.decl.arg?.or (arg?.bind (·.decl.type?))

def linkField (r : Registry) (id : NodeId) : Except SchemaError LinkedField :=
  match r.node id with
  | .field n => do
    let owner := r.ownerName n.type
    let type ← match n.decl.type? with
      | some t => r.link t
      | none => .error (.missingType owner n.decl.name)
    let arg? := r.attachedArg? n
    let argType? := argType? n arg?
    if n.decl.args?.isSome ∧ (argType?.isSome ∨ arg?.isSome) then
      .error (.argAndArgs owner n.decl.name)
    let args? ← r.linkArgs n.decl.args?
    let arg? ← r.linkArg owner n.decl.name argType? arg?
    return ⟨n.decl, type, args?, arg?⟩
  | n => .error (.typeNotFound n.displayName)

def linkInput (r : Registry) (id : NodeId) : Except SchemaError LinkedInput :=
  match r.node id with
  | .inputField n =>
    match n.decl.type? with
    | some t => (r.link t).map fun link => ⟨n.decl, link⟩
    | none => .error (.missingType (r.ownerName n.type) n.decl.name)
  | n => .error (.typeNotFound n.displayName)

end Registry

end SchemaGraph
