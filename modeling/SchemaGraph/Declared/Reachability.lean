import SchemaGraph.Declared.Metadata

/-!
# Reachable types

Starting from the roots, the walk follows fields, arguments, implements edges
and extends links, and collects the host types of the objects, interfaces and
input objects it meets. What it never meets must be handed to the schema all
the same, because interfaces and unions may answer it.

Only types are remembered. An argument bundle is walked again wherever it is
used, so a bundle that refers to itself through nothing but bundles keeps the
walk going for ever; the walk gives up on it.
-/

set_option autoImplicit false

namespace SchemaGraph

namespace Registry

/-- The host types met so far. -/
abbrev Seen := List HostType

/-- Walk the references of a type expression. `enter` walks a node. -/
def walkType (r : Registry) (enter : NodeId → Seen → Except SchemaError Seen) :
    TypeExpr → Seen → Except SchemaError Seen
  | .ref t, seen =>
    match r.getNode t with
    | .ok id => enter id seen
    | .error e => .error e
  | .scalar _, seen => .ok seen
  | .enum _, seen => .ok seen
  | .union d, seen =>
    d.members.foldlM
      (fun seen t =>
        match r.getNode t with
        | .ok id => enter id seen
        | .error e => .error e)
      seen
  | .list item, seen => walkType r enter item seen
  | .nullable inner, seen => walkType r enter inner seen

def walkLink (r : Registry) (enter : NodeId → Seen → Except SchemaError Seen) :
    Link → Seen → Except SchemaError Seen
  | .node id, seen => enter id seen
  | .given t, seen => r.walkType enter t seen

def walkReferences (r : Registry) (enter : NodeId → Seen → Except SchemaError Seen)
    (id : NodeId) (seen : Seen) : Except SchemaError Seen :=
  let enterAll (ids : List NodeId) (seen : Seen) : Except SchemaError Seen :=
    ids.foldlM (fun seen id => enter id seen) seen
  match r.node id with
  | .object n => do
    let seen ← enterAll n.fields seen
    let seen ← enterAll n.implementEdges seen
    match n.extends? with
    | none => return seen
    | some link => enter (← r.getNode link.parent) seen
  | .interface n => enterAll n.fields seen
  | .inputObject n => enterAll n.inputFields seen
  | .args n => enterAll n.inputFields seen
  | .field _ => do
    let field ← r.linkField id
    let seen ← r.walkLink enter field.type seen
    let seen ← match field.arg? with
      | some arg => r.walkLink enter arg.type seen
      | none => pure seen
    match field.args? with
    | some args => enter args seen
    | none => return seen
  | .inputField _ => do
    let field ← r.linkInput id
    r.walkLink enter field.type seen
  | .implement n => enter n.interface seen
  | .arg _ => .ok seen

/-- Walk from a node, no deeper than `depth`. -/
def walk (r : Registry) : Nat → NodeId → Seen → Except SchemaError Seen
  | 0, id, _ => .error (.endless (r.node id).displayName)
  | depth + 1, id, seen =>
    let n := r.node id
    if n.isSchemaType then
      if seen.contains n.type then .ok seen
      else r.walkReferences (r.walk depth) id (n.type :: seen)
    else r.walkReferences (r.walk depth) id seen

/-- A bound on how deep a walk goes that comes to an end: between two types met
for the first time no node is entered twice. -/
def walkDepth (r : Registry) : Nat := (r.size + 1) * (r.size + 2)

/-- The host types met from the roots. -/
def reachable (r : Registry) (roots : List NodeId) : Except SchemaError Seen :=
  roots.foldlM (fun seen id => r.walk r.walkDepth id seen) []

/-- The types that are not met from the roots, in the order of their
declaration. -/
def unreachable (r : Registry) (roots : List NodeId) : Except SchemaError (List NodeId) :=
  (r.reachable roots).map fun seen =>
    r.schemaTypes.filter fun id => !seen.contains (r.node id).type

end Registry

end SchemaGraph
