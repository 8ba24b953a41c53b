import SchemaGraph.Declared.Registry

/-!
# Ancestors and implementers

An object type may extend another one, which may extend a third. The chain of
an object lists itself and its ancestors, nearest first; it exists only if
every link leads to a declared object and no object comes twice. From the
chains follow the descendants of an object and the implementers of an
interface.
-/

set_option autoImplicit false

namespace SchemaGraph

namespace Registry

/-- The chain from `id` on; `seen` holds the objects met on the way, `id`
included. Each step meets a declared node that was not seen before, so as many
steps as there are declared nodes are enough. -/
def chainFrom (r : Registry) : Nat → List NodeId → NodeId → Except SchemaError (List NodeId)
  | steps, seen, id =>
    match r.node id with
    | .object n =>
      match n.extends? with
      | none => .ok [id]
      | some link =>
        match r.getNode link.parent with
        | .error e => .error e
        | .ok parent =>
          if seen.contains parent then .error (.inheritanceCycle n.metadata.name)
          else
            match steps with
            | 0 => .error (.endless n.metadata.name)
            | steps + 1 =>
              match chainFrom r steps (parent :: seen) parent with
              | .error e => .error e
              | .ok chain => .ok (id :: chain)
    | n => .error (.notAnObject n.displayName)

/-- An object and its ancestors, nearest first. -/
def chain (r : Registry) (id : NodeId) : Except SchemaError (List NodeId) :=
  r.chainFrom (r.types.size + r.args.size) [id] id

/-- The objects that extend `id`, directly or through others, in the order of
their declaration. -/
def descendants (r : Registry) (id : NodeId) : Except SchemaError (List NodeId) :=
  r.objects.filterMapM fun o =>
    if o = id then .ok none
    else
      match r.chain o with
      | .error e => .error e
      | .ok chain => .ok (if chain.contains id then some o else none)

/-- The objects on whose chain one of `direct` lies, apart from `direct`. -/
def inheritors (r : Registry) (direct : List NodeId) : Except SchemaError (List NodeId) :=
  r.objects.filterMapM fun o =>
    if direct.contains o then .ok none
    else
      match r.chain o with
      | .error e => .error e
      | .ok chain => .ok (if chain.any direct.contains then some o else none)

/-- The objects that implement an interface: first those that say so, then
those that inherit from one of them. -/
def implementers (r : Registry) (id : NodeId) : Except SchemaError (List NodeId) :=
  match r.node id with
  | .interface n =>
    match r.inheritors n.implementers with
    | .error e => .error e
    | .ok more => .ok (n.implementers ++ more)
  | n => .error (.notAnInterface n.displayName n.displayName)

def lineage (r : Registry) : Lineage :=
  r.schemaTypes.foldl
    (fun lineage id =>
      match r.node id with
      | .object n =>
        match n.extends? with
        | some link => lineage.insert n.type link
        | none => lineage
      | _ => lineage)
    ∅

end Registry

end SchemaGraph
