import SchemaGraph.Compile.Requests
import SchemaGraph.Declared.Reachability
import SchemaGraph.Config

/-!
# Assembling a schema

A bundle holds the compiled roots and everything compiled with them. The types
that cannot be reached from the roots are compiled too, since interfaces and
unions may answer them.
-/

set_option autoImplicit false

namespace SchemaGraph

structure SchemaRoots where
  query : HostType
  mutation? : Option HostType := none
deriving DecidableEq, Repr

structure SchemaBundle where
  query : CompiledObject
  mutation? : Option CompiledObject
  /-- The types that are not reached from the roots. -/
  types : List CompiledType
  /-- Every compiled type, the roots included. -/
  definitions : List CompiledType
  config : SchemaConfig
  shapes : ShapeTable

namespace Registry

/-- The node of a root, which must be an object. -/
def rootNode (r : Registry) (root : String) (t : HostType) : Except SchemaError NodeId :=
  match r.getNode t with
  | .error e => .error e
  | .ok id =>
    if (r.node id).isObject then .ok id
    else .error (.invalidRoot root (r.node id).displayName)

/-- The node of the mutation root, if there is one. -/
def mutationNode? (r : Registry) : Option HostType → Except SchemaError (Option NodeId)
  | some t => (r.rootNode "Mutation" t).map some
  | none => .ok none

/-- Whether members or arguments were left over, if that is an error. -/
def checkOrphans (r : Registry) (config : SchemaConfig) : Except SchemaError Unit :=
  if config.rejectOrphans then
    if !r.orphanedTypes.isEmpty then
      .error (.orphanedDeclarations (r.orphanedTypes.map (·.shortName)))
    else if !r.orphanedArgs.isEmpty then .error (.orphanedArgs r.orphanedArgs)
    else .ok ()
  else .ok ()

end Registry

def Compile.object? (r : Registry) : Option NodeId → CompileM (Option CompiledObject)
  | some id => some <$> Compile.object r id
  | none => pure none

namespace SchemaBundle

/-- Compile the roots, then whatever they do not lead to. -/
def assemble (r : Registry) (roots : SchemaRoots) (config : SchemaConfig) :
    CompileM SchemaBundle := do
  Compile.lift config.validate
  Compile.lift (r.checkOrphans config)
  let queryId ← Compile.lift (r.rootNode "Query" roots.query)
  let mutationId? ← Compile.lift (r.mutationNode? roots.mutation?)
  let query ← Compile.object r queryId
  let mutation? ← Compile.object? r mutationId?
  let unreachable ← Compile.lift (r.unreachable (queryId :: mutationId?.toList))
  let types ← unreachable.mapM fun id => Compile.namedType r (.node id)
  let s ← get
  return ⟨query, mutation?, types, s.definitions, config, s.shapes⟩

def ofRegistry (r : Registry) (roots : SchemaRoots) (config : SchemaConfig) :
    Except SchemaError SchemaBundle :=
  match assemble r roots config {} with
  | .ok bundle _ => .ok bundle
  | .error e _ => .error e

/-- The first compiled type of a name. -/
def find? (b : SchemaBundle) (name : String) : Option CompiledType :=
  b.definitions.find? fun t => t.name = name

end SchemaBundle

end SchemaGraph
