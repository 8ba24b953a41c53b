import SchemaGraph.Compiled.Dispatch
import SchemaGraph.Input.Materialize

/-!
# Resolving a field

A compiled field materializes its raw arguments, asks its resolver, or reads
the property of its name from the parent if it has none, and applies the output
hook of its type to the answer.
-/

set_option autoImplicit false

namespace SchemaGraph

structure FieldResolver where
  field : String
  explicit? : Option Resolver
  hook? : Option (Resolved → Resolved)
  arguments : ArgumentMapping
  dispatch? : Option Dispatch
  lineage : Lineage

namespace FieldResolver

def isExplicit (f : FieldResolver) : Bool := f.explicit?.isSome

def resolve (f : FieldResolver) (table : ShapeTable) (parent : Parent) (raw : Value)
    (context? : Option HostValue) : Except ResolveError Resolved :=
  match f.arguments.materialize table raw with
  | .error e => .error (.schema e)
  | .ok args =>
    let call : FieldCall := ⟨f.field, parent, args, context?, f.lineage⟩
    let answer : Except ResolveError Resolved :=
      match f.explicit? with
      | some resolver => resolver call
      | none => .ok (call.property f.field)
    match f.hook? with
    | some hook => answer.map hook
    | none => answer

/-- The answer on its way into the response. -/
def fieldValue (f : FieldResolver) (r : Resolved) : Except SchemaError FieldValue :=
  FieldValue.ofResolved f.dispatch? r

end FieldResolver

end SchemaGraph
