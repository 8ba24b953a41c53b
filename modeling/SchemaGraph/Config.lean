import SchemaGraph.Error

/-!
# Configuration

Limits on queries, whether a schema may be asked about itself, and whether
declarations that no type claimed are an error. Both limits must be positive.
-/

set_option autoImplicit false

namespace SchemaGraph

structure SchemaConfig where
  maxDepth : Nat := 15
  maxComplexity : Nat := 500
  introspection : Bool := true
  rejectOrphans : Bool := true
deriving DecidableEq, Repr, Inhabited

namespace SchemaConfig

/-- How a configuration is written; every key is optional. -/
def record : RecordShape where
  name := "SchemaConfig"
  fields := [
    ⟨"max_depth", .size, some (.num (.int 15))⟩,
    ⟨"max_complexity", .size, some (.num (.int 500))⟩,
    ⟨"introspection", .bool, some (.bool true)⟩,
    ⟨"reject_orphaned_declarations", .bool, some (.bool true)⟩]
  closed := false

def natAt (j : Json) (key : String) : Nat :=
  match j.get? key with
  | some (.num (.int i)) => i.toNat
  | _ => 0

def boolAt (j : Json) (key : String) : Bool :=
  match j.get? key with
  | some (.bool b) => b
  | _ => false

def ofJson (j : Json) : Except DecodeError SchemaConfig :=
  (Shape.decode [record] j (.record record.name)).map fun j =>
    { maxDepth := natAt j "max_depth"
      maxComplexity := natAt j "max_complexity"
      introspection := boolAt j "introspection"
      rejectOrphans := boolAt j "reject_orphaned_declarations" }

/-- The first limit that is not positive, if any. -/
def validate (config : SchemaConfig) : Except SchemaError Unit :=
  if config.maxDepth = 0 then .error (.invalidConfig "schema.max_depth must be > 0")
  else if config.maxComplexity = 0 then
    .error (.invalidConfig "schema.max_complexity must be > 0")
  else .ok ()

end SchemaConfig

end SchemaGraph
