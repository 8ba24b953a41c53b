import SchemaGraph.Host.Value
import SchemaGraph.Value.Basic

/-!
# Instances

An instance is a host value as fields answer it. Its type decides which object
type stands for it. Fields without a resolver of their own read its serialized
form; a sealed instance has none, and neither has a value that cannot be
serialized.
-/

set_option autoImplicit false

namespace SchemaGraph

structure Instance where
  value : HostValue
  /-- The serialized form, if there is one. -/
  form? : Option Json
deriving Repr, Inhabited

namespace Instance

/-- An instance that only resolvers of the host can read. -/
def sealed (v : HostValue) : Instance := ⟨v, none⟩

def type (i : Instance) : HostType := i.value.type

/-- Whether the value is of exactly this type. -/
def isA (i : Instance) (t : HostType) : Bool := i.value.type = t

/-- A property of the serialized form, which must be an object. -/
def property? (i : Instance) (name : String) : Option Value :=
  i.form?.bind fun form => (form.get? name).map Value.ofJson

end Instance

end SchemaGraph
