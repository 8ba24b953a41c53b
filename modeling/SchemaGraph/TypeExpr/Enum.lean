import SchemaGraph.Resolved
import SchemaGraph.OrderedMap
import SchemaGraph.Text.Words

/-!
# Enum types

An enum gives names to internal values. Resolvers answer internal values, which
are turned into names on the way out; arguments carry names, which are turned
back into internal values on the way in.
-/

set_option autoImplicit false

namespace SchemaGraph

structure EnumValue where
  name : String
  internal : Json
  description : Option String
  deprecation : Option String
deriving Repr, Inhabited

structure EnumDef where
  name : String
  description : Option String
  values : List EnumValue
deriving Repr, Inhabited

/-- The case that keys are brought into. -/
inductive EnumCase where
  | pascal
  | constant
deriving DecidableEq, Repr

def EnumCase.apply : EnumCase → String → String
  | .pascal, key => Text.pascalCase key
  | .constant, key => Text.constantCase key

/-- What may be said about one value beyond its key. -/
structure EnumRemark where
  description : Option String := none
  deprecation : Option String := none
deriving Repr, Inhabited

namespace EnumDef

/-- The values in order; a remark goes to the first value with its key. -/
def buildValues (case : Option EnumCase) :
    OrderedMap String EnumRemark → List (String × Json) → List EnumValue
  | _, [] => []
  | remarks, (key, internal) :: rest =>
    let remark := (remarks.find? key).getD {}
    { name := match case with
        | some c => c.apply key
        | none => key
      internal
      description := remark.description
      deprecation := remark.deprecation } :: buildValues case (remarks.erase key) rest

/-- The enum declared by keys with their internal values. Of several remarks on
a key the last one counts. -/
def build (name : String) (description : Option String) (case : Option EnumCase)
    (keys : List (String × Json)) (remarks : List (String × EnumRemark)) : EnumDef :=
  ⟨name, description, buildValues case (.ofList remarks) keys⟩

/-- The name of an internal value. -/
def nameOf? (d : EnumDef) (internal : Json) : Option String :=
  (d.values.find? fun v => v.internal.same internal).map (·.name)

/-- The internal value of a name. -/
def internalOf? (d : EnumDef) (name : String) : Option Json :=
  (d.values.find? fun v => v.name = name).map (·.internal)

/-- The way in: the internal value of a name, or the name as a text. -/
def decode (d : EnumDef) (name : String) : Json := (d.internalOf? name).getD (.str name)

/-- The way out: an internal value becomes its name. Null and what is no
internal value stay as they are. -/
def encode (d : EnumDef) : Resolved → Resolved
  | .value .null => .null
  | .value v =>
    match d.nameOf? v.toJson with
    | some name => .value (.enum name)
    | none => .value v
  | r => r

end EnumDef

end SchemaGraph
