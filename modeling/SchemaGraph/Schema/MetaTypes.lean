import SchemaGraph.Schema.Basic

/-!
# The types of a schema's description

A schema that may be asked about itself has eight types besides the declared
ones, in which it describes itself, and its query root has two more fields that
lead there. All of their names are reserved, but nothing keeps a declared type
from taking one: it then stands in the place of the type of that name. The other
types are only there because the one that describes the schema refers to them,
so they go with it.
-/

set_option autoImplicit false

namespace SchemaGraph

/-- The fields of a type, each with the name of the type it leads to. -/
abbrev FieldTargets := List (String × String)

/-- A type in which schemas describe themselves. -/
structure MetaType where
  name : String
  kind : NamedKind
  fields : FieldTargets
deriving Repr

namespace MetaType

def schemaName : String := "__Schema"

def typeName : String := "__Type"

def all : List MetaType := [
  ⟨schemaName, .object, [("description", "String"), ("types", typeName),
    ("queryType", typeName), ("mutationType", typeName), ("subscriptionType", typeName),
    ("directives", "__Directive")]⟩,
  ⟨typeName, .object, [("kind", "__TypeKind"), ("name", "String"), ("description", "String"),
    ("fields", "__Field"), ("interfaces", typeName), ("possibleTypes", typeName),
    ("enumValues", "__EnumValue"), ("inputFields", "__InputValue"), ("ofType", typeName),
    ("specifiedByURL", "String"), ("isOneOf", "Boolean")]⟩,
  ⟨"__TypeKind", .enum, []⟩,
  ⟨"__Field", .object, [("name", "String"), ("description", "String"),
    ("args", "__InputValue"), ("type", typeName), ("isDeprecated", "Boolean"),
    ("deprecationReason", "String")]⟩,
  ⟨"__InputValue", .object, [("name", "String"), ("description", "String"),
    ("type", typeName), ("defaultValue", "String"), ("isDeprecated", "Boolean"),
    ("deprecationReason", "String")]⟩,
  ⟨"__EnumValue", .object, [("name", "String"), ("description", "String"),
    ("isDeprecated", "Boolean"), ("deprecationReason", "String")]⟩,
  ⟨"__Directive", .object, [("name", "String"), ("description", "String"),
    ("locations", "__DirectiveLocation"), ("args", "__InputValue"),
    ("isRepeatable", "Boolean")]⟩,
  ⟨"__DirectiveLocation", .enum, []⟩]

end MetaType

/-- The fields of the query root that lead to the description. -/
def metaFields : FieldTargets :=
  [("__schema", MetaType.schemaName), ("__type", MetaType.typeName)]

namespace Schema

/-- Whether the type has the fields that lead to the description. -/
def describesItselfOn (s : Schema) (type : String) : Bool :=
  s.config.introspection && type = s.query

/-- The type of the description under a name, as far as the schema has it. -/
def metaType? (s : Schema) (name : String) : Option MetaType :=
  if s.config.introspection && (s.find? MetaType.schemaName).isNone then
    MetaType.all.find? (·.name = name)
  else none

/-- The kind of the type of a name, declared or not. -/
def kind? (s : Schema) (name : String) : Option NamedKind :=
  match s.find? name with
  | some t => some t.kind
  | none => (s.metaType? name).map (·.kind)

def targetsOf (fields : OrderedMap String CompiledField) : FieldTargets :=
  fields.values.map fun f => (f.name, f.typeRef.coreName)

/-- The fields that queries may ask of the type of a name, if there is one. A
union has none. -/
def fieldTargets? (s : Schema) (name : String) : Option FieldTargets :=
  match s.find? name with
  | some (.object o) =>
    some (targetsOf o.fields ++ if s.describesItselfOn name then metaFields else [])
  | some (.interface i) => some (targetsOf i.fields)
  | some _ => some []
  | none => (s.metaType? name).map (·.fields)

end Schema

end SchemaGraph
