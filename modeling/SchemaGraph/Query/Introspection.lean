import SchemaGraph.Query.Merge
import SchemaGraph.Query.Syntax
import SchemaGraph.Schema.MetaTypes

/-!
# Asking a schema about itself

The query root has two fields that no declaration gives it, by which a query
asks about the schema as a whole or about the type of a name. The answers come
from the schema and not from resolvers, also where a declared type has taken the
name of one in which schemas describe themselves.
-/

set_option autoImplicit false

namespace SchemaGraph.Query

/-- What a question about the schema is asked of. -/
inductive Subject where
  | schema
  /-- The type of this name. -/
  | type (name : String)
deriving DecidableEq, Repr

/-- What a question about the schema leads to. -/
inductive Description where
  | value (v : Value)
  | subject (t : Subject)
deriving Repr

def kindText : NamedKind → String
  | .object => "OBJECT"
  | .interface => "INTERFACE"
  | .union => "UNION"
  | .inputObject => "INPUT_OBJECT"
  | .scalar => "SCALAR"
  | .enum => "ENUM"

/-- A type that may not be there. -/
def typeSubject : Option String → Description
  | some name => .subject (.type name)
  | none => .value .null

namespace Subject

def typeName : Subject → String
  | .schema => MetaType.schemaName
  | .type _ => MetaType.typeName

/-- What a field of the subject leads to. A type that is asked about is always a
named one, so it has a name and is not made of another. -/
def answer? (s : Schema) : Subject → String → Option Description
  | .schema, "queryType" => some (typeSubject (some s.query))
  | .schema, "mutationType" => some (typeSubject s.mutation?)
  | .schema, "subscriptionType" => some (typeSubject none)
  | .schema, "description" => some (.value .null)
  | .type name, "name" => some (.value (.str name))
  | .type name, "kind" => (s.kind? name).map fun kind => .value (.enum (kindText kind))
  | .type name, "description" =>
    some (.value (((s.find? name).bind (·.description)).elim .null .str))
  | .type _, "ofType" => some (typeSubject none)
  | _, _ => none

/-- Whether a fragment applies to the subject. -/
def satisfies (s : Schema) (subject : Subject) : Option String → Bool
  | none => true
  | some condition =>
    condition = subject.typeName
      || (s.object? subject.typeName).any (·.interfaces.contains condition)

end Subject

mutual

/-- The answers that a selection on a subject adds. -/
def describeSelection (s : Schema) (subject : Subject) : Selection → List (String × Value)
  | .field key name _ selections =>
    if isTypeName name then [(key, .str subject.typeName)]
    else
      match subject.answer? s name with
      | some (.value v) => [(key, v)]
      | some (.subject t) => [(key, objectOf (describeSelections s t selections))]
      | none => []
  | .spread _ => []
  | .fragment condition? selections =>
    if subject.satisfies s condition? then describeSelections s subject selections else []
termination_by structural selection => selection

def describeSelections (s : Schema) (subject : Subject) :
    List Selection → List (String × Value)
  | [] => []
  | selection :: rest =>
    describeSelection s subject selection ++ describeSelections s subject rest
termination_by structural selections => selections

end

def isMetaField (name : String) : Bool := metaFields.any (·.1 = name)

/-- What a field of the query root that asks about the schema leads to. -/
def metaDescription (s : Schema) (field : String) (args : List (String × Value)) :
    Description :=
  match field, Entries.find? args "name" with
  | "__schema", _ => .subject .schema
  | _, some (.str name) => typeSubject ((some name).filter fun n => (s.kind? n).isSome)
  | _, _ => .value .null

/-- The answer to selections on what a field leads to. -/
def describe (s : Schema) (selections : List Selection) : Description → Value
  | .value v => v
  | .subject t => objectOf (describeSelections s t selections)

end SchemaGraph.Query
