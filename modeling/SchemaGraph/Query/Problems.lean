import SchemaGraph.Query.Syntax
import SchemaGraph.Schema.MetaTypes
import SchemaGraph.Text.Similar

/-!
# What a query asks in vain

An operation needs a root to start from, and every fragment that is named has to
be there. Every field of a query has to be one of the type it is asked of, and
has subfields exactly if it leads to a type that has fields. What breaks these
rules is found by following the names of the types alone, before anything is
resolved.

Where a field is unknown, or leads to a name that is not a type, the fields below
it are asked of nothing, and only a fragment on a named type makes the search go
on there.
-/

set_option autoImplicit false

namespace SchemaGraph.Query

inductive Problem where
  /-- The schema has no root for operations of the kind. -/
  | noRoot (kind : OperationKind)
  /-- The document has no fragment of the name. -/
  | unknownFragment (name : String)
  /-- The type does not have the field; `similar` may have been meant. -/
  | unknown (field type : String) (similar : List String)
  /-- Subfields are asked of a type that has none. -/
  | noSubfields (field type : String)
  /-- No subfields are asked of a type that has some. -/
  | subfieldsMissing (field type : String)
deriving DecidableEq, Repr

namespace Problem

/-- The names that may have been meant. -/
def suggestion : List String → String
  | [] => ""
  | names =>
    " Did you mean " ++ ", ".intercalate (names.map fun n => s!"\"{n}\"") ++ "?"

def message : Problem → String
  | .noRoot kind => s!"Schema is not configured for {kind.keyword}s."
  | .unknownFragment name => s!"Unknown fragment: \"{name}\""
  | .unknown field type similar =>
    s!"Unknown field \"{field}\" on type \"{type}\"." ++ suggestion similar
  | .noSubfields field type =>
    s!"Field \"{field}\" must not have a selection since type \"{type}\" has no subfields"
  | .subfieldsMissing field type =>
    s!"Field \"{field}\" of type \"{type}\" must have a selection of subfields"

end Problem

/-- What is wrong with the subfields of a field that leads to the type `target`,
taken as a whole. -/
def subfieldProblem? (s : Schema) (field target : String) (selections : List Selection) :
    Option Problem :=
  match s.kind? target with
  | none => none
  | some kind =>
    if kind.isLeaf then
      if selections.isEmpty then none else some (.noSubfields field target)
    else if selections.isEmpty then some (.subfieldsMissing field target) else none

/-- The problem of a field asked of a type, if it has one. -/
def fieldProblem? (s : Schema) (type field : String) (selections : List Selection) :
    Option Problem :=
  (s.fieldTargets? type).bind fun fields =>
    match Entries.find? fields field with
    | none => some (.unknown field type (Text.similar field (fields.map (·.1))))
    | some target => subfieldProblem? s field target selections

/-- The name of the type that a field of the type `type` leads to. -/
def fieldTarget? (s : Schema) (type field : String) : Option String :=
  (s.fieldTargets? type).bind (Entries.find? · field)

mutual

/-- The problems of a selection that is made on a type, or on nothing, in the
order in which the query has them. `fragments` names those of the document. -/
def Selection.problems (s : Schema) (fragments : List String) (type? : Option String) :
    Selection → List Problem
  | .field _ name _ selections =>
    if isTypeName name then []
    else
      (type?.bind (fieldProblem? s · name selections)).toList
        ++ Selection.problemsIn s fragments (type?.bind (fieldTarget? s · name)) selections
  | .spread name => if fragments.contains name then [] else [.unknownFragment name]
  | .fragment condition? selections =>
    Selection.problemsIn s fragments (condition?.or type?) selections
termination_by structural selection => selection

def Selection.problemsIn (s : Schema) (fragments : List String) (type? : Option String) :
    List Selection → List Problem
  | [] => []
  | selection :: rest =>
    selection.problems s fragments type? ++ Selection.problemsIn s fragments type? rest
termination_by structural selections => selections

end

/-- The type that operations of a kind start from, if the schema has one. No
schema has one for subscriptions. -/
def rootName? (s : Schema) : OperationKind → Option String
  | .query => some s.query
  | .mutation => s.mutation?
  | .subscription => none

def Operation.problems (s : Schema) (fragments : List String) (o : Operation) : List Problem :=
  match rootName? s o.kind with
  | some root => Selection.problemsIn s fragments (some root) o.selections
  | none => [.noRoot o.kind]

/-- The problem that shows as soon as an operation is measured. -/
def Operation.rootProblem? (s : Schema) (o : Operation) : Option Problem :=
  match rootName? s o.kind with
  | some _ => none
  | none => some (.noRoot o.kind)

/-- The problems of a document: those of its fragments, each looked at once,
then those of its operations, and at last those of the measure, which looks for
the roots again. -/
def Document.problems (s : Schema) (d : Document) : List Problem :=
  let fragments := d.fragments.map (·.name)
  d.fragments.flatMap (fun f => Selection.problemsIn s fragments (some f.on) f.selections)
    ++ d.operations.flatMap (Operation.problems s fragments)
    ++ d.operations.filterMap (Operation.rootProblem? s)

end SchemaGraph.Query
