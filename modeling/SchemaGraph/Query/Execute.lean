import SchemaGraph.Query.Flaw
import SchemaGraph.Query.Introspection
import SchemaGraph.Query.Parser
import SchemaGraph.Query.Problems

/-!
# Answering queries

The selected fields are resolved one after the other and completed by their
types. A field that fails is left out of its object and its error is noted; an
object of which nothing is left is null. Errors found while completing say where
in the response they arose, those of resolvers do not.

Before anything is resolved a query with a flaw is refused, and the others are
measured, all operations of a query together: too many levels of braces, too many
fields or too deep a nesting of fields is refused, in this order, and so is a
query that then turns out to ask for fields in vain, and last one that has
several operations.
-/

set_option autoImplicit false

namespace SchemaGraph.Query

inductive PathSegment where
  | key (name : String)
  | index (i : Nat)
deriving DecidableEq, Repr

structure QueryError where
  message : String
  path : List PathSegment
deriving DecidableEq, Repr, Inhabited

structure Response where
  data : Value
  errors : List QueryError
deriving Repr

structure Request where
  query : String
  root? : Option Instance := none
  context? : Option HostValue := none
  vars : Json := .null

/-- Resolving and completing: may fail, and notes errors as it goes. -/
abbrev ExecM := EStateM QueryError (List QueryError)

/-- What execution looks at besides the query. -/
structure Env where
  schema : Schema
  root? : Option Instance
  context? : Option HostValue
  vars : String → Option Value

/-- An error that completing a value gives rise to. -/
def internalError (path : List PathSegment) (text : String) : QueryError :=
  ⟨"internal: " ++ text, path⟩

/-! ## Completing values -/

/-- What an object type answers for a value. -/
abbrev Container := CompiledObject → FieldValue → List PathSegment → ExecM Value

/-- Complete the elements of a list, numbered from `i` on. -/
def completeItems (complete : List PathSegment → FieldValue → ExecM Value)
    (path : List PathSegment) : Nat → List FieldValue → ExecM (List Value)
  | _, [] => return []
  | i, v :: rest => do
    let v ← complete (path ++ [.index i]) v
    let rest ← completeItems complete path (i + 1) rest
    return v :: rest

/-- A name as a value of an enum. -/
def completeEnum (d : EnumDef) (path : List PathSegment) (name : String) : ExecM Value :=
  if d.values.any (·.name = name) then return .enum name
  else throw (internalError path s!"invalid item for enum \"{d.name}\"")

/-- Complete a value that is tagged with the object type that stands for it. -/
def completeTagged (s : Schema) (container : Container) (path : List PathSegment)
    (v : FieldValue) (object : String) : ExecM Value :=
  match s.object? object with
  | some o => container o v path
  | none => throw (internalError path s!"object \"{object}\" not registered")

/-- Complete a value by the named type `name`. -/
def completeNamed (s : Schema) (container : Container) (path : List PathSegment)
    (name : String) (v : FieldValue) : ExecM Value :=
  match s.find? name, v with
  | some (.object o), v => container o v path
  | some (.scalar _), .value v => return v
  | some (.scalar d), _ =>
    throw (internalError path
      s!"invalid value for scalar \"{d.name}\", expected \"FieldValue::Value\"")
  | some (.enum d), .value (.enum name) => completeEnum d path name
  | some (.enum d), .value (.str name) => completeEnum d path name
  | some (.enum d), _ => throw (internalError path s!"invalid item for enum \"{d.name}\"")
  | some (.interface t), .tagged i object =>
    if (s.object? object).any (·.interfaces.contains t.name) then
      completeTagged s container path (.instance i) object
    else
      throw (internalError path
        s!"object \"{object}\" does not implement interface \"{t.name}\"")
  | some (.interface t), _ =>
    throw (internalError path
      s!"invalid value for interface \"{t.name}\", expected \"FieldValue::WithType\"")
  | some (.union t), .tagged i object =>
    if t.possibleTypes.contains object then
      completeTagged s container path (.instance i) object
    else
      throw (internalError path s!"union \"{t.name}\" does not contain object \"{object}\"")
  | some (.union t), _ =>
    throw (internalError path
      s!"invalid value for union \"{t.name}\", expected \"FieldValue::WithType\"")
  | some (.inputObject t), _ =>
    throw (internalError path s!"cannot use input object \"{t.name}\" as output value")
  | none, _ => throw (internalError path s!"type \"{name}\" not registered")

/-- Complete a value by its type. Lists want lists; whether a value is required
makes no difference. -/
def complete (s : Schema) (container : Container) :
    TypeRef → List PathSegment → FieldValue → ExecM Value
  | .named name, path, v => completeNamed s container path name v
  | .nonNull inner, path, v => complete s container inner path v
  | .list item, path, .list items =>
    .list <$> completeItems (complete s container item) path 0 items
  | .list item, path, .value (.list items) =>
    .list <$> completeItems (complete s container item) path 0 (items.map .value)
  | .list _, path, _ => throw (internalError path "expects an array")

/-! ## Resolving fields -/

/-- What a root field is asked of. -/
def rootParent (env : Env) : Parent := env.root?.elim .none .instance

/-- What a field of an object is asked of. Null and whatever else is neither an
instance nor a plain value is taken for the root. -/
def parentOf (env : Env) : FieldValue → Parent
  | .instance i => .instance i
  | .value .null => rootParent env
  | .value v => .value v
  | .tagged _ _ => rootParent env
  | .list _ => rootParent env

/-- The arguments that are given. -/
def givenArguments (env : Env) (args : List (String × Literal)) :
    ExecM (List (String × Value)) :=
  match Literal.evalEntries env.vars args with
  | .ok given => return Entries.ofList given
  | .error e => throw ⟨e.message, []⟩

/-- The arguments with the defaults of those that are not given. -/
def withDefaults (f : CompiledField) (given : List (String × Value)) : Value :=
  .obj (f.args.values.foldl
    (fun es i =>
      match i.default? with
      | some d => if (Entries.find? given i.name).isSome then es
          else Entries.insert i.name (Value.ofJson d) es
      | none => es)
    given)

/-- The answer of a field on its way into the response. -/
def fieldAnswer (env : Env) (f : CompiledField) (parent : FieldValue)
    (args : List (String × Literal)) : ExecM FieldValue := do
  let raw := withDefaults f (← givenArguments env args)
  match f.resolver.resolve env.schema.shapes (parentOf env parent) raw env.context? with
  | .error e => throw ⟨e.message, []⟩
  | .ok r =>
    match f.resolver.fieldValue r with
    | .error e => throw ⟨e.message, []⟩
    | .ok v => return v

/-- Note the error of a failing computation; it has no result then. -/
def noting {α : Type} (x : ExecM α) : ExecM (Option α) := fun errors =>
  match x errors with
  | .ok a errors => .ok (some a) errors
  | .error e errors => .ok none (errors ++ [e])

/-! ## Resolving selections -/

/-- Whether a fragment applies to an object type. -/
def applies (o : CompiledObject) : Option String → Bool
  | none => true
  | some t => t = o.name || o.interfaces.contains t

mutual

/-- The entries that a selection on an object adds. -/
def runSelection (env : Env) (o : CompiledObject) (parent : FieldValue)
    (path : List PathSegment) : Selection → ExecM (List (String × Value))
  | .field key name args selections =>
    if isTypeName name then return [(key, .str o.name)]
    else if env.schema.describesItselfOn o.name && isMetaField name then do
      let answer ← noting do
        let given ← givenArguments env args
        return describe env.schema selections (metaDescription env.schema name given)
      return (answer.map fun v => (key, v)).toList
    else
      match o.fields.find? name with
      | none => return []
      | some f => do
        let path := path ++ [.key key]
        let container : Container := fun o v path => do
          let entries ← runSelections env o v path selections
          return if entries.isEmpty then .null else objectOf entries
        let answer ← noting do
          let v ← fieldAnswer env f parent args
          complete env.schema container f.typeRef path v
        return (answer.map fun v => (key, v)).toList
  | .fragment condition? selections =>
    if applies o condition? then runSelections env o parent path selections else return []
  | .spread _ => return []
termination_by structural s => s

def runSelections (env : Env) (o : CompiledObject) (parent : FieldValue)
    (path : List PathSegment) : List Selection → ExecM (List (String × Value))
  | [] => return []
  | s :: rest => do
    let entries ← runSelection env o parent path s
    let more ← runSelections env o parent path rest
    return entries ++ more
termination_by structural selections => selections

end

/-- The answer of an object to selections: null if nothing is left. -/
def runObject (env : Env) (o : CompiledObject) (parent : FieldValue)
    (selections : List Selection) : ExecM Value := do
  let entries ← runSelections env o parent [] selections
  return if entries.isEmpty then .null else objectOf entries

/-! ## Requests -/

/-- The value of a variable of an operation: what is given, else what it has when
nothing is given. -/
def variableValue (o : Operation) (given : Json) (name : String) : Option Value :=
  (o.vars.find? (·.name = name)).bind fun v =>
    match given.get? name, v.fallback? with
    | some j, _ => some (.ofJson j)
    | none, some l => (l.eval fun _ => none).toOption
    | none, none => none

/-- A response that only says why there is none. -/
def refused (text : String) : Response := ⟨.null, [⟨text, []⟩]⟩

/-- How deep braces may be nested below those of an operation, those of its
fragments included, whatever the configuration says. -/
def maxLevels : Nat := 32

/-- Why a document without flaw is not answered, if it is not. Operations without
a root have no fields to count. -/
def refusal? (s : Schema) (d : Document) : Option Response :=
  let rooted := d.operations.filter fun o => (rootName? s o.kind).isSome
  let problems := d.problems s
  if maxLevels < Selection.levelsIn (d.operations.flatMap d.inlined) then
    some (refused s!"The recursion depth of the query cannot be greater than `{maxLevels}`")
  else if s.config.maxComplexity < Selection.fieldCounts (rooted.flatMap d.inlined) then
    some (refused "Query is too complex.")
  else if s.config.maxDepth < Selection.depths (rooted.flatMap d.inlined) then
    some (refused "Query is nested too deep.")
  else if problems.isEmpty then none
  else some ⟨.null, problems.map fun p => ⟨p.message, []⟩⟩

def runOperation (s : Schema) (request : Request) (d : Document) (o : Operation) :
    Response :=
  match (rootName? s o.kind).bind s.object? with
  | none => refused (Problem.noRoot o.kind).message
  | some root =>
    let env : Env :=
      ⟨s, request.root?, request.context?, variableValue o request.vars⟩
    match runObject env root .null (d.inlined o) [] with
    | .ok data errors => ⟨data, errors⟩
    | .error e errors => ⟨.null, errors ++ [e]⟩

def runDocument (s : Schema) (request : Request) (d : Document) : Response :=
  match d.flaw?, refusal? s d, d.operations with
  | some flaw, _, _ => refused flaw.message
  | none, some response, _ => response
  | none, none, [o] => runOperation s request d o
  | none, none, _ => refused "Operation name required in request."

def execute (s : Schema) (request : Request) : Response :=
  match Document.ofString? request.query with
  | some d => runDocument s request d
  | none => refused "The query cannot be read."

end SchemaGraph.Query
