import SchemaGraph.Schema.Bundle

/-!
# Schemas

A schema is a bundle whose types have been put under their names, the last one
of a name counting, and found to fit together. Every schema has five scalars
besides; a type of the bundle may not take the name of one.

The types fit together if every name that is referred to exists and is of a
kind that may stand in that place, every object has fields, no field or
argument has a reserved name, every object offers what its interfaces promise,
and no input object requires itself.
-/

set_option autoImplicit false

namespace SchemaGraph

structure Schema where
  query : String
  mutation? : Option String
  /-- The types of the bundle by name. -/
  types : OrderedMap String CompiledType
  config : SchemaConfig
  shapes : ShapeTable

namespace Schema

def find? (s : Schema) (name : String) : Option CompiledType :=
  if h : name ∈ builtinScalars then some (.scalar (.builtinNamed name h))
  else s.types.find? name

def object? (s : Schema) (name : String) : Option CompiledObject :=
  (s.find? name).bind (·.object?)

/-! ## Conditions -/

def isReserved (name : String) : Bool := ['_', '_'].isPrefixOf name.toList

/-- Whether what `a` refers to may stand where `b` is promised. -/
def subtype : TypeRef → TypeRef → Bool
  | .nonNull a, .nonNull b => subtype a b
  | a, .nonNull b => subtype a b
  | .named a, .named b => a = b
  | .list a, .list b => subtype a b
  | _, _ => false

def refersToOutput (s : Schema) (t : TypeRef) : Bool :=
  match s.find? t.coreName with
  | some t => t.kind.isOutput
  | none => false

def refersToInput (s : Schema) (t : TypeRef) : Bool :=
  match s.find? t.coreName with
  | some t => t.kind.isInput
  | none => false

def inputFits (s : Schema) (i : CompiledInput) : Bool :=
  !isReserved i.name && s.refersToInput i.typeRef

def fieldFits (s : Schema) (f : CompiledField) : Bool :=
  !isReserved f.name && s.refersToOutput f.typeRef && f.args.values.all s.inputFits

/-- Whether a field of an object offers what the interface promises: every
argument, and a type that may stand for the promised one. An argument the object
does not have must not be required. -/
def fulfils (own promised : CompiledField) : Bool :=
  promised.args.values.all (fun arg =>
      match own.args.find? arg.name with
      | some ownArg => subtype arg.typeRef ownArg.typeRef
      | none => !arg.typeRef.isNonNull)
    && subtype own.typeRef promised.typeRef

def implementsInterface (s : Schema) (o : CompiledObject) (name : String) : Bool :=
  match s.find? name with
  | some (.interface i) =>
    i.fields.values.all fun promised =>
      match o.fields.find? promised.name with
      | some own => fulfils own promised
      | none => false
  | _ => false

/-- The types that an input object cannot do without. -/
def requiredInputs (s : Schema) (name : String) : List String :=
  match s.find? name with
  | some (.inputObject t) =>
    t.fields.values.filterMap fun f =>
      match f.typeRef with
      | .nonNull (.named n) => some n
      | _ => none
  | _ => []

/-- What is required from `names` on, in so many steps. -/
def requiredWithin (s : Schema) : Nat → List String → List String
  | 0, names => names
  | steps + 1, names =>
    requiredWithin s steps (names ++ names.flatMap s.requiredInputs).eraseDups

def requiresItself (s : Schema) (name : String) : Bool :=
  (s.requiredWithin s.types.size (s.requiredInputs name)).contains name

def typeFits (s : Schema) : CompiledType → Bool
  | .object t =>
    !t.fields.isEmpty && t.fields.values.all s.fieldFits
      && t.interfaces.all (s.implementsInterface t)
  | .interface t => t.fields.values.all s.fieldFits
  | .inputObject t => t.fields.values.all s.inputFits && !s.requiresItself t.name
  | .union t => t.possibleTypes.all fun name => (s.object? name).isSome
  | .enum _ => true
  | .scalar _ => true

/-- Why the types do not fit together, if they do not. -/
def defect? (s : Schema) : Option String :=
  if s.types.keys.any builtinScalars.contains then
    some "a type has the name of a built-in scalar"
  else if (s.object? s.query).isNone then some "the query root is not an object"
  else if s.mutation?.any fun name => (s.object? name).isNone then
    some "the mutation root is not an object"
  else
    (s.types.values.find? fun t => !s.typeFits t).map fun t =>
      s!"the type '{t.name}' does not fit"

def ofBundle (b : SchemaBundle) : Except SchemaError Schema :=
  let s : Schema :=
    { query := b.query.name
      mutation? := b.mutation?.map (·.name)
      types := .ofList (b.definitions.map fun t => (t.name, t))
      config := b.config
      shapes := b.shapes }
  match s.defect? with
  | some reason => .error (.schemaRejected reason)
  | none => .ok s

end Schema

end SchemaGraph
