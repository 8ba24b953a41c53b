import SchemaGraph.Input.Shape

/-!
# Materializing arguments

Raw values are converted along their shape and handed to the constructor of the
type they are for. An input object keeps every key it was given; its declared
fields are converted by their own shapes, or get their default if they were
omitted. A null that was given stays null.
-/

set_option autoImplicit false

namespace SchemaGraph

/-- Complete an input object. `plain` are its entries as they are, `given`
converts the value of a key by a shape; fields declared later overwrite what
earlier ones of the same name left. -/
def InputObjectShape.fill (shape : InputObjectShape) (plain : List (String × Json))
    (given : List (String × (ValueShape → Json))) : List (String × Json) :=
  shape.fields.foldl
    (fun entries f =>
      match Entries.find? given f.name, f.default? with
      | some convert, _ => Entries.insert f.name (convert f.shape) entries
      | none, some d => Entries.insert f.name d entries
      | none, none => entries)
    plain

namespace Value

mutual

/-- The value as a document, converted along a shape. -/
def toJsonAs (table : ShapeTable) : Value → ValueShape → Json
  | .enum name, .enum d => d.decode name
  | .str name, .enum d => d.decode name
  | .list items, .list item => .arr (toJsonAsItems table items item)
  | .obj entries, .input id =>
    match table.filled? id with
    | some shape =>
      .obj (shape.fill (toJsonEntries entries) (toJsonAsEntries table entries))
    | none => .obj (toJsonEntries entries)
  | v, _ => v.toJson
termination_by structural v => v

def toJsonAsItems (table : ShapeTable) : List Value → ValueShape → List Json
  | [], _ => []
  | v :: rest, item => toJsonAs table v item :: toJsonAsItems table rest item
termination_by structural items => items

/-- For every entry, how its value is converted. -/
def toJsonAsEntries (table : ShapeTable) :
    List (String × Value) → List (String × (ValueShape → Json))
  | [] => []
  | (k, v) :: rest => (k, toJsonAs table v) :: toJsonAsEntries table rest
termination_by structural entries => entries

end

end Value

def InputObjectShape.build (table : ShapeTable) (id : NodeId) (shape : InputObjectShape)
    (v : Value) : Except SchemaError HostValue :=
  match shape.constructor.construct (v.toJsonAs table (.input id)) with
  | .ok built => .ok built
  | .error cause => .error (.inputConstruction shape.name cause)

/-- The value of an argument; null if it is not given. -/
def argumentOf (raw : Value) (name : String) : Value := (raw.get? name).getD .null

/-- The raw arguments of a field as its resolver sees them. -/
def ArgumentMapping.materialize (table : ShapeTable) (raw : Value) :
    ArgumentMapping → Except SchemaError Arguments
  | .none => .ok .none
  | .raw name shape =>
    .ok (.raw (Value.ofJson ((argumentOf raw name).toJsonAs table shape)))
  | .instance name id =>
    match argumentOf raw name with
    | .null => .ok .none
    | v =>
      match table.filled? id with
      | .some shape => (shape.build table id v).map .instance
      | .none => .error (.typeNotFound name)
  | .bundle id =>
    match table.filled? id with
    | .some shape => (shape.build table id raw).map .instance
    | .none => .error (.typeNotFound "args")

end SchemaGraph
