import SchemaGraph.Json.Basic
import SchemaGraph.Text.Quoted

/-!
# Shapes of host data

How a host type is read from a document: scalars must be of their kind and in
range, optional data may be null, records name their fields and give defaults
for some of them. Reading either yields the document in full, defaults filled
in, or the first problem met.

A record is written as an object or as a sequence. The entries of an object are
read in the order of their keys; a required field that is missing is only
reported after them, in the order of declaration. The elements of a sequence
are the fields in the order of declaration: it may stop early where all the
fields left have defaults, and may not go on after the last field.
-/

set_option autoImplicit false

namespace SchemaGraph

inductive Shape where
  /-- Any document, kept as it is. -/
  | any
  | string
  | bool
  /-- A signed integer of 32 bits. -/
  | int32
  /-- A floating point number; integers are converted. -/
  | float64
  /-- An unsigned integer of 64 bits. -/
  | size
  | option (inner : Shape)
  | seq (item : Shape)
  /-- A record described under this name. -/
  | record (name : String)
deriving DecidableEq, Repr, Inhabited

/-- A field of a record. Without a default the field is required. -/
structure RecordField where
  name : String
  shape : Shape
  default? : Option Json
deriving Repr, Inhabited

/-- A record. A closed record refuses keys it does not declare. -/
structure RecordShape where
  name : String
  fields : List RecordField
  closed : Bool
deriving Repr, Inhabited

/-- The records that shapes may refer to. -/
abbrev Records := List RecordShape

def Records.find? (records : Records) (name : String) : Option RecordShape :=
  List.find? (·.name = name) records

/-- Why a document does not fit. -/
inductive DecodeError where
  | missingField (name : String)
  | unknownField (name : String) (known : List String)
  | invalidType (found : Json) (expected : Shape)
  | outOfRange (found : Int) (expected : Shape)
  /-- A sequence stops before a required field: its position and the record. -/
  | tooShort (position : Nat) (record : RecordShape)
  /-- A sequence of this length goes on after the last field. -/
  | tooLong (length : Nat)
  /-- A refusal in the words of the type's own reader. -/
  | refused (text : String)
deriving Repr, Inhabited

namespace Shape

/-- The shape that a document other than null has to fit. -/
def core : Shape → Shape
  | .option inner => core inner
  | s => s

def acceptsNull : Shape → Bool
  | .option _ => true
  | .any => true
  | _ => false

/-- What a document of this shape is called. -/
def expectation : Shape → String
  | .any => "any value"
  | .string => "a string"
  | .bool => "a boolean"
  | .int32 => "i32"
  | .float64 => "f64"
  | .size => "usize"
  | .option inner => expectation inner
  | .seq _ => "a sequence"
  | .record name => "struct " ++ name

end Shape

/-- What a document that does not fit is called. -/
def Json.description : Json → String
  | .null => "null"
  | .bool b => s!"boolean `{b}`"
  | .num (.int i) => s!"integer `{i}`"
  | .num (.float f) => s!"floating point `{f.render}`"
  | .str s => "string " ++ Text.quoted s
  | .arr _ => "sequence"
  | .obj _ => "map"

namespace DecodeError

/-- A choice of names: one, two, or a list. -/
def choice (names : List String) : String :=
  match names.map fun n => s!"`{n}`" with
  | [] => "there are no fields"
  | [a] => s!"expected {a}"
  | [a, b] => s!"expected {a} or {b}"
  | all => "expected one of " ++ ", ".intercalate all

/-- What a sequence that stands for a record is called. -/
def sequenceExpectation (record : RecordShape) : String :=
  match record.fields.length with
  | 1 => s!"struct {record.name} with 1 element"
  | count => s!"struct {record.name} with {count} elements"

def message : DecodeError → String
  | .missingField name => s!"missing field `{name}`"
  | .unknownField name known => s!"unknown field `{name}`, {choice known}"
  | .invalidType found expected =>
    s!"invalid type: {found.description}, expected {expected.expectation}"
  | .outOfRange found expected =>
    s!"invalid value: integer `{found}`, expected {expected.expectation}"
  | .tooShort position record =>
    s!"invalid length {position}, expected {sequenceExpectation record}"
  | .tooLong length => s!"invalid length {length}, expected fewer elements in array"
  | .refused text => text

end DecodeError

namespace Shape

def decodeNumber (shape : Shape) (n : Number) : Except DecodeError Json :=
  match shape.core, n with
  | .any, n => .ok (.num n)
  | .int32, .int i =>
    if -(powTwo 31 : Int) ≤ i ∧ i < powTwo 31 then .ok (.num n) else .error (.outOfRange i .int32)
  | .size, .int i =>
    if 0 ≤ i ∧ i < powTwo 64 then .ok (.num n) else .error (.outOfRange i .size)
  | .float64, .int i =>
    .ok (.num (.float ((Binary64.ofInt? i).getD Binary64.zero)))
  | .float64, .float _ => .ok (.num n)
  | expected, n => .error (.invalidType (.num n) expected)

/-- The fields of a record in order: what was read, else the default. -/
def complete (read : List (String × Json)) :
    List RecordField → Except DecodeError (List (String × Json))
  | [] => .ok []
  | f :: rest =>
    match Entries.find? read f.name, f.default? with
    | some j, _ => (complete read rest).map ((f.name, j) :: ·)
    | none, some j => (complete read rest).map ((f.name, j) :: ·)
    | none, none => .error (.missingField f.name)

/-- The fields of a record that a sequence does not reach, from `position` on:
their defaults. -/
def defaultsFrom (layout : RecordShape) (position : Nat) :
    List RecordField → Except DecodeError (List (String × Json))
  | [] => .ok []
  | f :: rest =>
    match f.default? with
    | some j => (defaultsFrom layout (position + 1) rest).map ((f.name, j) :: ·)
    | none => .error (.tooShort position layout)

/-- The fields of a record that a sequence of `length` elements stands for, once
the elements were read. -/
def completeSequence (layout : RecordShape) (length : Nat) (read : List (String × Json)) :
    Except DecodeError (List (String × Json)) :=
  if layout.fields.length < length then .error (.tooLong length)
  else (defaultsFrom layout length (layout.fields.drop length)).map (read ++ ·)

mutual

def decode (records : Records) : Json → Shape → Except DecodeError Json
  | .null, shape =>
    if shape.acceptsNull then .ok .null else .error (.invalidType .null shape)
  | .bool b, shape =>
    match shape.core with
    | .any | .bool => .ok (.bool b)
    | expected => .error (.invalidType (.bool b) expected)
  | .num n, shape => shape.decodeNumber n
  | .str s, shape =>
    match shape.core with
    | .any | .string => .ok (.str s)
    | expected => .error (.invalidType (.str s) expected)
  | .arr items, shape =>
    match shape.core with
    | .any => .ok (.arr items)
    | .seq item => (decodeItems records items item).map .arr
    | .record name =>
      match records.find? name with
      | none => .ok (.arr items)
      | some layout =>
        match decodeFields records items layout.fields with
        | .error e => .error e
        | .ok read => (completeSequence layout items.length read).map Json.object
    | expected => .error (.invalidType (.arr items) expected)
  | .obj entries, shape =>
    match shape.core with
    | .any => .ok (.obj entries)
    | .record name =>
      match records.find? name with
      | none => .ok (.obj entries)
      | some layout =>
        match decodeEntries records entries layout with
        | .error e => .error e
        | .ok read => (complete read layout.fields).map Json.object
    | expected => .error (.invalidType (.obj entries) expected)
termination_by structural j => j

def decodeItems (records : Records) : List Json → Shape → Except DecodeError (List Json)
  | [], _ => .ok []
  | j :: rest, item =>
    match decode records j item with
    | .error e => .error e
    | .ok j => (decodeItems records rest item).map (j :: ·)
termination_by structural items => items

/-- Read the elements of a sequence as fields, by position. Elements after the
last field are not looked at. -/
def decodeFields (records : Records) :
    List Json → List RecordField → Except DecodeError (List (String × Json))
  | [], _ => .ok []
  | _ :: _, [] => .ok []
  | j :: rest, f :: fields =>
    match decode records j f.shape with
    | .error e => .error e
    | .ok j => (decodeFields records rest fields).map ((f.name, j) :: ·)
termination_by structural items => items

def decodeEntries (records : Records) :
    List (String × Json) → RecordShape → Except DecodeError (List (String × Json))
  | [], _ => .ok []
  | (k, j) :: rest, layout =>
    match layout.fields.find? (·.name = k) with
    | none =>
      if layout.closed then .error (.unknownField k (layout.fields.map (·.name)))
      else decodeEntries records rest layout
    | some field =>
      match decode records j field.shape with
      | .error e => .error e
      | .ok j => (decodeEntries records rest layout).map ((k, j) :: ·)
termination_by structural entries => entries

end

end Shape

end SchemaGraph
