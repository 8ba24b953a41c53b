import SchemaGraph.TypeExpr.Enum

/-!
# Type expressions

The type of a field or argument as it is declared: a declared type, referred to
by its host type, or a scalar, enum or union given on the spot, under any
nesting of list and nullable. Everything is required unless it is nullable.

A scalar may come with a serializer and every enum comes with its names. From
them each type expression gets its output hook: what is applied to the answers
of a field of that type.
-/

set_option autoImplicit false

namespace SchemaGraph

/-- The scalars that every schema knows without being told. -/
def builtinScalars : List String := ["Int", "Float", "Boolean", "String", "ID"]

structure ScalarDef where
  name : String
  description : Option String := none
  builtin : Bool := false
  serialize? : Option (Value → Value) := none
  /-- No other scalar can be built in. -/
  builtin_name : builtin = true → name ∈ builtinScalars := by simp

/-- A union of declared object types. -/
structure UnionDef where
  name : String
  description : Option String
  members : List HostType
deriving DecidableEq, Repr

inductive TypeExpr where
  | ref (type : HostType)
  | scalar (d : ScalarDef)
  | enum (d : EnumDef)
  | union (d : UnionDef)
  | list (item : TypeExpr)
  | nullable (inner : TypeExpr)

namespace ScalarDef

def builtinNamed (name : String) (h : name ∈ builtinScalars) : ScalarDef where
  name := name
  builtin := true
  builtin_name _ := h

/-- The serializer as a hook; it sees plain values only. -/
def hook? (d : ScalarDef) : Option (Resolved → Resolved) :=
  d.serialize?.map fun f r =>
    match r with
    | .value v => .value (f v)
    | r => r

end ScalarDef

namespace TypeExpr

def string : TypeExpr := .scalar (.builtinNamed "String" (by simp [builtinScalars]))

def int : TypeExpr := .scalar (.builtinNamed "Int" (by simp [builtinScalars]))

def float : TypeExpr := .scalar (.builtinNamed "Float" (by simp [builtinScalars]))

def boolean : TypeExpr := .scalar (.builtinNamed "Boolean" (by simp [builtinScalars]))

def id : TypeExpr := .scalar (.builtinNamed "ID" (by simp [builtinScalars]))

instance : Inhabited TypeExpr := ⟨.string⟩

/-- Whether the type must not be made required. -/
def isNullable : TypeExpr → Bool
  | .nullable _ => true
  | _ => false

/-- The output hook: of a list element by element, of a nullable type on
everything but null. -/
def hook? : TypeExpr → Option (Resolved → Resolved)
  | .ref _ => none
  | .scalar d => d.hook?
  | .enum d => some d.encode
  | .union _ => none
  | .list item => (hook? item).map fun h r => r.mapItems h
  | .nullable inner => (hook? inner).map fun h r => if r.isNull then r else h r

/-- Apply the output hook, if there is one. -/
def applyHook (t : TypeExpr) (r : Resolved) : Resolved :=
  match t.hook? with
  | some h => h r
  | none => r

end TypeExpr

/-- Host types whose type expression is known without declaration. -/
inductive NativeType where
  | string
  | bool
  | int32
  | float64
  | option (inner : NativeType)
  | seq (item : NativeType)
deriving DecidableEq, Repr

/-- Optional data is nullable and sequences are lists. -/
def NativeType.infer : NativeType → TypeExpr
  | .string => .string
  | .bool => .boolean
  | .int32 => .int
  | .float64 => .float
  | .option inner => .nullable (infer inner)
  | .seq item => .list (infer item)

end SchemaGraph
