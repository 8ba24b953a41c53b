import SchemaGraph.Resolved
import SchemaGraph.Error

/-!
# Calls of fields

A resolver is called with everything one invocation of a field may look at: the
parent the field is asked of, the arguments after they were materialized, and
the context of the request.
-/

set_option autoImplicit false

namespace SchemaGraph

/-- What a field is asked of. -/
inductive Parent where
  /-- Nothing: a root field of a request without root value. -/
  | none
  | instance (i : Instance)
  /-- A plain value, as a rule an object read from a property. -/
  | value (v : Value)
deriving Repr, Inhabited

namespace Parent

def instance? : Parent → Option Instance
  | .instance i => some i
  | _ => .none

/-- A property of the parent; null if there is none. -/
def property (p : Parent) (name : String) : Resolved :=
  match p with
  | .none => .null
  | .instance i => .value ((i.property? name).getD .null)
  | .value v => .value ((v.get? name).getD .null)

end Parent

/-- Arguments as a resolver sees them. -/
inductive Arguments where
  /-- The field has none. -/
  | none
  /-- The value of a single argument. -/
  | raw (v : Value)
  /-- All arguments, or a single input object, as a host value. -/
  | instance (v : HostValue)
deriving Repr, Inhabited

/-- A host type together with the shape its values are read by. -/
structure HostShape where
  type : HostType
  records : Records
  shape : Shape

namespace HostShape

def read (t : HostShape) (j : Json) : Except DecodeError Json :=
  t.shape.decode t.records j

end HostShape

/-- Data read by a shape, as an answer: sequences become lists. -/
def Shape.answer : Shape → Json → Resolved
  | .option inner, j => answer inner j
  | .seq item, .arr items => .list (items.map (answer item))
  | _, j => .value (Value.ofJson j)

structure FieldCall where
  field : String
  parent : Parent
  args : Arguments
  context? : Option HostValue
  lineage : Lineage := ∅

namespace FieldCall

/-- The parent as a value of type `t`, along the lineage. -/
def parentAs (call : FieldCall) (t : HostType) : Except SchemaError HostValue :=
  match call.parent.instance? with
  | none => .error (.unexpectedParent call.field t.shortName)
  | some i =>
    match call.lineage.view t i.value with
    | .found v => .ok v
    | .absent => .error (.unexpectedParent call.field t.shortName)
    | .endless => .error (.endless i.type.shortName)

/-- The materialized arguments, if they are a value of type `t`. -/
def argsAs (call : FieldCall) (t : HostType) : Except SchemaError HostValue :=
  match call.args with
  | .instance v =>
    if v.type = t then .ok v else .error (.unexpectedArguments call.field t.shortName)
  | _ => .error (.unexpectedArguments call.field t.shortName)

/-- The value of the single argument. -/
def argValue? (call : FieldCall) : Option Value :=
  match call.args with
  | .raw v => some v
  | _ => none

/-- The value of the single argument, read as a host type. -/
def arg (call : FieldCall) (t : HostShape) : Except SchemaError Json :=
  match call.argValue? with
  | none => .error (.unexpectedArguments call.field t.type.shortName)
  | some v =>
    match t.read v.toJson with
    | .ok j => .ok j
    | .error cause => .error (.inputConstruction t.type.shortName cause)

/-- The context, if it is a value of type `t`. -/
def contextAs? (call : FieldCall) (t : HostType) : Option HostValue :=
  match call.context? with
  | some v => if v.type = t then some v else none
  | none => none

/-- A property of the parent. -/
def property (call : FieldCall) (name : String) : Resolved := call.parent.property name

end FieldCall

/-! ## Resolvers -/

/-- Why a field has no answer. -/
inductive ResolveError where
  | schema (e : SchemaError)
  /-- A failure in the words of the host's resolver. -/
  | host (text : String)
deriving Repr, Inhabited

def ResolveError.message : ResolveError → String
  | .schema e => e.message
  | .host text => text

/-- The behaviour attached to a field. -/
abbrev Resolver := FieldCall → Except ResolveError Resolved

namespace Resolver

/-- Turn a failing read of the call into a failing answer. -/
def lift {α : Type} (x : Except SchemaError α) : Except ResolveError α :=
  x.mapError .schema

/-- A method of the type `t`: it is handed the parent as a value of `t`. -/
def method (t : HostType) (body : HostValue → FieldCall → Except ResolveError Resolved) :
    Resolver := fun call =>
  match call.parentAs t with
  | .ok this => body this call
  | .error e => .error (.schema e)

end Resolver

end SchemaGraph
