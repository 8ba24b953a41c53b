import SchemaGraph.Resolved
import SchemaGraph.Error

/-!
# Telling which object stands for an instance

A field of an interface or union type answers instances of many host types. A
dispatch table says for each host type which object type stands for it. On the
way to the query every instance is tagged with that name; what the table does
not know is an error.
-/

set_option autoImplicit false

namespace SchemaGraph

inductive AbstractKind where
  | interface
  | union
deriving DecidableEq, Repr

/-- The table of one interface or union. Of several entries for a type the
first counts. -/
structure Dispatch where
  name : String
  kind : AbstractKind
  table : List (HostType × String)
deriving DecidableEq, Repr

namespace Dispatch

/-- The object type that stands for instances of a host type. -/
def objectFor? (d : Dispatch) (t : HostType) : Option String := d.table.lookup t

/-- The complaint about a value of a type with this name. -/
def unresolved (d : Dispatch) (typeName : String) : SchemaError :=
  match d.kind with
  | .interface => .unresolvedImplementation d.name typeName
  | .union => .unresolvedUnionMember d.name typeName

/-- The object type that stands for an answer; only instances have one. -/
def resolveType (d : Dispatch) (r : Resolved) : Except SchemaError String :=
  match r with
  | .instance i =>
    match d.objectFor? i.type with
    | some name => .ok name
    | none => .error (d.unresolved r.runtimeTypeName)
  | _ => .error (d.unresolved r.runtimeTypeName)

end Dispatch

/-- An answer on its way into the response. -/
inductive FieldValue where
  | value (v : Value)
  | instance (i : Instance)
  /-- An instance together with the object type that stands for it. -/
  | tagged (i : Instance) (object : String)
  | list (items : List FieldValue)
deriving Repr, Inhabited

namespace FieldValue

def null : FieldValue := .value .null

mutual

/-- A plain value where an instance is expected: only null and lists of null
will do. -/
def ofAbstractValue (d : Dispatch) : Value → Except SchemaError FieldValue
  | .null => .ok .null
  | .list items => (ofAbstractValues d items).map .list
  | _ => .error (d.unresolved "Unknown")
termination_by structural v => v

def ofAbstractValues (d : Dispatch) : List Value → Except SchemaError (List FieldValue)
  | [] => .ok []
  | v :: rest =>
    match ofAbstractValue d v with
    | .error e => .error e
    | .ok v => (ofAbstractValues d rest).map (v :: ·)
termination_by structural items => items

end

mutual

/-- An answer of an interface or union field: every instance is tagged. -/
def ofAbstract (d : Dispatch) : Resolved → Except SchemaError FieldValue
  | .value v => ofAbstractValue d v
  | .instance i => (d.resolveType (.instance i)).map (.tagged i)
  | .list items => (ofAbstractItems d items).map .list
termination_by structural r => r

def ofAbstractItems (d : Dispatch) : List Resolved → Except SchemaError (List FieldValue)
  | [] => .ok []
  | r :: rest =>
    match ofAbstract d r with
    | .error e => .error e
    | .ok v => (ofAbstractItems d rest).map (v :: ·)
termination_by structural items => items

end

mutual

/-- An answer of any other field: passed on as it is. -/
def ofConcrete : Resolved → FieldValue
  | .value v => .value v
  | .instance i => .instance i
  | .list items => .list (ofConcreteItems items)
termination_by structural r => r

def ofConcreteItems : List Resolved → List FieldValue
  | [] => []
  | r :: rest => ofConcrete r :: ofConcreteItems rest
termination_by structural items => items

end

/-- An answer on its way into the response, tagged if the field is of an
abstract type. -/
def ofResolved (dispatch? : Option Dispatch) (r : Resolved) :
    Except SchemaError FieldValue :=
  match dispatch? with
  | some d => ofAbstract d r
  | none => .ok (ofConcrete r)

end FieldValue

end SchemaGraph
