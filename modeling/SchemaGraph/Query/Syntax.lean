import SchemaGraph.Value.Basic

/-!
# Queries

The part of the query language that requests use: operations with variables,
fields with aliases and arguments, fragments inline and by name.
-/

set_option autoImplicit false

namespace SchemaGraph.Query

/-- A value as a query writes it. -/
inductive Literal where
  | null
  | bool (value : Bool)
  | num (value : Number)
  | str (value : String)
  | enum (name : String)
  | list (items : List Literal)
  | obj (entries : List (String × Literal))
  | var (name : String)
deriving Repr, Inhabited

inductive Selection where
  | field (key name : String) (args : List (String × Literal)) (selections : List Selection)
  /-- A fragment by name. -/
  | spread (name : String)
  /-- Selections that apply to one type, or to all. -/
  | fragment (condition? : Option String) (selections : List Selection)
deriving Repr, Inhabited

inductive OperationKind where
  | query
  | mutation
  | subscription
deriving DecidableEq, Repr

namespace OperationKind

def all : List OperationKind := [.query, .mutation, .subscription]

/-- The word that an operation of a kind begins with. -/
def keyword : OperationKind → String
  | .query => "query"
  | .mutation => "mutation"
  | .subscription => "subscription"

end OperationKind

structure VariableDef where
  name : String
  /-- Whether the type of the variable admits null. -/
  nullable : Bool
  default? : Option Literal
deriving Repr, Inhabited

/-- The value that a variable has when none is given. A variable that does not
admit null has none without a default. -/
def VariableDef.fallback? (v : VariableDef) : Option Literal :=
  v.default?.or (if v.nullable then some .null else none)

structure Operation where
  kind : OperationKind
  name? : Option String
  vars : List VariableDef
  selections : List Selection
deriving Repr

structure Fragment where
  name : String
  on : String
  selections : List Selection
deriving Repr

structure Document where
  operations : List Operation
  fragments : List Fragment
deriving Repr

/-- A variable was used that has no value. -/
structure UndefinedVariable where
  name : String
deriving DecidableEq, Repr, Inhabited

def UndefinedVariable.message (v : UndefinedVariable) : String :=
  s!"Variable {v.name} is not defined."

mutual

/-- The value of a literal, or the first variable in it that has none. -/
def Literal.eval (vars : String → Option Value) : Literal → Except UndefinedVariable Value
  | .null => .ok .null
  | .bool b => .ok (.bool b)
  | .num n => .ok (.num n)
  | .str s => .ok (.str s)
  | .enum name => .ok (.enum name)
  | .list items => (Literal.evalItems vars items).map .list
  | .obj entries => (Literal.evalEntries vars entries).map fun es => .obj (Entries.ofList es)
  | .var name =>
    match vars name with
    | some v => .ok v
    | none => .error ⟨name⟩
termination_by structural l => l

def Literal.evalItems (vars : String → Option Value) :
    List Literal → Except UndefinedVariable (List Value)
  | [] => .ok []
  | l :: rest =>
    match l.eval vars with
    | .error e => .error e
    | .ok v => (Literal.evalItems vars rest).map (v :: ·)
termination_by structural items => items

/-- The entries of an object, or the arguments of a field. -/
def Literal.evalEntries (vars : String → Option Value) :
    List (String × Literal) → Except UndefinedVariable (List (String × Value))
  | [] => .ok []
  | (k, l) :: rest =>
    match l.eval vars with
    | .error e => .error e
    | .ok v => (Literal.evalEntries vars rest).map ((k, v) :: ·)
termination_by structural entries => entries

end

mutual

/-- The selection with named fragments replaced by what `named` makes of
them. -/
def Selection.inline (named : String → List Selection) : Selection → List Selection
  | .field key name args selections => [.field key name args (Selection.inlineAll named selections)]
  | .spread name => named name
  | .fragment condition? selections => [.fragment condition? (Selection.inlineAll named selections)]
termination_by structural s => s

def Selection.inlineAll (named : String → List Selection) : List Selection → List Selection
  | [] => []
  | s :: rest => s.inline named ++ Selection.inlineAll named rest
termination_by structural selections => selections

end

/-- A named fragment as an inline one, fragments inside it up to `depth` levels
deep; what is deeper is left out. -/
def Document.fragment (d : Document) : Nat → String → List Selection
  | 0, _ => []
  | depth + 1, name =>
    match d.fragments.find? (·.name = name) with
    | some f => [.fragment (some f.on) (Selection.inlineAll (d.fragment depth) f.selections)]
    | none => []

/-- The selections of an operation with all fragments inline. Fragments do not
contain themselves, so they are nested no deeper than there are fragments. -/
def Document.inlined (d : Document) (o : Operation) : List Selection :=
  Selection.inlineAll (d.fragment d.fragments.length) o.selections

/-! ## Measures -/

mutual

/-- How deep braces are nested below a selection, those of fragments too. -/
def Selection.levels : Selection → Nat
  | .field _ _ _ selections =>
    if selections.isEmpty then 0 else 1 + Selection.levelsIn selections
  | .spread _ => 0
  | .fragment _ selections => 1 + Selection.levelsIn selections
termination_by structural s => s

def Selection.levelsIn : List Selection → Nat
  | [] => 0
  | s :: rest => max s.levels (Selection.levelsIn rest)
termination_by structural selections => selections

end

/-! The field that every type has, the name of the type, costs nothing. -/

def isTypeName (name : String) : Bool := name = "__typename"

mutual

/-- How many fields are selected. -/
def Selection.fieldCount : Selection → Nat
  | .field _ name _ selections =>
    if isTypeName name then 0 else 1 + Selection.fieldCounts selections
  | .spread _ => 0
  | .fragment _ selections => Selection.fieldCounts selections
termination_by structural s => s

def Selection.fieldCounts : List Selection → Nat
  | [] => 0
  | s :: rest => s.fieldCount + Selection.fieldCounts rest
termination_by structural selections => selections

end

mutual

/-- How deep fields are nested. -/
def Selection.depth : Selection → Nat
  | .field _ name _ selections =>
    if isTypeName name then 0 else 1 + Selection.depths selections
  | .spread _ => 0
  | .fragment _ selections => Selection.depths selections
termination_by structural s => s

def Selection.depths : List Selection → Nat
  | [] => 0
  | s :: rest => max s.depth (Selection.depths rest)
termination_by structural selections => selections

end

end SchemaGraph.Query
