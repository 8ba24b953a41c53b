import SchemaGraph.Compiled.Types
import SchemaGraph.Declared.Ancestry
import SchemaGraph.Declared.Metadata
import SchemaGraph.Declared.Declare

/-!
# The state of compilation

Each declared type is compiled at most once and kept. A type that is being
compiled is marked as in progress: a reference to it is enough then, and that is
what lets types refer to themselves. What was kept before a failure stays kept.
-/

set_option autoImplicit false

namespace SchemaGraph

structure CompileState where
  objects : OrderedMap NodeId CompiledObject := ∅
  interfaces : OrderedMap NodeId CompiledInterface := ∅
  inputObjects : OrderedMap NodeId CompiledInputObject := ∅
  /-- Nodes whose compilation has begun and not ended. -/
  inProgress : List NodeId := []
  dispatches : OrderedMap NodeId Dispatch := ∅
  shapes : ShapeTable := ∅
  /-- Custom scalars, enums and unions by name. -/
  given : OrderedMap String CompiledType := ∅
  /-- The members a union name stands for. -/
  unionMembers : OrderedMap String (List HostType) := ∅

instance : Inhabited CompileState := ⟨{}⟩

/-- Compilation: may fail, and keeps what it has kept. -/
abbrev CompileM := EStateM SchemaError CompileState

namespace Compile

/-- A computation that needs no state. -/
def lift {α : Type} (x : Except SchemaError α) : CompileM α := fun s =>
  match x with
  | .ok a => .ok a s
  | .error e => .error e s

/-- Run `x` with `id` marked as in progress, and take the mark away whatever
comes of it. -/
def inProgress {α : Type} (id : NodeId) (x : CompileM α) : CompileM α := fun s =>
  match x { s with inProgress := s.inProgress.insert id } with
  | .ok a s => .ok a { s with inProgress := s.inProgress.erase id }
  | .error e s => .error e { s with inProgress := s.inProgress.erase id }

def keepObject (id : NodeId) (t : CompiledObject) : CompileM Unit :=
  modify fun s => { s with objects := s.objects.insert id t }

def keepInterface (id : NodeId) (t : CompiledInterface) : CompileM Unit :=
  modify fun s => { s with interfaces := s.interfaces.insert id t }

def keepInputObject (id : NodeId) (t : CompiledInputObject) : CompileM Unit :=
  modify fun s => { s with inputObjects := s.inputObjects.insert id t }

def keepDispatch (id : NodeId) (d : Dispatch) : CompileM Unit :=
  modify fun s => { s with dispatches := s.dispatches.insert id d }

/-- Keep a custom scalar, an enum or a union under its name. -/
def keepGiven (t : CompiledType) : CompileM Unit :=
  modify fun s => { s with given := s.given.insert t.name t }

def keepShape (id : NodeId) (shape? : Option InputObjectShape) : CompileM Unit :=
  modify fun s => { s with shapes := s.shapes.insert id shape? }

end Compile

/-- Every type kept so far: input objects, interfaces, objects, then scalars,
enums and unions. -/
def CompileState.definitions (s : CompileState) : List CompiledType :=
  s.inputObjects.values.map .inputObject
    ++ s.interfaces.values.map .interface
    ++ s.objects.values.map .object
    ++ s.given.values

end SchemaGraph
