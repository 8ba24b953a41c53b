import SchemaGraph.Compile.State

/-!
# Shapes of declared inputs

The shape of an input object is entered into the table before its fields are
looked at, so that an input object which contains itself refers to its own
entry.
-/

set_option autoImplicit false

namespace SchemaGraph

namespace Compile

/-- The shape of a type expression. `enter` makes the table know an input
object. -/
def shapeOfExpr (r : Registry) (enter : NodeId → CompileM Unit) :
    TypeExpr → CompileM ValueShape
  | .ref t => do
    let id ← lift (r.getNode t)
    if (r.node id).isInputObject then
      enter id
      return .input id
    else return .plain
  | .scalar _ => return .plain
  | .enum d => return .enum d
  | .union _ => return .plain
  | .list item => return .list (← shapeOfExpr r enter item)
  | .nullable inner => shapeOfExpr r enter inner

def shapeOfLink (r : Registry) (enter : NodeId → CompileM Unit) :
    Link → CompileM ValueShape
  | .node id => do
    if (r.node id).isInputObject then
      enter id
      return .input id
    else return .plain
  | .given t => shapeOfExpr r enter t

def fieldShapes (r : Registry) (enter : NodeId → CompileM Unit) :
    List NodeId → CompileM (List InputFieldShape)
  | [] => return []
  | id :: rest => do
    let field ← lift (r.linkInput id)
    let shape ← shapeOfLink r enter field.type
    let rest ← fieldShapes r enter rest
    return ⟨field.decl.name, shape, field.decl.default?⟩ :: rest

/-- Make the table know an input object or an argument bundle, at most `depth`
others inside each other. -/
def inputShapeWithin (r : Registry) : Nat → NodeId → CompileM Unit
  | 0, id => throw (.endless (r.node id).displayName)
  | depth + 1, id => do
    if (← get).shapes.contains id then return
    let n := r.node id
    match n.inputFields?, n.constructor? with
    | some inputFields, some constructor =>
      keepShape id none
      let fields ← fieldShapes r (inputShapeWithin r depth) inputFields
      keepShape id (some ⟨n.displayName, fields, constructor⟩)
    | _, _ => throw (.typeNotFound n.displayName)

/-- Make the table know an input object or an argument bundle. Each level of
nesting enters another node, so there are at most as many levels as nodes. -/
def inputShape (r : Registry) (id : NodeId) : CompileM Unit :=
  inputShapeWithin r (r.size + 1) id

def valueShape (r : Registry) (l : Link) : CompileM ValueShape :=
  shapeOfLink r (inputShape r) l

end Compile

end SchemaGraph
