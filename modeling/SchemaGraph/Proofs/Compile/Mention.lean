import Mathlib.Logic.Relation
import SchemaGraph.Proofs.Compile.Meaning

/-!
# What a declaration leads to

Compiling a declared type makes the compiler know everything the type refers
to: the declared types it names, the scalars, enums and unions given on the
spot, and the shapes its arguments are materialized by. `Leads` lists these for
one declared type, read off the registry; following it from node to node gives
everything a request can ever reach.
-/

set_option autoImplicit false

namespace SchemaGraph

/-- Something that a compiled type refers to and the compiler keeps. -/
inductive Mention where
  /-- A declared object, interface or input object. -/
  | node (id : NodeId)
  /-- A scalar, enum or union, under its name. -/
  | given (name : String)
  /-- The shape of an input object or an argument bundle. -/
  | shape (id : NodeId)

/-- The input objects that a shape refers to. -/
def ValueShape.inputs : ValueShape → List NodeId
  | .plain => []
  | .enum _ => []
  | .list item => item.inputs
  | .input id => [id]

/-- The shapes by which raw arguments are materialized. -/
def ArgumentMapping.inputs : ArgumentMapping → List NodeId
  | .none => []
  | .raw _ shape => shape.inputs
  | .instance _ id => [id]
  | .bundle id => [id]

namespace TypeExpr

/-- A type expression mentions the type at its core, and a union its
members. -/
def Mentions (r : Registry) : TypeExpr → Mention → Prop
  | .ref t, m => ∃ id, r.getNode t = .ok id ∧ m = .node id
  | .scalar d, m => d.builtin = false ∧ m = .given d.name
  | .enum d, m => m = .given d.name
  | .union d, m =>
    m = .given d.name ∨ ∃ t ∈ d.members, ∃ id, r.getNode t = .ok id ∧ m = .node id
  | .list item, m => Mentions r item m
  | .nullable inner, m => Mentions r inner m

end TypeExpr

def Link.Mentions (r : Registry) : Link → Mention → Prop
  | .node id, m => m = .node id
  | .given t, m => t.Mentions r m

namespace Registry

/-- What the input field `id` mentions. -/
def InputMentions (r : Registry) (id : NodeId) (m : Mention) : Prop :=
  ∃ field, r.linkInput id = .ok field ∧ field.type.Mentions r m

/-- What the single argument of a field mentions. -/
def ArgMentions (r : Registry) (arg : LinkedArg) (m : Mention) : Prop :=
  arg.type.Mentions r m ∨
    ∃ mapping, Meaning.argMapping r arg = .ok mapping ∧ ∃ i ∈ mapping.inputs, m = .shape i

/-- What the argument bundle `id` mentions. -/
def BundleMentions (r : Registry) (id : NodeId) (m : Mention) : Prop :=
  m = .shape id ∨ ∃ i ∈ Meaning.bundleFields r id, r.InputMentions i m

/-- What the arguments of a field mention. -/
def ArgumentsMention (r : Registry) (field : LinkedField) (m : Mention) : Prop :=
  (∃ arg, field.arg? = some arg ∧ r.ArgMentions arg m) ∨
    ∃ args, field.args? = some args ∧ r.BundleMentions args m

/-- What the field `id` mentions: its type and its arguments. -/
def FieldMentions (r : Registry) (id : NodeId) (m : Mention) : Prop :=
  ∃ field, r.linkField id = .ok field ∧
    (field.type.Mentions r m ∨ r.ArgumentsMention field m)

/-- What compiling the declared type `id` leads to. An object leads to the
interfaces of its chain and to what the fields mention that count for it; an
interface to what its fields mention and to its implementers; an input object to
what its input fields mention. -/
def Leads (r : Registry) (id : NodeId) (m : Mention) : Prop :=
  match r.node id with
  | .object _ => ∃ chain, r.chain id = .ok chain ∧
      ((∃ i ∈ Compile.chainInterfaces r chain, m = .node i) ∨
        ∃ f ∈ Meaning.objectFieldIds r chain, r.FieldMentions f m)
  | .interface n => (∃ f ∈ n.fields, r.FieldMentions f m) ∨
      ∃ implementers, r.implementers id = .ok implementers ∧
        ∃ i ∈ implementers, m = .node i
  | .inputObject n => ∃ i ∈ n.inputFields, r.InputMentions i m
  | _ => False

theorem leads_object {r : Registry} {id : NodeId} {n : ObjectNode} {chain : List NodeId}
    (hn : r.node id = .object n) (hchain : r.chain id = .ok chain) {m : Mention} :
    r.Leads id m ↔ (∃ i ∈ Compile.chainInterfaces r chain, m = .node i) ∨
      ∃ f ∈ Meaning.objectFieldIds r chain, r.FieldMentions f m := by
  simp only [Leads, hn, hchain, Except.ok.injEq, exists_eq_left']

theorem leads_interface {r : Registry} {id : NodeId} {n : InterfaceNode}
    {implementers : List NodeId} (hn : r.node id = .interface n)
    (himpl : r.implementers id = .ok implementers) {m : Mention} :
    r.Leads id m ↔ (∃ f ∈ n.fields, r.FieldMentions f m) ∨ ∃ i ∈ implementers, m = .node i := by
  simp only [Leads, hn, himpl, Except.ok.injEq, exists_eq_left']

theorem leads_inputObject {r : Registry} {id : NodeId} {n : InputObjectNode}
    (hn : r.node id = .inputObject n) {m : Mention} :
    r.Leads id m ↔ ∃ i ∈ n.inputFields, r.InputMentions i m := by
  simp only [Leads, hn]

/-- Compiling one node leads to compiling another, directly or through others. -/
def LeadsTo (r : Registry) : NodeId → NodeId → Prop :=
  Relation.ReflTransGen fun id other => r.Leads id (.node other)

end Registry

end SchemaGraph
