import SchemaGraph.Proofs.Compile.Mention

/-!
# What a declaration uses

Scalars, enums and unions are given on the spot, so a mention of one says no more
than its name, and two different ones may go by the same name. `Uses` says which
one it is: the definition as it stands in the declaration. It follows the
declarations the way `Leads` does. A declaration that is compiled and then
replaced by a later one of its name counts, since the compiler has met its type
all the same.
-/

set_option autoImplicit false

namespace SchemaGraph

/-- A type that is given on the spot. -/
inductive GivenType where
  | scalar (d : ScalarDef)
  | enum (d : EnumDef)
  | union (d : UnionDef)

namespace GivenType

def name : GivenType → String
  | .scalar d => d.name
  | .enum d => d.name
  | .union d => d.name

/-- What may be kept for the type. A scalar or an enum is kept as it is, a union
as some union. -/
def Defines : GivenType → CompiledType → Prop
  | .scalar d, t => t = .scalar d
  | .enum d, t => t = .enum d
  | .union _, t => ∃ u, t = .union u

/-- Whether the type has no members, and a definition that says everything. -/
def IsLeaf : GivenType → Prop
  | .union _ => False
  | _ => True

end GivenType

/-- The type that a type expression gives on the spot. The built-in scalars are
not given, every schema has them. -/
def TypeExpr.Uses : TypeExpr → GivenType → Prop
  | .ref _, _ => False
  | .scalar d, g => d.builtin = false ∧ g = .scalar d
  | .enum d, g => g = .enum d
  | .union d, g => g = .union d
  | .list item, g => item.Uses g
  | .nullable inner, g => inner.Uses g

def Link.Uses : Link → GivenType → Prop
  | .node _, _ => False
  | .given t, g => t.Uses g

namespace Registry

variable {r : Registry}

/-- What the input field `id` uses. -/
def InputUses (r : Registry) (id : NodeId) (g : GivenType) : Prop :=
  ∃ field, r.linkInput id = .ok field ∧ field.type.Uses g

/-- What the arguments of a field use. -/
def ArgumentsUse (r : Registry) (field : LinkedField) (g : GivenType) : Prop :=
  (∃ arg, field.arg? = some arg ∧ arg.type.Uses g) ∨
    ∃ args, field.args? = some args ∧ ∃ i ∈ Meaning.bundleFields r args, r.InputUses i g

/-- What the field `id` uses, for its type and for its arguments. -/
def FieldUses (r : Registry) (id : NodeId) (g : GivenType) : Prop :=
  ∃ field, r.linkField id = .ok field ∧ (field.type.Uses g ∨ r.ArgumentsUse field g)

/-- What compiling the declared type `id` uses by itself. -/
def Uses (r : Registry) (id : NodeId) (g : GivenType) : Prop :=
  match r.node id with
  | .object _ => ∃ chain, r.chain id = .ok chain ∧
      ∃ f ∈ Meaning.objectFieldIds r chain, r.FieldUses f g
  | .interface n => ∃ f ∈ n.fields, r.FieldUses f g
  | .inputObject n => ∃ i ∈ n.inputFields, r.InputUses i g
  | _ => False

theorem uses_object {id : NodeId} {n : ObjectNode} {chain : List NodeId}
    (hn : r.node id = .object n) (hchain : r.chain id = .ok chain) {g : GivenType} :
    r.Uses id g ↔ ∃ f ∈ Meaning.objectFieldIds r chain, r.FieldUses f g := by
  simp only [Uses, hn, hchain, Except.ok.injEq, exists_eq_left']

theorem uses_interface {id : NodeId} {n : InterfaceNode} (hn : r.node id = .interface n)
    {g : GivenType} : r.Uses id g ↔ ∃ f ∈ n.fields, r.FieldUses f g := by
  simp only [Uses, hn]

theorem uses_inputObject {id : NodeId} {n : InputObjectNode}
    (hn : r.node id = .inputObject n) {g : GivenType} :
    r.Uses id g ↔ ∃ i ∈ n.inputFields, r.InputUses i g := by
  simp only [Uses, hn]

/-! ## A use is a mention -/

theorem mentions_of_uses {t : TypeExpr} {g : GivenType} (h : t.Uses g) :
    t.Mentions r (.given g.name) := by
  induction t with
  | ref t => exact h.elim
  | scalar d =>
      obtain ⟨hbuiltin, rfl⟩ := h
      exact ⟨hbuiltin, rfl⟩
  | enum d =>
      cases h
      rfl
  | union d =>
      cases h
      exact Or.inl rfl
  | list item ih => exact ih h
  | nullable inner ih => exact ih h

theorem linkMentions_of_uses {l : Link} {g : GivenType} (h : l.Uses g) :
    l.Mentions r (.given g.name) := by
  cases l with
  | node id => exact h.elim
  | given t => exact mentions_of_uses h

theorem inputMentions_of_uses {id : NodeId} {g : GivenType} (h : r.InputUses id g) :
    r.InputMentions id (.given g.name) := by
  obtain ⟨field, hfield, huses⟩ := h
  exact ⟨field, hfield, linkMentions_of_uses huses⟩

theorem fieldMentions_of_uses {id : NodeId} {g : GivenType} (h : r.FieldUses id g) :
    r.FieldMentions id (.given g.name) := by
  obtain ⟨field, hfield, huses | ⟨arg, harg, huses⟩ | ⟨args, hargs, i, hi, huses⟩⟩ := h
  · exact ⟨field, hfield, Or.inl (linkMentions_of_uses huses)⟩
  · exact ⟨field, hfield, Or.inr (Or.inl ⟨arg, harg, Or.inl (linkMentions_of_uses huses)⟩)⟩
  · exact ⟨field, hfield,
      Or.inr (Or.inr ⟨args, hargs, Or.inr ⟨i, hi, inputMentions_of_uses huses⟩⟩)⟩

/-- What a declared type uses it leads to, under its name. -/
theorem leads_of_uses {id : NodeId} {g : GivenType} (h : r.Uses id g) :
    r.Leads id (.given g.name) := by
  unfold Uses at h
  unfold Leads
  cases hn : r.node id with
  | object n =>
      simp only [hn] at h ⊢
      obtain ⟨chain, hchain, f, hf, huses⟩ := h
      exact ⟨chain, hchain, Or.inr ⟨f, hf, fieldMentions_of_uses huses⟩⟩
  | interface n =>
      simp only [hn] at h ⊢
      obtain ⟨f, hf, huses⟩ := h
      exact Or.inl ⟨f, hf, fieldMentions_of_uses huses⟩
  | inputObject n =>
      simp only [hn] at h ⊢
      obtain ⟨i, hi, huses⟩ := h
      exact ⟨i, hi, inputMentions_of_uses huses⟩
  | field _ | args _ | arg _ | inputField _ | implement _ =>
      simp only [hn] at h

end Registry

/-- Compiling the members of the union leads to the node. -/
def UnionDef.LeadsTo (r : Registry) (d : UnionDef) (id : NodeId) : Prop :=
  ∃ t ∈ d.members, ∃ member, r.getNode t = .ok member ∧ r.LeadsTo member id

end SchemaGraph
