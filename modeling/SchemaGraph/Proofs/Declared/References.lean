import Mathlib.Logic.Relation
import SchemaGraph.Proofs.Compile.Members
import SchemaGraph.Proofs.Declared.Changes
import SchemaGraph.Proofs.Declared.Ends

/-!
# What declarations refer to

`Refers` says what a node refers to, read off its declaration alone: no node is linked
for it and nothing is walked. `Broken` says with what error that reading fails, if it
does. A node that is linked is linked to what it refers to, which is what the lemmas on
the parts of a linked field are for.
-/

set_option autoImplicit false

namespace SchemaGraph

namespace TypeExpr

/-- The nodes that a type expression leads to through lists and nullables: the one its
host type stands for, or those of the members of a union. -/
def LeadsTo (r : Registry) : TypeExpr → NodeId → Prop
  | .ref t, id => r.getNode t = .ok id
  | .scalar _, _ => False
  | .enum _, _ => False
  | .union d, id => ∃ t ∈ d.members, r.getNode t = .ok id
  | .list item, id => LeadsTo r item id
  | .nullable inner, id => LeadsTo r inner id

/-- Something that the type expression names is not declared. -/
def Fails (r : Registry) : TypeExpr → SchemaError → Prop
  | .ref t, e => r.getNode t = .error e
  | .scalar _, _ => False
  | .enum _, _ => False
  | .union d, e => ∃ t ∈ d.members, r.getNode t = .error e
  | .list item, e => Fails r item e
  | .nullable inner, e => Fails r inner e

theorem Fails.ends {r : Registry} {t : TypeExpr} {e : SchemaError} (h : t.Fails r e) :
    e.isEndless = false := by
  induction t with
  | ref t => exact r.getNode_ends t e h
  | scalar _ | enum _ => exact h.elim
  | union d =>
      obtain ⟨t, -, ht⟩ := h
      exact r.getNode_ends t e ht
  | list item ih => exact ih h
  | nullable inner ih => exact ih h

end TypeExpr

namespace Registry

/-- The type expressions of a field: its own and that of its single argument. -/
def FieldType (r : Registry) (n : FieldNode) (t : TypeExpr) : Prop :=
  n.decl.type? = some t ∨ argType? n (r.attachedArg? n) = some t

/-- What a node refers to. An object refers to its fields, to its implements edges and to
the object it extends, a field to what its types lead to and to its argument bundle. -/
def Refers (r : Registry) (id other : NodeId) : Prop :=
  match r.node id with
  | .object n => other ∈ n.fields ∨ other ∈ n.implementEdges ∨
      ∃ link, n.extends? = some link ∧ r.getNode link.parent = .ok other
  | .interface n => other ∈ n.fields
  | .inputObject n => other ∈ n.inputFields
  | .args n => other ∈ n.inputFields
  | .field n => (∃ t, r.FieldType n t ∧ t.LeadsTo r other) ∨
      ∃ t, n.decl.args? = some t ∧ r.args.find? t = some other
  | .inputField n => ∃ t, n.decl.type? = some t ∧ t.LeadsTo r other
  | .implement n => other = n.interface
  | .arg _ => False

/-- References lead from one of the roots to the node. -/
def ReachableFrom (r : Registry) (roots : List NodeId) (id : NodeId) : Prop :=
  ∃ root ∈ roots, Relation.ReflTransGen r.Refers root id

/-- What the node declares cannot be evaluated: the field or input field cannot be
linked, or a type that is referred to is not declared. -/
def Broken (r : Registry) (id : NodeId) (e : SchemaError) : Prop :=
  match r.node id with
  | .object n => ∃ link, n.extends? = some link ∧ r.getNode link.parent = .error e
  | .field n => r.linkField id = .error e ∨ ∃ t, r.FieldType n t ∧ t.Fails r e
  | .inputField n => r.linkInput id = .error e ∨ ∃ t, n.decl.type? = some t ∧ t.Fails r e
  | _ => False

variable {r : Registry} {id : NodeId}

theorem lt_size_of_refers {other : NodeId} (h : r.Refers id other) : id < r.size := by
  refine lt_size_of_node_ne fun habsent => ?_
  rw [Refers, habsent] at h
  exact h

/-- What is broken has been looked at to the end. -/
theorem Broken.ends {e : SchemaError} (h : r.Broken id e) : e.isEndless = false := by
  unfold Broken at h
  split at h
  · obtain ⟨link, -, hp⟩ := h
    exact r.getNode_ends _ _ hp
  · rcases h with h | ⟨t, -, ht⟩
    · exact r.linkField_ends _ _ h
    · exact ht.ends
  · rcases h with h | ⟨t, -, ht⟩
    · exact r.linkInput_ends _ _ h
    · exact ht.ends
  · exact h.elim

/-! ## Links -/

theorem linkArg_parts {owner field : String} {type? : Option TypeExpr}
    {node? : Option ArgNode} {arg? : Option LinkedArg}
    (h : r.linkArg owner field type? node? = .ok arg?) :
    type? = none ∧ arg? = none ∨
      ∃ t arg, type? = some t ∧ arg? = some arg ∧ r.link t = .ok arg.type := by
  unfold linkArg at h
  split at h
  · obtain ⟨l, hl, rfl⟩ := Meaning.map_eq_ok.mp h
    exact Or.inr ⟨_, _, rfl, rfl, hl⟩
  · cases h
  · cases h
  · cases h
    exact Or.inl ⟨rfl, rfl⟩

theorem linkArgs_parts {t? : Option HostType} {id? : Option NodeId}
    (h : r.linkArgs t? = .ok id?) :
    t? = none ∧ id? = none ∨ ∃ t i, t? = some t ∧ id? = some i ∧ r.args.find? t = some i := by
  cases t? with
  | none =>
      cases h
      exact Or.inl ⟨rfl, rfl⟩
  | some t =>
      obtain ⟨i, hi, h⟩ := Meaning.bind_eq_ok.mp h
      unfold getArgsNode at hi
      split at hi
      · next hfind =>
          cases hi
          split at h
          · cases h
          · cases h
            exact Or.inr ⟨t, _, rfl, rfl, hfind⟩
      · cases hi

/-- The parts of a linked field. -/
theorem linkField_parts {n : FieldNode} {f : LinkedField}
    (hn : r.node id = .field n) (h : r.linkField id = .ok f) :
    (∃ t, n.decl.type? = some t ∧ r.link t = .ok f.type) ∧
    (argType? n (r.attachedArg? n) = none ∧ f.arg? = none ∨
      ∃ t arg, argType? n (r.attachedArg? n) = some t ∧ f.arg? = some arg ∧
        r.link t = .ok arg.type) ∧
    (n.decl.args? = none ∧ f.args? = none ∨
      ∃ t i, n.decl.args? = some t ∧ f.args? = some i ∧ r.args.find? t = some i) := by
  simp only [linkField, hn] at h
  cases htype : n.decl.type? with
  | none =>
      rw [htype] at h
      obtain ⟨_, herror, -⟩ := Meaning.bind_eq_ok.mp h
      cases herror
  | some t =>
      rw [htype] at h
      obtain ⟨type, hlink, h⟩ := Meaning.bind_eq_ok.mp h
      split at h
      · obtain ⟨_, herror, -⟩ := Meaning.bind_eq_ok.mp h
        cases herror
      · obtain ⟨args?, hargs, h⟩ := Meaning.bind_eq_ok.mp h
        obtain ⟨arg?, harg, h⟩ := Meaning.bind_eq_ok.mp h
        cases h
        exact ⟨⟨t, rfl, hlink⟩, linkArg_parts harg, linkArgs_parts hargs⟩

end Registry

end SchemaGraph
