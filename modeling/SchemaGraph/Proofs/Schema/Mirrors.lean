import SchemaGraph.Proofs.Schema.Closed
import SchemaGraph.Proofs.TypeExpr.Layers

/-!
# Shapes and references of one type

An input is compiled twice: to a reference, which the schema advertises, and to a shape, by
which raw values are converted. Both are read off the declared type, the one with its
non-null marks and the name of its core, the other with neither. They have the same list
layers, and the leaf of the shape says whether the type is an enum or an input object at its
core; for an input object or a bundle this holds of all its fields, in the order in which they
were declared.
-/

set_option autoImplicit false

namespace SchemaGraph

variable {r : Registry}

/-! ## Layers and cores -/

namespace ValueShape

/-- How many lists there are around the leaf. -/
def lists : ValueShape → Nat
  | .list item => lists item + 1
  | _ => 0

/-- The shape under all lists. -/
def leaf : ValueShape → ValueShape
  | .list item => leaf item
  | shape => shape

end ValueShape

/-- The input object that a type refers to at its core. -/
def TypeExpr.IsInput (r : Registry) (e : TypeExpr) (id : NodeId) : Prop :=
  ∃ T, e.core = .ref T ∧ r.getNode T = .ok id ∧ (r.node id).isInputObject = true

/-- A shape and a compiled reference that belong to the same type: as many lists around, and
at the core of the type what the leaf of the shape says. -/
structure ValueShape.Mirrors (r : Registry) (shape : ValueShape) (t : TypeRef)
    (e : TypeExpr) : Prop where
  compiled : e.CompilesTo r t
  layers : shape.lists = t.lists
  enum : ∀ d, shape.leaf = .enum d ↔ e.core = .enum d
  input : ∀ id, shape.leaf = .input id ↔ e.IsInput r id
  plain : shape.leaf = .plain ↔ (∀ d, e.core ≠ .enum d) ∧ ∀ id, ¬ e.IsInput r id

namespace Meaning

/-- A linked type compiles to what the type itself compiles to. -/
theorem link_of_link {e : TypeExpr} {l : Link} (h : r.link e = .ok l) (nonNull : Bool) :
    link r l nonNull = expr r nonNull e := by
  cases e with
  | ref T =>
      obtain ⟨id, hid, rfl⟩ := map_eq_ok.mp h
      rw [expr, hid]
      cases hnode : node r id <;> simp [link, hnode, Except.map, bind, Except.bind, pure,
        Except.pure]
  | scalar _ | enum _ | union _ | list _ | nullable _ =>
      cases h
      rfl

theorem linkShape_of_link {e : TypeExpr} {l : Link} (h : r.link e = .ok l) :
    linkShape r l = exprShape r e := by
  cases e with
  | ref T =>
      obtain ⟨id, hid, rfl⟩ := map_eq_ok.mp h
      rw [exprShape, hid]
      rfl
  | scalar _ | enum _ | union _ | list _ | nullable _ =>
      cases h
      rfl

theorem require_lists (c : CompiledRef) (nonNull nullable : Bool) :
    (Compile.require c nonNull nullable).typeRef.lists = c.typeRef.lists := by
  unfold Compile.require
  split <;> rfl

theorem node_lists {id : NodeId} {c : CompiledRef} (h : node r id = .ok c) :
    c.typeRef.lists = 0 := by
  unfold node at h
  cases hn : r.node id with
  | object _ | inputObject _ =>
      simp only [hn] at h
      cases h
      rfl
  | interface _ =>
      simp only [hn] at h
      obtain ⟨d, -, rfl⟩ := map_eq_ok.mp h
      rfl
  | field _ | args _ | arg _ | inputField _ | implement _ =>
      simp only [hn] at h
      cases h

theorem nodeShape_lists (id : NodeId) : (nodeShape r id).lists = 0 := by
  unfold nodeShape
  split <;> rfl

/-- The list layers of a type are in its reference and in its shape. -/
theorem expr_lists {e : TypeExpr} :
    ∀ {nonNull : Bool} {c : CompiledRef} {shape : ValueShape}, expr r nonNull e = .ok c →
      exprShape r e = .ok shape → shape.lists = c.typeRef.lists := by
  induction e with
  | ref T =>
      intro nonNull c shape hc hshape
      obtain ⟨id, -, hc⟩ := bind_eq_ok.mp hc
      obtain ⟨c', hnode, hc⟩ := bind_eq_ok.mp hc
      cases hc
      obtain ⟨id', -, rfl⟩ := map_eq_ok.mp hshape
      rw [require_lists, node_lists hnode, nodeShape_lists]
  | scalar d | enum d =>
      intro nonNull c shape hc hshape
      cases hc
      cases hshape
      rw [require_lists]
      rfl
  | union d =>
      intro nonNull c shape hc hshape
      obtain ⟨u, -, hc⟩ := bind_eq_ok.mp hc
      cases hc
      cases hshape
      rw [require_lists]
      rfl
  | list item ih =>
      intro nonNull c shape hc hshape
      obtain ⟨c', hitem, hc⟩ := bind_eq_ok.mp hc
      cases hc
      obtain ⟨shape', hshape', rfl⟩ := map_eq_ok.mp hshape
      rw [require_lists, ValueShape.lists, TypeRef.lists, ih hitem hshape']
  | nullable inner ih =>
      intro nonNull c shape hc hshape
      obtain ⟨c', hinner, hc⟩ := bind_eq_ok.mp hc
      cases hc
      rw [ih hinner hshape]

/-- The leaf of a shape is the shape of the core. -/
theorem exprShape_core {e : TypeExpr} :
    ∀ {shape : ValueShape}, exprShape r e = .ok shape → exprShape r e.core = .ok shape.leaf := by
  induction e with
  | ref T =>
      intro shape h
      have hleaf : shape.leaf = shape := by
        obtain ⟨id, -, rfl⟩ := map_eq_ok.mp h
        unfold nodeShape
        split <;> rfl
      rw [hleaf]
      exact h
  | scalar d | enum d | union d =>
      intro shape h
      cases h
      rfl
  | list item ih =>
      intro shape h
      obtain ⟨shape', hshape', rfl⟩ := map_eq_ok.mp h
      rw [TypeExpr.core, ValueShape.leaf]
      exact ih hshape'
  | nullable inner ih => exact ih

end Meaning

theorem TypeExpr.IsInput.unique {e : TypeExpr} {id id' : NodeId} (h : e.IsInput r id)
    (h' : e.IsInput r id') : id = id' := by
  obtain ⟨T, hT, hid, -⟩ := h
  obtain ⟨T', hT', hid', -⟩ := h'
  rw [hT, TypeExpr.ref.injEq] at hT'
  subst hT'
  exact Except.ok.inj (hid.symm.trans hid')

theorem TypeExpr.IsInput.core_ne_enum {e : TypeExpr} {id : NodeId} (h : e.IsInput r id)
    (d : EnumDef) : e.core ≠ .enum d := by
  obtain ⟨T, hT, -⟩ := h
  rw [hT]
  exact nofun

/-- What the leaf of the shape of a type can be. -/
theorem Meaning.leaf_cases {e : TypeExpr} {shape : ValueShape}
    (h : Meaning.exprShape r e = .ok shape) :
    (∃ d, e.core = .enum d ∧ shape.leaf = .enum d) ∨
      (∃ id, e.IsInput r id ∧ shape.leaf = .input id) ∨
      (shape.leaf = .plain ∧ (∀ d, e.core ≠ .enum d) ∧ ∀ id, ¬ e.IsInput r id) := by
  have hleaf := exprShape_core h
  have hplain : (∀ T, e.core ≠ .ref T) → ∀ id, ¬ e.IsInput r id := by
    rintro hne id ⟨T, hT, -⟩
    exact hne T hT
  cases hcore : e.core with
  | ref T =>
      rw [hcore] at hleaf
      obtain ⟨id, hid, hleaf⟩ := map_eq_ok.mp hleaf
      cases hinput : (r.node id).isInputObject with
      | true =>
          rw [nodeShape, if_pos hinput] at hleaf
          exact Or.inr (Or.inl ⟨id, ⟨T, hcore, hid, hinput⟩, hleaf.symm⟩)
      | false =>
          rw [nodeShape, if_neg (by simp [hinput])] at hleaf
          refine Or.inr (Or.inr ⟨hleaf.symm, by simp, ?_⟩)
          rintro id' ⟨T', hT', hid', hinput'⟩
          rw [hcore, TypeExpr.ref.injEq] at hT'
          subst hT'
          rw [Except.ok.inj (hid'.symm.trans hid), hinput] at hinput'
          cases hinput'
  | enum d =>
      rw [hcore] at hleaf
      exact Or.inl ⟨d, rfl, (Except.ok.inj hleaf).symm⟩
  | scalar _ | union _ =>
      have hnone := hplain (by simp [hcore])
      rw [hcore] at hleaf
      exact Or.inr (Or.inr ⟨(Except.ok.inj hleaf).symm, by simp, hnone⟩)
  | list item => exact absurd hcore (e.core_ne_nested.1 item)
  | nullable inner => exact absurd hcore (e.core_ne_nested.2 inner)

/-- The reference and the shape of one type belong together. -/
theorem Meaning.mirrors {e : TypeExpr} {l : Link} {c : CompiledRef} {shape : ValueShape}
    (hl : r.link e = .ok l) (hc : Meaning.link r l true = .ok c)
    (hshape : Meaning.linkShape r l = .ok shape) : shape.Mirrors r c.typeRef e := by
  have hexpr := hshape
  rw [linkShape_of_link hl] at hexpr
  have hlayers : shape.lists = c.typeRef.lists := by
    rw [link_of_link hl] at hc
    exact expr_lists hc hexpr
  rcases leaf_cases hexpr with ⟨d, hcore, hleaf⟩ | ⟨id, hinput, hleaf⟩ | ⟨hleaf, hne, hno⟩
  · have hno : ∀ id, ¬ e.IsInput r id := fun id h => h.core_ne_enum d hcore
    refine ⟨⟨l, c, hl, hc, rfl⟩, hlayers, fun d' => ?_, fun id => ?_, ?_⟩
    · simp [hleaf, hcore]
    · simp [hleaf, hno id]
    · simp [hleaf, hcore]
  · have hunique : ∀ id', e.IsInput r id' ↔ id = id' :=
      fun id' => ⟨hinput.unique, fun heq => heq ▸ hinput⟩
    refine ⟨⟨l, c, hl, hc, rfl⟩, hlayers, fun d => ?_, fun id' => ?_, ?_⟩
    · simp [hleaf, hinput.core_ne_enum d]
    · simp [hleaf, hunique id']
    · simp [hleaf, hunique]
  · refine ⟨⟨l, c, hl, hc, rfl⟩, hlayers, fun d => ?_, fun id => ?_, ?_⟩
    · simp [hleaf, hne d]
    · simp [hleaf, hno id]
    · exact ⟨fun _ => ⟨hne, hno⟩, fun _ => hleaf⟩

/-- The inputs in the shape of a type are input objects that the type mentions. -/
theorem Meaning.exprShape_inputs {e : TypeExpr} :
    ∀ {shape : ValueShape}, exprShape r e = .ok shape → ∀ {j : NodeId}, j ∈ shape.inputs →
      e.Mentions r (.node j) ∧ (r.node j).isInputObject = true := by
  induction e with
  | ref T =>
      intro shape h j hj
      obtain ⟨id, hid, rfl⟩ := map_eq_ok.mp h
      unfold nodeShape at hj
      split at hj
      · next hinput =>
          rw [List.mem_singleton.mp hj]
          exact ⟨⟨id, hid, rfl⟩, hinput⟩
      · cases hj
  | scalar d | enum d | union d =>
      intro shape h j hj
      cases h
      cases hj
  | list item ih =>
      intro shape h j hj
      obtain ⟨shape', hshape', rfl⟩ := map_eq_ok.mp h
      exact ih hshape' hj
  | nullable inner ih => exact ih

theorem Meaning.linkShape_inputs {l : Link} {shape : ValueShape}
    (h : Meaning.linkShape r l = .ok shape) {j : NodeId} (hj : j ∈ shape.inputs) :
    l.Mentions r (.node j) ∧ (r.node j).isInputObject = true := by
  cases l with
  | node id =>
      cases h
      unfold Meaning.nodeShape at hj
      split at hj
      · next hinput =>
          rw [List.mem_singleton.mp hj]
          exact ⟨rfl, hinput⟩
      · cases hj
  | given e => exact exprShape_inputs h hj

/-! ## Input objects and bundles -/

/-- The input field `i` in two forms: as the shape by which it is converted and as the schema
advertises it. -/
structure Registry.InputForms (r : Registry) (i : NodeId) (f : InputFieldShape)
    (c : CompiledInput) : Prop where
  declared : ∃ n e, r.node i = .inputField n ∧ n.decl.type? = some e ∧
    f.name = n.decl.name ∧ f.default? = n.decl.default? ∧ c.Describes n.decl ∧
    f.shape.Mirrors r c.typeRef e

/-- The shape of the input object or bundle `j` has its name, its constructor and its
declared input fields, in order; and each of them is advertised as it is converted. -/
structure InputObjectShape.Mirrors (r : Registry) (shape : InputObjectShape) (j : NodeId)
    (compiled : OrderedMap String CompiledInput) : Prop where
  name : shape.name = (r.node j).displayName
  constructor : (r.node j).constructor? = some shape.constructor
  fields : ∃ ids forms, (r.node j).inputFields? = some ids ∧
    List.Forall₂ (fun i p => r.InputForms i p.1 p.2) ids forms ∧
    shape.fields = forms.map Prod.fst ∧
    compiled = .ofList (forms.map fun p => (p.2.name, p.2))

/-- Input fields that compile and have shapes are converted as they are advertised. -/
theorem Meaning.forms_of_inputs {owner : String} {ids : List NodeId} :
    ∀ {before after : OrderedMap String CompiledInput} {fields : List InputFieldShape},
      inputs r owner ids before = .ok after → fieldShapes r ids = .ok fields →
      ∃ forms, List.Forall₂ (fun i p => r.InputForms i p.1 p.2) ids forms ∧
        fields = forms.map Prod.fst ∧
        after = before.insertAll (forms.map fun p => (p.2.name, p.2)) := by
  induction ids with
  | nil =>
      intro before after fields h hfields
      cases h
      cases hfields
      exact ⟨[], .nil, rfl, rfl⟩
  | cons i rest ih =>
      intro before after fields h hfields
      obtain ⟨linked, hlinked, h⟩ := bind_eq_ok.mp h
      obtain ⟨c, hc, h⟩ := bind_eq_ok.mp h
      obtain ⟨linked', hlinked', hfields⟩ := bind_eq_ok.mp hfields
      obtain rfl : linked = linked' := Except.ok.inj (hlinked.symm.trans hlinked')
      obtain ⟨shape, hshape, hfields⟩ := bind_eq_ok.mp hfields
      obtain ⟨shapes, hshapes, hfields⟩ := bind_eq_ok.mp hfields
      cases hfields
      obtain ⟨n, e, hn, hdecl, htype, hl⟩ := linkInput_eq_ok hlinked
      obtain ⟨forms, hforms, rfl, rfl⟩ := ih h hshapes
      refine ⟨(⟨linked.decl.name, shape, linked.decl.default?⟩,
        ⟨linked.decl.name, linked.decl.description, c.typeRef, linked.decl.default?⟩) :: forms,
        .cons ?_ hforms, rfl, rfl⟩
      refine ⟨n, e, hn, htype, ?_⟩
      rw [hdecl]
      exact ⟨rfl, rfl, ⟨rfl, rfl, rfl⟩, mirrors hl (input_eq_ok.mp hc).1 hshape⟩

theorem Meaning.shape_mirrors {j : NodeId} {shape : InputObjectShape} {owner : String}
    {compiled : OrderedMap String CompiledInput} (hshape : Meaning.shape r j = .ok shape)
    (h : Meaning.inputs r owner (bundleFields r j) ∅ = .ok compiled) :
    shape.Mirrors r j compiled := by
  obtain ⟨hinputs, hconstructor, hname, hfields⟩ := shape_eq_ok hshape
  obtain ⟨forms, hforms, hfst, hcompiled⟩ := forms_of_inputs h hfields
  exact ⟨hname, hconstructor, bundleFields r j, forms, hinputs, hforms, hfst, hcompiled⟩

/-- An input of a field of a shape is an input object that the declaration of the field
mentions. -/
theorem Meaning.fieldShapes_inputs {ids : List NodeId} :
    ∀ {fields : List InputFieldShape}, fieldShapes r ids = .ok fields →
      ∀ {f : InputFieldShape}, f ∈ fields → ∀ {j : NodeId}, j ∈ f.shape.inputs →
        (∃ i ∈ ids, r.InputMentions i (.node j)) ∧ (r.node j).isInputObject = true := by
  induction ids with
  | nil =>
      intro fields h f hf
      cases h
      cases hf
  | cons i rest ih =>
      intro fields h f hf j hj
      obtain ⟨linked, hlinked, h⟩ := bind_eq_ok.mp h
      obtain ⟨shape, hshape, h⟩ := bind_eq_ok.mp h
      obtain ⟨shapes, hshapes, h⟩ := bind_eq_ok.mp h
      cases h
      rcases List.mem_cons.mp hf with rfl | hf
      · obtain ⟨hmentions, hinput⟩ := linkShape_inputs hshape hj
        exact ⟨⟨i, List.mem_cons_self, linked, hlinked, hmentions⟩, hinput⟩
      · obtain ⟨⟨i', hi', hmentions⟩, hinput⟩ := ih hshapes hf hj
        exact ⟨⟨i', List.mem_cons_of_mem _ hi', hmentions⟩, hinput⟩

end SchemaGraph
