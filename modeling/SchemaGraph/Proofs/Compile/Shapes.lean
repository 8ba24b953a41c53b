import SchemaGraph.Compile.InputShape
import SchemaGraph.Proofs.Compile.Run
import SchemaGraph.Proofs.Compile.Sound

/-!
# The table of shapes is complete

The entry of an input object is made before its fields are looked at, so in the
middle of the work the table holds entries that are not filled. They are the
ones of the nodes the work is nested in, and when the outermost call answers
there are none left: every entry is filled, with what the registry means, and
everything it refers to has an entry too.
-/

set_option autoImplicit false

namespace SchemaGraph.Compile

/-- A run that works on the table of shapes and on nothing else. -/
structure ShapesAdvance (r : Registry) (U : NodeId → Prop) (s s' : CompileState) :
    Prop where
  frame : s' = { s with shapes := s'.shapes }
  sound : s'.shapes.Sound r U
  grows : ∀ {id}, s.shapes.contains id = true → s'.shapes.contains id = true

/-- What is asked of `enter` when shapes are made: that it makes the table know
the node. -/
def EntersShape (r : Registry) (enter : NodeId → CompileM Unit) : Prop :=
  ∀ {U : NodeId → Prop} {s s' : CompileState} {id : NodeId} {u : Unit},
    s.shapes.Sound r U → enter id s = .ok u s' →
    ShapesAdvance r U s s' ∧ s'.shapes.contains id = true

variable {r : Registry} {U : NodeId → Prop} {s s' s'' : CompileState}
  {enter : NodeId → CompileM Unit}

theorem ShapesAdvance.refl (h : s.shapes.Sound r U) : ShapesAdvance r U s s :=
  ⟨rfl, h, id⟩

theorem ShapesAdvance.trans (h : ShapesAdvance r U s s') (h' : ShapesAdvance r U s' s'') :
    ShapesAdvance r U s s'' where
  frame := by
    rw [h'.frame, h.frame]
  sound := h'.sound
  grows hc := h'.grows (h.grows hc)

theorem nodeShape_ok (henter : EntersShape r enter) (hs : s.shapes.Sound r U)
    {id : NodeId} {shape : ValueShape}
    (h : (if (r.node id).isInputObject = true then do
        enter id
        pure (ValueShape.input id)
      else pure ValueShape.plain : CompileM ValueShape) s = .ok shape s') :
    ShapesAdvance r U s s' ∧ Meaning.nodeShape r id = shape ∧
      ∀ i ∈ shape.inputs, s'.shapes.contains i = true := by
  unfold Meaning.nodeShape
  split at h
  · next hinput =>
      simp only [bind_eq_ok, pure_eq_ok] at h
      obtain ⟨_, _, hrun, rfl, rfl⟩ := h
      obtain ⟨hadv, hknown⟩ := henter hs hrun
      rw [if_pos hinput]
      refine ⟨hadv, rfl, ?_⟩
      intro i hi
      rw [List.mem_singleton.mp hi]
      exact hknown
  · next hinput =>
      obtain ⟨rfl, rfl⟩ := pure_eq_ok.mp h
      rw [if_neg hinput]
      exact ⟨ShapesAdvance.refl hs, rfl, fun i hi => absurd hi List.not_mem_nil⟩

theorem shapeOfExpr_ok (henter : EntersShape r enter) {t : TypeExpr} :
    ∀ {s s' : CompileState} {shape : ValueShape}, s.shapes.Sound r U →
      shapeOfExpr r enter t s = .ok shape s' →
      ShapesAdvance r U s s' ∧ Meaning.exprShape r t = .ok shape ∧
        ∀ i ∈ shape.inputs, s'.shapes.contains i = true := by
  induction t with
  | ref t =>
      intro s s' shape hs h
      simp only [shapeOfExpr, bind_eq_ok, lift_eq_ok] at h
      obtain ⟨id, _, ⟨hid, rfl⟩, h⟩ := h
      obtain ⟨hadv, hshape, hinputs⟩ := nodeShape_ok henter hs h
      refine ⟨hadv, ?_, hinputs⟩
      rw [Meaning.exprShape, hid, Except.map, hshape]
  | scalar _ | enum _ | union _ =>
      intro s s' shape hs h
      obtain ⟨rfl, rfl⟩ := pure_eq_ok.mp h
      exact ⟨ShapesAdvance.refl hs, rfl, fun i hi => absurd hi List.not_mem_nil⟩
  | list item ih =>
      intro s s' shape hs h
      simp only [shapeOfExpr, bind_eq_ok, pure_eq_ok] at h
      obtain ⟨shape, _, hrun, rfl, rfl⟩ := h
      obtain ⟨hadv, hshape, hinputs⟩ := ih hs hrun
      refine ⟨hadv, ?_, hinputs⟩
      rw [Meaning.exprShape, hshape, Except.map]
  | nullable inner ih =>
      intro s s' shape hs h
      exact ih hs h

theorem shapeOfLink_ok (henter : EntersShape r enter) {l : Link} {shape : ValueShape}
    (hs : s.shapes.Sound r U) (h : shapeOfLink r enter l s = .ok shape s') :
    ShapesAdvance r U s s' ∧ Meaning.linkShape r l = .ok shape ∧
      ∀ i ∈ shape.inputs, s'.shapes.contains i = true := by
  cases l with
  | node id =>
      obtain ⟨hadv, hshape, hinputs⟩ := nodeShape_ok henter hs h
      exact ⟨hadv, by rw [Meaning.linkShape, hshape], hinputs⟩
  | given t => exact shapeOfExpr_ok henter hs h

theorem fieldShapes_ok (henter : EntersShape r enter) {ids : List NodeId} :
    ∀ {s s' : CompileState} {shapes : List InputFieldShape}, s.shapes.Sound r U →
      fieldShapes r enter ids s = .ok shapes s' →
      ShapesAdvance r U s s' ∧ Meaning.fieldShapes r ids = .ok shapes ∧
        ∀ f ∈ shapes, ∀ i ∈ f.shape.inputs, s'.shapes.contains i = true := by
  induction ids with
  | nil =>
      intro s s' shapes hs h
      obtain ⟨rfl, rfl⟩ := pure_eq_ok.mp h
      exact ⟨ShapesAdvance.refl hs, rfl, fun f hf => absurd hf List.not_mem_nil⟩
  | cons id rest ih =>
      intro s s' shapes hs h
      simp only [fieldShapes, bind_eq_ok, lift_eq_ok, pure_eq_ok] at h
      obtain ⟨field, _, ⟨hfield, rfl⟩, shape, s₁, hshape, shapes, s₂, hrest, rfl, rfl⟩ := h
      obtain ⟨hadv₁, hshape, hinputs₁⟩ := shapeOfLink_ok henter hs hshape
      obtain ⟨hadv₂, hrest, hinputs₂⟩ := ih hadv₁.sound hrest
      refine ⟨hadv₁.trans hadv₂, ?_, ?_⟩
      · simp only [Meaning.fieldShapes, Meaning.bind_eq_ok]
        exact ⟨field, hfield, shape, hshape, shapes, hrest, rfl⟩
      · intro f hf i hi
        rcases List.mem_cons.mp hf with rfl | hf
        · exact hadv₂.grows (hinputs₁ i hi)
        · exact hinputs₂ f hf i hi

/-- An entry that is made is not filled. -/
theorem sound_insert_none {table : ShapeTable} (h : table.Sound r U) (id : NodeId) :
    ShapeTable.Sound r (fun i => U i ∨ i = id) (table.insert id none) where
  meaning {i shape} hfind := by
    rw [OrderedMap.find?_insert] at hfind
    split at hfind
    · cases hfind
    · exact h.meaning hfind
  closed {i shape} hfind := by
    rw [OrderedMap.find?_insert] at hfind
    split at hfind
    · cases hfind
    · intro f hf j hj
      exact OrderedMap.contains_insert.mpr (Or.inr (h.closed hfind f hf j hj))
  unfilled {i} hfind := by
    rw [OrderedMap.find?_insert] at hfind
    split at hfind
    · next heq => exact Or.inr heq
    · exact Or.inl (h.unfilled hfind)

/-- An entry may be filled with its meaning once what it refers to is known. -/
theorem sound_insert_some {table : ShapeTable} {id : NodeId} {shape : InputObjectShape}
    (h : table.Sound r fun i => U i ∨ i = id) (hmeaning : Meaning.shape r id = .ok shape)
    (hclosed : ∀ f ∈ shape.fields, ∀ i ∈ f.shape.inputs, table.contains i = true) :
    ShapeTable.Sound r U (table.insert id (some shape)) where
  meaning {i shape'} hfind := by
    rw [OrderedMap.find?_insert] at hfind
    split at hfind
    · next heq =>
        cases hfind
        exact heq ▸ hmeaning
    · exact h.meaning hfind
  closed {i shape'} hfind := by
    rw [OrderedMap.find?_insert] at hfind
    intro f hf j hj
    refine OrderedMap.contains_insert.mpr (Or.inr ?_)
    split at hfind
    · cases hfind
      exact hclosed f hf j hj
    · exact h.closed hfind f hf j hj
  unfilled {i} hfind := by
    rw [OrderedMap.find?_insert] at hfind
    split at hfind
    · cases hfind
    · next hne => exact (h.unfilled hfind).resolve_right hne

theorem inputShapeWithin_ok {depth : Nat} : EntersShape r (inputShapeWithin r depth) := by
  induction depth with
  | zero =>
      intro U s s' id u _ h
      exact absurd h throw_ne_ok
  | succ depth ih =>
      intro U s s' id u hs h
      simp only [inputShapeWithin, bind_eq_ok, get_eq_ok] at h
      obtain ⟨_, _, ⟨rfl, rfl⟩, h⟩ := h
      split at h
      · next hknown =>
          obtain ⟨-, rfl⟩ := pure_eq_ok.mp h
          exact ⟨ShapesAdvance.refl hs, hknown⟩
      · cases hfields : (r.node id).inputFields? with
        | none =>
            simp only [hfields] at h
            exact absurd h throw_ne_ok
        | some inputFields =>
            cases hconstructor : (r.node id).constructor? with
            | none =>
                simp only [hfields, hconstructor] at h
                exact absurd h throw_ne_ok
            | some constructor =>
                simp only [hfields, hconstructor, keepShape, bind_eq_ok, modify_eq_ok] at h
                obtain ⟨_, s₁, rfl, shapes, s₂, hrun, rfl⟩ := h
                -- The node counts as unfilled while its fields are looked at.
                obtain ⟨hadv, hshapes, hinputs⟩ :=
                  fieldShapes_ok ih (sound_insert_none hs id) hrun
                have hmeaning : Meaning.shape r id
                    = .ok ⟨(r.node id).displayName, shapes, constructor⟩ := by
                  simp only [Meaning.shape, hfields, hconstructor, Meaning.map_eq_ok]
                  exact ⟨shapes, hshapes, rfl⟩
                refine ⟨⟨?_, sound_insert_some hadv.sound hmeaning hinputs, ?_⟩, ?_⟩
                · rw [hadv.frame]
                · intro i hi
                  refine OrderedMap.contains_insert.mpr (Or.inr (hadv.grows ?_))
                  exact OrderedMap.contains_insert.mpr (Or.inr hi)
                · exact OrderedMap.contains_insert.mpr (Or.inl rfl)

theorem inputShape_ok : EntersShape r (inputShape r) := inputShapeWithin_ok

end SchemaGraph.Compile
