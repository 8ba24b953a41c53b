import SchemaGraph.Proofs.Compile.Reads
import SchemaGraph.Proofs.Compile.Wrapping

/-!
# The definition behind a name

A reference without a list around it is a bare name, and a compiler can be asked for the
definition that the name stands for. It compiles the reference, and then looks the definition up
in a second way of its own, which looks at the outermost layer of the type alone. A node is
looked up where nodes are kept, a built-in scalar is its own definition, and everything else,
whatever may be below the layer, is looked up by its name among the types that are given on the
spot.

So a nullable layer around a node or a built-in scalar hides the base: under its name nothing is
kept, or something else is. And a scalar or an enum that came too late to be kept under its name
is taken for the one that came first.
-/

set_option autoImplicit false

namespace SchemaGraph

open CompileState Compile

variable {r : Registry} {s s' : CompileState}

/-! ## Bases -/

/-- The definition of the base of the type: of a declared type what its node means, of one that is
given on the spot the type itself, with its members if it is a union. -/
def TypeExpr.DefinedBy (r : Registry) : TypeExpr → CompiledType → Prop
  | .ref t, k => ∃ id, r.getNode t = .ok id ∧ Meaning.type r id = .ok k
  | .scalar d, k => k = .scalar d
  | .enum d, k => k = .enum d
  | .union d, k => ∃ u, Meaning.union r d = .ok u ∧ k = .union u
  | .list item, k => item.DefinedBy r k
  | .nullable inner, k => inner.DefinedBy r k

namespace Link

/-- The definition of the base of a linked type. -/
def DefinedBy (r : Registry) : Link → CompiledType → Prop
  | .node id, k => Meaning.type r id = .ok k
  | .given t, k => t.DefinedBy r k

/-- How many lists there are around the base. -/
def lists : Link → Nat
  | .node _ => 0
  | .given t => t.lists

/-- The name of the base. -/
def coreName? (r : Registry) : Link → Option String
  | .node id => some (r.node id).displayName
  | .given t => t.coreName? r

/-- The kind of the base. -/
def coreKind? (r : Registry) : Link → Option NamedKind
  | .node id => (r.node id).namedKind?
  | .given t => t.coreKind? r

/-- The lookup gets to the definition of the base: the type is a node or a built-in scalar with
nothing around it, or the base is given on the spot and its name is free, or has been taken by the
same definition. -/
inductive IsFound (r : Registry) (s : CompileState) : Link → Prop
  | node (id : NodeId) : IsFound r s (.node id)
  | builtin {d : ScalarDef} (h : d.builtin = true) : IsFound r s (.given (.scalar d))
  | given {l : Link} {g : GivenType} (huse : l.Uses g)
      (hkept : ∀ k, s.given.find? g.name = some k → l.DefinedBy r k) : IsFound r s l

end Link

/-- What a node means is of the kind of the node. -/
theorem Meaning.type_kind {id : NodeId} {k : CompiledType} (h : type r id = .ok k) :
    (r.node id).namedKind? = some k.kind := by
  rcases type_cases h with ⟨c, hc, rfl⟩ | ⟨c, hc, rfl⟩ | ⟨c, hc, rfl⟩
  · obtain ⟨n, _, _, hn, -⟩ := object_eq_ok hc
    rw [hn]
    rfl
  · obtain ⟨n, _, _, hn, -⟩ := interface_eq_ok hc
    rw [hn]
    rfl
  · obtain ⟨n, _, hn, -⟩ := inputObject_eq_ok hc
    rw [hn]
    rfl

namespace TypeExpr

/-- The definition of the base has the name and the kind of the base. -/
theorem DefinedBy.core {t : TypeExpr} {k : CompiledType} (h : t.DefinedBy r k) :
    t.coreName? r = some k.name ∧ t.coreKind? r = some k.kind := by
  induction t with
  | ref t =>
      obtain ⟨id, hid, hk⟩ := h
      simp only [coreName?, coreKind?, hid, Meaning.type_name hk, Meaning.type_kind hk, and_self]
  | scalar d =>
      cases h
      exact ⟨rfl, rfl⟩
  | enum d =>
      cases h
      exact ⟨rfl, rfl⟩
  | union d =>
      obtain ⟨u, hu, rfl⟩ := h
      obtain ⟨_, -, rfl⟩ := Meaning.map_eq_ok.mp hu
      exact ⟨rfl, rfl⟩
  | list item ih => exact ih h
  | nullable inner ih => exact ih h

theorem coreName?_of_uses {t : TypeExpr} {g : GivenType} (h : t.Uses g) :
    t.coreName? r = some g.name := by
  induction t with
  | ref t => exact h.elim
  | scalar d =>
      obtain ⟨-, rfl⟩ := h
      rfl
  | enum d | union d =>
      cases h
      rfl
  | list item ih => exact ih h
  | nullable inner ih => exact ih h

/-- A base that is not given on the spot is declared, or is a scalar that every schema has. -/
theorem DefinedBy.of_not_uses {t : TypeExpr} {k : CompiledType} (hk : t.DefinedBy r k)
    (h : ∀ g, ¬ t.Uses g) :
    k.isDeclared = true ∨ ∃ d : ScalarDef, d.builtin = true ∧ k = .scalar d := by
  induction t with
  | ref t =>
      obtain ⟨_, -, hmeaning⟩ := hk
      exact Or.inl (Meaning.type_isDeclared hmeaning)
  | scalar d =>
      refine Or.inr ⟨d, ?_, hk⟩
      by_contra hcustom
      exact h (.scalar d) ⟨Bool.eq_false_iff.mpr hcustom, rfl⟩
  | enum d => exact absurd rfl (h (.enum d))
  | union d => exact absurd rfl (h (.union d))
  | list item ih => exact ih hk h
  | nullable inner ih => exact ih hk h

end TypeExpr

/-- What is kept under a name is never the definition of a base that is not given on the spot. -/
theorem CompileState.Faithful.not_definedBy (hs : s.Faithful r) {t : TypeExpr}
    (h : ∀ g, ¬ t.Uses g) {name : String} {k : CompiledType}
    (hk : s.given.find? name = some k) : ¬ t.DefinedBy r k := by
  intro hdefined
  rcases hdefined.of_not_uses h with hdeclared | ⟨d, hbuiltin, rfl⟩
  · rw [(hs.given hk).2] at hdeclared
    cases hdeclared
  · rw [hs.scalars hk] at hbuiltin
    cases hbuiltin

namespace Link

theorem DefinedBy.core {l : Link} {k : CompiledType} (h : l.DefinedBy r k) :
    l.coreName? r = some k.name ∧ l.coreKind? r = some k.kind := by
  cases l with
  | node id =>
      exact ⟨congrArg some (Meaning.type_name h).symm, Meaning.type_kind h⟩
  | given t => exact TypeExpr.DefinedBy.core h

theorem coreName?_of_uses {l : Link} {g : GivenType} (h : l.Uses g) :
    l.coreName? r = some g.name := by
  cases l with
  | node id => exact h.elim
  | given t => exact TypeExpr.coreName?_of_uses h

end Link

namespace TypeRef

theorem isNamed_iff {t : TypeRef} : t.isNamed = true ↔ t.lists = 0 ∧ t.isNonNull = false := by
  cases t <;> simp [isNamed, lists, isNonNull]

theorem render_of_isNamed {t : TypeRef} (h : t.isNamed = true) : t.render = t.coreName := by
  cases t with
  | named name => rfl
  | list _ | nonNull _ => cases h

end TypeRef

namespace Compile

variable {enter : NodeId → CompileM Unit}

/-- A reference that nobody asks to be required has the name and the kind of its base, and is a
bare name unless there is a list around it. -/
theorem core_of_type {l : Link} {c : CompiledRef} (hs : s.Faithful r)
    (h : type r l false s = .ok c s') :
    l.coreName? r = some c.typeRef.coreName ∧ l.coreKind? r = some c.kind ∧
      (c.typeRef.isNamed = true ↔ l.lists = 0) := by
  have hmeaning := (link_reads (enter_reads r) l false s hs).2 c s' h
  cases l with
  | node id =>
      obtain ⟨c', hnode, hc⟩ := Meaning.map_eq_ok.mp hmeaning
      obtain rfl : c' = c := hc
      obtain ⟨href, hkind⟩ := Meaning.node_eq_ok hnode
      refine ⟨congrArg some (congrArg TypeRef.coreName href).symm, hkind, ?_⟩
      rw [href]
      exact iff_of_true rfl rfl
  | given t =>
      obtain ⟨name, hname, hwraps⟩ := (expr_shows h).typeRef
      have hplain : c.typeRef.isNonNull = false := by
        simpa [TypeRef.under] using hwraps.required 0 (Nat.zero_le _)
      refine ⟨hwraps.name ▸ hname, (Meaning.expr_core false hmeaning).1, ?_⟩
      rw [TypeRef.isNamed_iff, hwraps.lists]
      exact and_iff_left hplain

/-! ## What is kept under a name -/

/-- A custom scalar is kept if its name is free. -/
theorem find?_of_keepScalar {d : ScalarDef} (hd : d.builtin = false)
    (h : keepScalar d s = .ok () s') :
    s'.given.find? d.name = some ((s.given.find? d.name).getD (.scalar d)) := by
  cases hfound : s.given.find? d.name with
  | some k =>
      simp only [keepScalar, get_bind, OrderedMap.contains_of_find? hfound, Bool.not_true,
        Bool.false_eq_true, and_false, if_false] at h
      cases h
      exact hfound
  | none =>
      have hfree := OrderedMap.contains_eq_false hfound
      simp only [keepScalar, get_bind, hd, hfree, Bool.not_false, and_self, if_true,
        bind_eq_ok, lift_eq_ok] at h
      obtain ⟨_, _, ⟨-, rfl⟩, h⟩ := h
      cases h
      exact OrderedMap.find?_insert_self _ _ _

theorem find?_of_keepEnum {d : EnumDef} (h : keepEnum d s = .ok () s') :
    s'.given.find? d.name = some ((s.given.find? d.name).getD (.enum d)) := by
  cases hfound : s.given.find? d.name with
  | some k =>
      simp only [keepEnum, get_bind, OrderedMap.contains_of_find? hfound] at h
      cases h
      exact hfound
  | none =>
      have hfree := OrderedMap.contains_eq_false hfound
      simp only [keepEnum, get_bind, hfree, Bool.not_false, if_true, bind_eq_ok,
        lift_eq_ok] at h
      obtain ⟨_, _, ⟨-, rfl⟩, _, _, ⟨-, rfl⟩, h⟩ := h
      cases h
      exact OrderedMap.find?_insert_self _ _ _

/-- A union whose name is taken is not kept again; one whose name is free is kept, whatever its
members have kept under the name. -/
theorem find?_of_unionDispatch {d : UnionDef} {dispatch : Dispatch}
    (h : unionDispatch r enter d s = .ok dispatch s') {u : CompiledUnion}
    (hu : Meaning.union r d = .ok u) :
    s'.given.find? d.name = some ((s.given.find? d.name).getD (.union u)) := by
  cases hfound : s.given.find? d.name with
  | some k =>
      by_cases hholds : s.Holds d
      · obtain ⟨⟨v, hv⟩, hmembers⟩ := hholds
        cases h.symm.trans (Repeats.unionDispatch_of_kept hv hmembers)
        exact hfound
      · cases h.symm.trans (unionDispatch_collides (OrderedMap.contains_of_find? hfound) hholds)
  | none =>
      cases hname : checkName d.name with
      | error e =>
          simp only [unionDispatch, get_bind, hfound, hname] at h
          cases h
      | ok _ =>
          rw [Repeats.unionDispatch_of_free hfound hname] at h
          obtain ⟨tables, s₁, hrun, h⟩ := bind_eq_ok.mp h
          obtain ⟨tables', htables, rfl⟩ := Meaning.map_eq_ok.mp hu
          cases (Repeats.unionMembers_meaning hrun).symm.trans htables
          cases h
          exact OrderedMap.find?_insert_self _ _ _

/-- What is given on the spot is kept under its name, unless something else has been. -/
theorem find?_of_expr (henter : EntersFaithfully r enter) {t : TypeExpr} {g : GivenType}
    (huse : t.Uses g) : ∀ {nonNull : Bool} {s s' : CompileState} {c : CompiledRef},
      s.Faithful r → expr r enter nonNull t s = .ok c s' →
      ∃ k, t.DefinedBy r k ∧ s'.given.find? g.name = some ((s.given.find? g.name).getD k) := by
  induction t with
  | ref t => exact huse.elim
  | scalar d =>
      intro nonNull s s' c _ h
      obtain ⟨hbuiltin, rfl⟩ := huse
      simp only [expr, bind_eq_ok, pure_eq_ok] at h
      obtain ⟨_, _, hkeep, -, rfl⟩ := h
      exact ⟨.scalar d, rfl, find?_of_keepScalar hbuiltin hkeep⟩
  | enum d =>
      intro nonNull s s' c _ h
      cases huse
      simp only [expr, bind_eq_ok, pure_eq_ok] at h
      obtain ⟨_, _, hkeep, -, rfl⟩ := h
      exact ⟨.enum d, rfl, find?_of_keepEnum hkeep⟩
  | union d =>
      intro nonNull s s' c hs h
      cases huse
      simp only [expr, bind_eq_ok, pure_eq_ok] at h
      obtain ⟨dispatch, _, hrun, -, rfl⟩ := h
      obtain ⟨u, hu, -⟩ :=
        Meaning.map_eq_ok.mp ((unionDispatch_reads henter d s hs).2 dispatch _ hrun)
      exact ⟨.union u, ⟨u, hu, rfl⟩, find?_of_unionDispatch hrun hu⟩
  | list item ih =>
      intro nonNull s s' c hs h
      simp only [expr, bind_eq_ok, pure_eq_ok] at h
      obtain ⟨_, _, hrun, -, rfl⟩ := h
      exact ih huse hs hrun
  | nullable inner ih =>
      intro nonNull s s' c hs h
      simp only [expr, bind_eq_ok, pure_eq_ok] at h
      obtain ⟨_, _, hrun, -, rfl⟩ := h
      exact ih huse hs hrun

/-! ## What is kept for a node -/

/-- A type that was answered is kept. -/
theorem Place.find?_of_build {α β : Type} {id : NodeId} (place : Place r id β) {x : CompileM α}
    {M : Mention → Prop} {rest : α → CompileM β} {b : β} (hx : Repeats r M x) (hs : s.Proper r)
    (hid : id ∉ s.inProgress) (hfree : place.find? s = none)
    (hrest : ∀ a t, t.Proper r → id ∉ t.inProgress → place.find? t = none →
      place.Finishes (rest a) t)
    (h : (inProgress id x >>= rest) s = .ok b s') : place.find? s' = some b := by
  obtain ⟨a, s₁, hbuilt, h⟩ := bind_eq_ok.mp h
  obtain ⟨s₂, hrun, rfl⟩ := inProgress_eq_ok.mp hbuilt
  have hext := (hx (s.mark id) ⟨hs.objects, hs.dispatches⟩).ext_ok hrun
  have hunmarked := hext.unmark hid
  rcases hrest a _ (hunmarked.proper hs) (hunmarked.inProgress ▸ hid) (place.unkept hfree hext)
    with ⟨h', -, hkept⟩ | h' | ⟨h', -, -⟩
  · cases h.symm.trans h'
    exact hkept
  · cases h.symm.trans h'
  · cases h.symm.trans h'

theorem find?_of_objectWith (henter : Enterable r enter) (hs : s.Proper r) {id : NodeId}
    (hid : id ∉ s.inProgress) {c : CompiledObject} (h : objectWith r enter id s = .ok c s') :
    s'.objects.find? id = some c := by
  cases hfree : s.objects.find? id with
  | some c' =>
      cases h.symm.trans (objectWith_of_kept hfree)
      exact hfree
  | none =>
      cases hn : r.node id with
      | object n =>
          have hobject : (r.node id).isObject = true := by
            simp [hn, Node.isObject, Node.object?]
          rw [objectWith_of_free hn hfree] at h
          refine (Place.objects hobject).find?_of_build (Repeats.objectBody henter hn) hs hid hfree
            (fun built t _ hid hfree => ?_) h
          exact .kept rfl ((Place.objects hobject).retains _ hid hfree)
            ((Place.objects hobject).find?_keep _ t)
      | interface _ | inputObject _ | field _ | args _ | arg _ | inputField _ | implement _ =>
          simp only [objectWith, get_bind, hfree, hn] at h
          cases h

theorem find?_of_inputObjectWith (henter : Enterable r enter) (hs : s.Proper r) {id : NodeId}
    (hid : id ∉ s.inProgress) {c : CompiledInputObject}
    (h : inputObjectWith r enter id s = .ok c s') : s'.inputObjects.find? id = some c := by
  cases hfree : s.inputObjects.find? id with
  | some c' =>
      cases h.symm.trans (inputObjectWith_of_kept hfree)
      exact hfree
  | none =>
      cases hn : r.node id with
      | inputObject n =>
          rw [inputObjectWith_of_free hn hfree] at h
          refine (Place.inputObjects r id).find?_of_build (Repeats.inputs henter _ _ _) hs hid hfree
            (fun built t _ hid hfree => ?_) h
          exact .kept rfl ((Place.inputObjects r id).retains _ hid hfree)
            ((Place.inputObjects r id).find?_keep _ t)
      | object _ | interface _ | field _ | args _ | arg _ | inputField _ | implement _ =>
          simp only [inputObjectWith, get_bind, hfree, hn] at h
          cases h

theorem find?_of_interfaceWith (henter : Enterable r enter) (hs : s.Proper r) {id : NodeId}
    (hid : id ∉ s.inProgress) {c : CompiledInterface}
    (h : interfaceWith r enter id s = .ok c s') : s'.interfaces.find? id = some c := by
  cases hfree : s.interfaces.find? id with
  | some c' =>
      cases h.symm.trans (interfaceWith_of_kept hfree)
      exact hfree
  | none =>
      cases hn : r.node id with
      | interface n =>
          rw [interfaceWith_of_free hn hfree] at h
          exact (Place.interfaces r id).find?_of_build (Repeats.fields henter _ _ _) hs hid hfree
            (fun built t => finishInterface_finishes henter n built) h
      | object _ | inputObject _ | field _ | args _ | arg _ | inputField _ | implement _ =>
          simp only [interfaceWith, get_bind, hfree, hn] at h
          cases h

/-- A node that is compiled is kept as what it means. -/
theorem keptDefinition_of_compileNode (henter : Enterable r enter)
    (hreads : EntersFaithfully r enter) (hs : s.Proper r) (hs' : s.Faithful r) {id : NodeId}
    (hid : id ∉ s.inProgress) (h : compileNode r enter id s = .ok () s') (name : String) :
    ∃ k, keptDefinition r (.node id) name s' = some k ∧ Meaning.type r id = .ok k := by
  unfold compileNode at h
  cases hn : r.node id with
  | object n =>
      simp only [hn, discard_eq_ok] at h
      obtain ⟨c, hrun⟩ := h
      have hkept := find?_of_objectWith henter hs hid hrun
      have hmeaning := (objectWith_reads hreads id s hs').2 c s' hrun
      refine ⟨.object c, ?_, Meaning.type_of_object hmeaning⟩
      simp only [keptDefinition, hn, hkept, Option.map_some]
  | interface n =>
      simp only [hn, discard_eq_ok] at h
      obtain ⟨c, hrun⟩ := h
      have hkept := find?_of_interfaceWith henter hs hid hrun
      have hmeaning := (interfaceWith_reads hreads id s hs').2 c s' hrun
      refine ⟨.interface c, ?_, Meaning.type_of_interface hmeaning⟩
      simp only [keptDefinition, hn, hkept, Option.map_some]
  | inputObject n =>
      simp only [hn, discard_eq_ok] at h
      obtain ⟨c, hrun⟩ := h
      have hkept := find?_of_inputObjectWith henter hs hid hrun
      have hmeaning := (inputObjectWith_reads hreads id s hs').2 c s' hrun
      refine ⟨.inputObject c, ?_, Meaning.type_of_inputObject hmeaning⟩
      simp only [keptDefinition, hn, hkept, Option.map_some]
  | field _ | args _ | arg _ | inputField _ | implement _ =>
      simp only [hn] at h
      exact absurd h throw_ne_ok

/-- A reference to a node enters it, and then at most looks up its dispatch table. -/
theorem retains_of_nodeRef (henter : Enterable r enter) (hs : s.Proper r) {id : NodeId}
    {c : CompiledRef} (h : nodeRef r enter id s = .ok c s') :
    ∃ s₁, enter id s = .ok () s₁ ∧ Retains r s₁ s' := by
  unfold nodeRef at h
  cases hn : r.node id with
  | object n | inputObject n =>
      simp only [hn, bind_eq_ok, pure_eq_ok] at h
      obtain ⟨_, s₁, hrun, -, rfl⟩ := h
      exact ⟨s₁, hrun, .refl r s₁⟩
  | interface n =>
      simp only [hn, bind_eq_ok, pure_eq_ok] at h
      obtain ⟨_, s₁, hrun, d, _, hdispatch, -, rfl⟩ := h
      have hs₁ := ((henter.repeats id s hs).ext_ok hrun).proper hs
      exact ⟨s₁, hrun,
        (Repeats.interfaceDispatch (M := r.Leads id) id s₁ hs₁).ext_ok hdispatch⟩
  | field _ | args _ | arg _ | inputField _ | implement _ =>
      simp only [hn] at h
      exact absurd h throw_ne_ok

/-- Between requests no node is passed over, so one that is referred to is kept. -/
theorem keptDefinition_of_node (hs : Visits r {} s) {id : NodeId} {c : CompiledRef}
    (h : type r (.node id) false s = .ok c s') (name : String) :
    ∃ k, keptDefinition r (.node id) name s' = some k ∧ Meaning.type r id = .ok k := by
  obtain ⟨hproper, hidle⟩ := hs.idle
  have hid : id ∉ s.inProgress := hidle ▸ List.not_mem_nil
  obtain ⟨c', _, hrun, h⟩ := bind_eq_ok.mp h
  obtain ⟨-, rfl⟩ := pure_eq_ok.mp h
  obtain ⟨s₁, hentered, hext⟩ := retains_of_nodeRef (enterable_enter r) hproper hrun
  have hcompiled : compileNode r (compileWithin r r.size) id s = .ok () s₁ :=
    (compileWithin_of_unmarked hid).symm.trans hentered
  obtain ⟨k, hkept, hmeaning⟩ := keptDefinition_of_compileNode (enterable_compileWithin r _)
    (compileWithin_reads _) hproper hs.faithful hid hcompiled name
  exact ⟨k, hext.keptDefinition hkept, hmeaning⟩

/-! ## The lookup -/

/-- What has a layer around it, or is given on the spot, is looked up by name. -/
theorem keptDefinition_given {t : TypeExpr} (h : ∀ d, t = .scalar d → d.builtin = false)
    (name : String) : keptDefinition r (.given t) name s = s.given.find? name := by
  cases t with
  | scalar d => simp only [keptDefinition, h d rfl, Bool.false_eq_true, if_false]
  | ref _ | enum _ | union _ | list _ | nullable _ => rfl

/-- The bare name of a base that is given on the spot is the name it is kept under. -/
theorem render_of_uses (hs : s.Faithful r) {l : Link} {c : CompiledRef}
    (h : type r l false s = .ok c s') (hnamed : c.typeRef.isNamed = true) {g : GivenType}
    (huse : l.Uses g) : c.typeRef.render = g.name := by
  have hcore := (core_of_type hs h).1
  rw [TypeRef.render_of_isNamed hnamed]
  exact Option.some.inj (hcore.symm.trans (Link.coreName?_of_uses huse))

theorem keptDefinition_of_isFound (hs : Visits r {} s) {l : Link} {c : CompiledRef}
    (h : type r l false s = .ok c s') (hnamed : c.typeRef.isNamed = true)
    (hfound : l.IsFound r s) :
    ∃ k, keptDefinition r l c.typeRef.render s' = some k ∧ l.DefinedBy r k := by
  cases hfound with
  | node id => exact keptDefinition_of_node hs h _
  | @builtin d hd => exact ⟨.scalar d, if_pos hd, rfl⟩
  | @given _ g huse hkept =>
      cases l with
      | node id => exact huse.elim
      | given t =>
          have hcustom : ∀ d, t = .scalar d → d.builtin = false := by
            rintro d rfl
            exact huse.1
          rw [keptDefinition_given hcustom, render_of_uses hs.faithful h hnamed huse]
          obtain ⟨k, hk, hafter⟩ := find?_of_expr (enter_reads r) huse hs.faithful h
          cases hbefore : s.given.find? g.name with
          | none =>
              rw [hbefore, Option.getD_none] at hafter
              exact ⟨k, hafter, hk⟩
          | some k' =>
              rw [hbefore, Option.getD_some] at hafter
              exact ⟨k', hafter, hkept k' hbefore⟩

theorem keptDefinition_of_not_isFound (hs : Visits r {} s) {l : Link} {c : CompiledRef}
    (h : type r l false s = .ok c s') (hnamed : c.typeRef.isNamed = true)
    (hhidden : ¬ l.IsFound r s) :
    keptDefinition r l c.typeRef.render s' = s'.given.find? c.typeRef.render ∧
      ∀ k, s'.given.find? c.typeRef.render = some k → ¬ l.DefinedBy r k := by
  cases l with
  | node id => exact absurd (.node id) hhidden
  | given t =>
      have hcustom : ∀ d, t = .scalar d → d.builtin = false := by
        rintro d rfl
        by_contra hbuiltin
        exact hhidden (.builtin (Bool.not_eq_false _ ▸ hbuiltin))
      refine ⟨keptDefinition_given hcustom _, fun k hk hdefined => ?_⟩
      by_cases huse : ∃ g, t.Uses g
      · obtain ⟨g, huse⟩ := huse
        rw [render_of_uses hs.faithful h hnamed huse] at hk
        -- the name was taken by something else, and that is still there
        refine hhidden (.given huse fun k' hk' => ?_)
        obtain ⟨_, -, hafter⟩ := find?_of_expr (enter_reads r) huse hs.faithful h
        rw [hk, hk', Option.getD_some, Option.some.injEq] at hafter
        exact hafter ▸ hdefined
      · have hs' : (stateAfter (type r (.given t) false) s).Faithful r :=
          (link_reads (enter_reads r) (.given t) false s hs.faithful).1
        rw [stateAfter_ok h] at hs'
        exact hs'.not_definedBy (not_exists.mp huse) hk hdefined

/-- The reference is compiled, and if it is a bare name it is looked up; nothing more is kept. -/
theorem namedType_eq {l : Link} {c : CompiledRef} (h : type r l false s = .ok c s') :
    namedType r l s =
      if c.typeRef.isNamed then
        match keptDefinition r l c.typeRef.render s' with
        | some k => .ok k s'
        | none => .error (.typeNotFound c.typeRef.render) s'
      else .error (.notNamedType c.typeRef.render) s' := by
  show EStateM.bind (type r l false) _ s = _
  unfold EStateM.bind
  rw [h]
  cases hnamed : c.typeRef.isNamed with
  | false =>
      simp only [hnamed]
      rfl
  | true =>
      simp only [hnamed, Bool.not_true, Bool.false_eq_true, if_false, if_true, get_bind]
      cases keptDefinition r l c.typeRef.render s' <;> rfl

/-- What a compiler answers between requests when it is asked for the definition behind a type that
it can compile a reference to. Behind a list there is none. Behind a bare name it is the definition
of the base, with the name and the kind of the reference, if the lookup gets there. Otherwise
either nothing is found, or what is answered is something else that has the name. -/
theorem namedType_exact {l : Link} {c : CompiledRef} (hs : Visits r {} s)
    (h : type r l false s = .ok c s') :
    (c.typeRef.isNamed = true ↔ l.lists = 0) ∧
      (l.lists ≠ 0 → namedType r l s = .error (.notNamedType c.typeRef.render) s') ∧
      (l.lists = 0 → l.IsFound r s → ∃ k, namedType r l s = .ok k s' ∧ l.DefinedBy r k ∧
        k.name = c.typeRef.render ∧ k.kind = c.kind) ∧
      (l.lists = 0 → ¬ l.IsFound r s →
        (namedType r l s = .error (.typeNotFound c.typeRef.render) s' ∧
          s'.given.find? c.typeRef.render = none) ∨
        ∃ k, namedType r l s = .ok k s' ∧ s'.given.find? c.typeRef.render = some k ∧
          ¬ l.DefinedBy r k) := by
  obtain ⟨hname, hkind, hnamed⟩ := core_of_type hs.faithful h
  refine ⟨hnamed, fun hlists => ?_, fun hlists hfound => ?_, fun hlists hhidden => ?_⟩
  · rw [namedType_eq h, if_neg (mt hnamed.mp hlists)]
  · have hbare := hnamed.mpr hlists
    obtain ⟨k, hkept, hk⟩ := keptDefinition_of_isFound hs h hbare hfound
    obtain ⟨hname', hkind'⟩ := hk.core
    refine ⟨k, ?_, hk, ?_, Option.some.inj (hkind'.symm.trans hkind)⟩
    · rw [namedType_eq h, if_pos hbare, hkept]
    · rw [TypeRef.render_of_isNamed hbare]
      exact Option.some.inj (hname'.symm.trans hname)
  · have hbare := hnamed.mpr hlists
    obtain ⟨hlookup, hother⟩ := keptDefinition_of_not_isFound hs h hbare hhidden
    rw [namedType_eq h, if_pos hbare, hlookup]
    cases hkept : s'.given.find? c.typeRef.render with
    | none => exact Or.inl ⟨rfl, rfl⟩
    | some k => exact Or.inr ⟨k, rfl, rfl, hother k hkept⟩

end Compile

namespace People

/-- A member is compiled in all three forms, and no definition given on the spot takes its
name. -/
theorem member_answered :
    (∀ l ∈ [Link.node 9, .given (.list (.ref member)), .given (.nullable (.ref member))],
      (Request.type l false).isAnswered registry {} = true) ∧
    ((Request.type (.given (.nullable (.ref member))) false).after registry
      {}).given.contains "Member" = false := by
  decide +kernel

/-- A member, the object at node 9, is looked up by its node, and behind a list of members there
is no definition. -/
theorem member_defined :
    (∃ c k s', Compile.type registry (.node 9) false {} = .ok c s' ∧
      namedType registry (.node 9) {} = .ok k s' ∧ Meaning.type registry 9 = .ok k ∧
      k.name = c.typeRef.render ∧ k.kind = c.kind) ∧
    ∃ c s', Compile.type registry (.given (.list (.ref member))) false {} = .ok c s' ∧
      namedType registry (.given (.list (.ref member))) {} =
        .error (.notNamedType c.typeRef.render) s' := by
  obtain ⟨_, hnode⟩ := Request.ask_of_isAnswered (member_answered.1 (.node 9) (by simp))
  obtain ⟨c, hc, -⟩ := map_eq_ok.mp hnode
  obtain ⟨_, hlist⟩ := Request.ask_of_isAnswered
    (member_answered.1 (.given (.list (.ref member))) (by simp))
  obtain ⟨c', hc', -⟩ := map_eq_ok.mp hlist
  obtain ⟨-, -, hfound, -⟩ := namedType_exact .refl hc
  obtain ⟨k, hk, hmeaning, hname, hkind⟩ := hfound rfl (.node 9)
  obtain ⟨-, hnone, -⟩ := namedType_exact .refl hc'
  exact ⟨⟨c, k, _, hc, hk, hmeaning, hname, hkind⟩, c', _, hc', hnone (by decide)⟩

/-- A member that may be null has the same bare name, and the definition behind it is not
found. -/
theorem nullable_member_hidden : ∃ c s',
    Compile.type registry (.given (.nullable (.ref member))) false {} = .ok c s' ∧
      c.typeRef.isNamed = true ∧ c.typeRef.render = "Member" ∧
      namedType registry (.given (.nullable (.ref member))) {} =
        .error (.typeNotFound "Member") s' := by
  obtain ⟨_, hasked⟩ := Request.ask_of_isAnswered
    (member_answered.1 (.given (.nullable (.ref member))) (by simp))
  obtain ⟨c, hc, -⟩ := map_eq_ok.mp hasked
  obtain ⟨hname, -, hnamed⟩ := core_of_type (.start registry) hc
  have hbare := hnamed.mpr rfl
  have hmember : c.typeRef.render = "Member" := by
    rw [TypeRef.render_of_isNamed hbare]
    exact (Option.some.inj hname).symm.trans rfl
  have hunkept : ((Request.type (.given (.nullable (.ref member))) false).after registry
      {}).given.find? "Member" = none :=
    OrderedMap.find?_eq_none_of_contains member_answered.2
  refine ⟨c, _, hc, hbare, hmember, ?_⟩
  rw [namedType_eq hc, if_pos hbare, keptDefinition_given (fun _ h => by cases h), hmember, hunkept]

end People

end SchemaGraph
