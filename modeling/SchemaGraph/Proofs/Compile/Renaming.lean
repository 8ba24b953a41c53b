import Mathlib.Data.Option.Basic
import SchemaGraph.Proofs.Declared.Renaming
import SchemaGraph.Proofs.Input.Tables

/-!
# Compiled types do not know the numbers of nodes

What a registry means by a type is read off it by following references, and a renaming
takes references to references. So two registries that are renamings of each other mean
the same by a type. The readings are gone through one by one, each beside the reading of
the other registry, from references up to whole types.

The one thing to be careful about is what is listed in the order of declaration: the
implementers of an interface and the descendants of a member of a union. They end up in
dispatch tables, and a dispatch table is only ever looked up in.
-/

set_option autoImplicit false

namespace SchemaGraph

/-! ## When compiled types are the same -/

/-- Tables that stand for the same: whatever is looked up in them. -/
structure Dispatch.Same (d d' : Dispatch) : Prop where
  name : d'.name = d.name
  kind : d'.kind = d.kind
  objectFor : ∀ t, d'.objectFor? t = d.objectFor? t

structure CompiledRef.Same (c c' : CompiledRef) : Prop where
  typeRef : c'.typeRef = c.typeRef
  kind : c'.kind = c.kind
  hook : c'.hook? = c.hook?
  dispatch : Option.Rel Dispatch.Same c.dispatch? c'.dispatch?

/-- Arguments are materialized by the same inputs, under their other numbers. A lineage is
a table as well. -/
structure FieldResolver.Same (σ : Equiv.Perm NodeId) (f f' : FieldResolver) : Prop where
  field : f'.field = f.field
  explicit : f'.explicit? = f.explicit?
  hook : f'.hook? = f.hook?
  arguments : f'.arguments = f.arguments.rename σ
  dispatch : Option.Rel Dispatch.Same f.dispatch? f'.dispatch?
  lineage : f'.lineage.entries.Perm f.lineage.entries

structure CompiledField.Same (σ : Equiv.Perm NodeId) (f f' : CompiledField) : Prop where
  name : f'.name = f.name
  description : f'.description = f.description
  deprecation : f'.deprecation = f.deprecation
  typeRef : f'.typeRef = f.typeRef
  args : f'.args = f.args
  resolver : f.resolver.Same σ f'.resolver

structure CompiledObject.Same (σ : Equiv.Perm NodeId) (c c' : CompiledObject) : Prop where
  name : c'.name = c.name
  description : c'.description = c.description
  interfaces : c'.interfaces = c.interfaces
  fields : c.fields.Rel (CompiledField.Same σ) c'.fields

structure CompiledInterface.Same (σ : Equiv.Perm NodeId) (c c' : CompiledInterface) :
    Prop where
  name : c'.name = c.name
  description : c'.description = c.description
  fields : c.fields.Rel (CompiledField.Same σ) c'.fields
  dispatch : c.dispatch.Same c'.dispatch

/-- Compiled types that differ in the numbers of inputs and in the order of tables at
most. -/
inductive CompiledType.Same (σ : Equiv.Perm NodeId) : CompiledType → CompiledType → Prop where
  | object {c c' : CompiledObject} : c.Same σ c' → Same σ (.object c) (.object c')
  | interface {c c' : CompiledInterface} :
      c.Same σ c' → Same σ (.interface c) (.interface c')
  | inputObject (c : CompiledInputObject) : Same σ (.inputObject c) (.inputObject c)

theorem CompiledRef.Same.refl_of_no_dispatch {c : CompiledRef} (h : c.dispatch? = none) :
    c.Same c := ⟨rfl, rfl, rfl, by rw [h]; exact .none⟩

theorem CompiledRef.Same.require {c c' : CompiledRef} (h : c.Same c') (nonNull nullable : Bool) :
    (Compile.require c nonNull nullable).Same (Compile.require c' nonNull nullable) := by
  unfold Compile.require
  split
  · exact ⟨congrArg TypeRef.nonNull h.typeRef, h.kind, h.hook, h.dispatch⟩
  · exact h

namespace Meaning

/-- What both readings answer is related. -/
def Relates {α β : Type} (R : α → β → Prop) (x : Except SchemaError α)
    (y : Except SchemaError β) : Prop := ∀ a b, x = .ok a → y = .ok b → R a b

namespace Relates

variable {α α' β β' : Type} {R : α → α' → Prop} {S : β → β' → Prop}
  {x : Except SchemaError α} {x' : Except SchemaError α'}

theorem ok {a : α} {a' : α'} (h : R a a') : Relates R (.ok a) (.ok a') := by
  rintro _ _ ⟨⟩ ⟨⟩
  exact h

theorem error (e : SchemaError) : Relates R (.error e) x' := by
  rintro _ _ ⟨⟩

theorem of_map {f : α → α'} (h : x' = x.map f) : Relates (fun a a' => a' = f a) x x' := by
  intro a a' ha ha'
  rw [h, ha] at ha'
  exact (Except.ok.inj ha').symm

theorem bind {f : α → Except SchemaError β} {f' : α' → Except SchemaError β'}
    (hx : Relates R x x') (hf : ∀ a a', R a a' → Relates S (f a) (f' a')) :
    Relates S (x >>= f) (x' >>= f') := by
  intro b b' hb hb'
  obtain ⟨a, ha, hb⟩ := bind_eq_ok.mp hb
  obtain ⟨a', ha', hb'⟩ := bind_eq_ok.mp hb'
  exact hf a a' (hx a a' ha ha') b b' hb hb'

theorem map {f : α → β} {f' : α' → β'} (hx : Relates R x x')
    (hf : ∀ a a', R a a' → S (f a) (f' a')) : Relates S (x.map f) (x'.map f') := by
  intro b b' hb hb'
  obtain ⟨a, ha, rfl⟩ := map_eq_ok.mp hb
  obtain ⟨a', ha', rfl⟩ := map_eq_ok.mp hb'
  exact hf a a' (hx a a' ha ha')

end Relates

variable {σ : Equiv.Perm NodeId} {r r' : Registry}

/-! ## Tables -/

/-- What is read off the same nodes is the same. -/
theorem mem_map_renamed {α : Type} {found found' : List NodeId} {f f' : NodeId → α}
    (hmem : ∀ o, σ o ∈ found' ↔ o ∈ found) (hf : ∀ o, f' (σ o) = f o) (a : α) :
    a ∈ found'.map f' ↔ a ∈ found.map f := by
  rw [List.mem_map, List.mem_map, σ.surjective.exists]
  exact exists_congr fun o => by rw [hmem, hf]

section

variable (h : r.Renames σ r') (hr : r.WellFormed) (hr' : r'.WellFormed)

include h hr hr'

theorem interfaceDispatch_renamed (id : NodeId) :
    Relates Dispatch.Same (interfaceDispatch r id) (interfaceDispatch r' (σ id)) := by
  intro d d' hd hd'
  obtain ⟨found, hfound, rfl⟩ := map_eq_ok.mp hd
  obtain ⟨found', hfound', rfl⟩ := map_eq_ok.mp hd'
  refine ⟨Node.displayName_of_bare (h.bare id), rfl, OrderedMap.lookup_congr_mem ?_ ?_⟩
  · intro t a b ha hb
    obtain ⟨o, ho, heq⟩ := List.mem_map.mp ha
    obtain ⟨o', ho', heq'⟩ := List.mem_map.mp hb
    obtain ⟨htype, rfl⟩ := Prod.mk.inj heq
    obtain ⟨htype', rfl⟩ := Prod.mk.inj heq'
    rw [hr.mem_implementers hfound] at ho ho'
    rw [hr.object_unique (Registry.isObject_of_inherits ho) (Registry.isObject_of_inherits ho')
      (htype.trans htype'.symm)]
  · refine mem_map_renamed (h.mem_implementers hr hr' hfound hfound') fun o => ?_
    rw [Node.type_of_bare (h.bare o), Node.displayName_of_bare (h.bare o)]

theorem node_renamed (id : NodeId) :
    Relates CompiledRef.Same (node r id) (node r' (σ id)) := by
  have hname := Node.displayName_of_bare (h.bare id)
  unfold node
  rw [hname]
  cases hn : r.node id with
  | interface n =>
      obtain ⟨_, hn', -⟩ := h.node_interface hn
      rw [hn']
      exact (interfaceDispatch_renamed h hr hr' id).map fun d d' hd => ⟨rfl, rfl, rfl, .some hd⟩
  | object n =>
      rw [h.node_eq hn rfl]
      exact Relates.ok (CompiledRef.Same.refl_of_no_dispatch rfl)
  | inputObject n =>
      rw [h.node_eq hn rfl]
      exact Relates.ok (CompiledRef.Same.refl_of_no_dispatch rfl)
  | field _ | args _ | arg _ | inputField _ | implement _ => exact Relates.error _

/-- The members of a union are listed as they are given; of each the descendants are found
in any order, all under its name. -/
theorem unionMembers_renamed (members : List HostType) :
    Relates (fun p p' => p'.1 = p.1 ∧ ∀ t, p'.2.lookup t = p.2.lookup t)
      (unionMembers r members) (unionMembers r' members) := by
  induction members with
  | nil => exact .ok ⟨rfl, fun _ => rfl⟩
  | cons t rest ih =>
      refine (Relates.of_map (h.getNode t)).bind ?_
      rintro id _ rfl
      have hname := Node.displayName_of_bare (h.bare id)
      rw [Node.isObject_of_bare (h.bare id), hname]
      dsimp only
      split
      · have hfound : Relates (fun found found' => ∀ o, σ o ∈ found' ↔ o ∈ found)
            (r.descendants id) (r'.descendants (σ id)) := fun _ _ => h.mem_descendants hr hr'
        refine hfound.bind fun found found' hmem => ih.bind ?_
        rintro ⟨ms, ds⟩ ⟨ms', ds'⟩ ⟨rfl, hlookup⟩
        refine .ok ⟨rfl, fun t => ?_⟩
        have hextending : ∀ name : String, (found'.map fun o => ((r'.node o).type, name)).lookup t
            = (found.map fun o => ((r.node o).type, name)).lookup t := fun name => by
          refine OrderedMap.lookup_congr_mem ?_ ?_ t
          · intro t a b ha hb
            obtain ⟨_, -, heq⟩ := List.mem_map.mp ha
            obtain ⟨_, -, heq'⟩ := List.mem_map.mp hb
            exact (Prod.mk.inj heq).2.symm.trans (Prod.mk.inj heq').2
          · exact mem_map_renamed hmem fun o => by rw [Node.type_of_bare (h.bare o)]
        rw [List.lookup_append, List.lookup_append, hextending, hlookup]
      · exact .error _

theorem union_renamed (d : UnionDef) :
    Relates (fun u u' => u.dispatch.Same u'.dispatch) (union r d) (union r' d) := by
  refine (unionMembers_renamed h hr hr' d.members).map ?_
  rintro ⟨ms, ds⟩ ⟨ms', ds'⟩ ⟨rfl, hlookup⟩
  refine ⟨rfl, rfl, fun t => ?_⟩
  simp only [Dispatch.objectFor?, List.lookup_append, hlookup]

/-! ## References -/

theorem expr_renamed (e : TypeExpr) (nonNull : Bool) :
    Relates CompiledRef.Same (expr r nonNull e) (expr r' nonNull e) := by
  induction e generalizing nonNull with
  | ref t =>
      refine (Relates.of_map (h.getNode t)).bind ?_
      rintro id _ rfl
      exact (node_renamed h hr hr' id).bind fun c c' hc => .ok (hc.require _ _)
  | scalar d => exact .ok (CompiledRef.Same.require (.refl_of_no_dispatch rfl) _ _)
  | enum d => exact .ok (CompiledRef.Same.require (.refl_of_no_dispatch rfl) _ _)
  | union d =>
      refine (union_renamed h hr hr' d).bind fun u u' hu => .ok (CompiledRef.Same.require ?_ _ _)
      exact ⟨rfl, rfl, rfl, .some hu⟩
  | list item ih =>
      refine (ih true).bind fun c c' hc => .ok (CompiledRef.Same.require ?_ _ _)
      exact ⟨congrArg TypeRef.list hc.typeRef, hc.kind, rfl, hc.dispatch⟩
  | nullable inner ih =>
      exact (ih false).bind fun c c' hc => .ok ⟨hc.typeRef, hc.kind, rfl, hc.dispatch⟩

theorem link_renamed (l : Link) (nonNull : Bool) :
    Relates CompiledRef.Same (link r l nonNull) (link r' (l.rename σ) nonNull) := by
  cases l with
  | node id => exact (node_renamed h hr hr' id).map fun c c' hc => hc.require _ _
  | given e => exact expr_renamed h hr hr' e nonNull

theorem output_renamed (l : Link) (nonNull : Bool) (owner field : String) :
    Relates CompiledRef.Same (output r l nonNull owner field)
      (output r' (l.rename σ) nonNull owner field) := by
  refine (link_renamed h hr hr' l nonNull).bind fun c c' hc => ?_
  rw [hc.kind]
  split
  · exact .ok hc
  · exact .error _

theorem input_renamed (l : Link) (nonNull : Bool) (owner field : String) :
    Relates CompiledRef.Same (input r l nonNull owner field)
      (input r' (l.rename σ) nonNull owner field) := by
  refine (link_renamed h hr hr' l nonNull).bind fun c c' hc => ?_
  rw [hc.kind]
  split
  · exact .ok hc
  · exact .error _

end

/-! ## Shapes -/

section

variable (h : r.Renames σ r')

include h

theorem nodeShape_renamed (id : NodeId) :
    nodeShape r' (σ id) = (nodeShape r id).rename σ := by
  unfold nodeShape
  rw [Node.isInputObject_of_bare (h.bare id)]
  split <;> rfl

theorem exprShape_renamed (e : TypeExpr) :
    exprShape r' e = (exprShape r e).map (ValueShape.rename σ) := by
  induction e with
  | ref t =>
      rw [exprShape, exprShape, h.getNode]
      cases r.getNode t with
      | error e => rfl
      | ok id => exact congrArg Except.ok (nodeShape_renamed h id)
  | scalar _ | enum _ | union _ => rfl
  | list item ih =>
      rw [exprShape, exprShape, ih]
      cases exprShape r item <;> rfl
  | nullable inner ih => exact ih

theorem linkShape_renamed (l : Link) :
    linkShape r' (l.rename σ) = (linkShape r l).map (ValueShape.rename σ) := by
  cases l with
  | node id => exact congrArg Except.ok (nodeShape_renamed h id)
  | given e => exact exprShape_renamed h e

theorem fieldShapes_renamed (ids : List NodeId) : fieldShapes r' (ids.map σ) =
    (fieldShapes r ids).map (List.map (InputFieldShape.rename σ)) := by
  induction ids with
  | nil => rfl
  | cons id rest ih =>
      exact bind_renamed (h.linkInput id) fun field =>
        bind_renamed (linkShape_renamed h field.type) fun shape =>
          bind_renamed ih fun rest => rfl

/-- Both registries mean the same shape by an input. -/
theorem shape_renamed (id : NodeId) :
    shape r' (σ id) = (shape r id).map (InputObjectShape.rename σ) := by
  have hconstructor := Node.constructor?_of_bare (h.bare id)
  have hname := Node.displayName_of_bare (h.bare id)
  unfold shape
  rw [h.inputFields?, hconstructor, hname]
  cases (r.node id).inputFields? with
  | none => rfl
  | some ids =>
      cases (r.node id).constructor? with
      | none => rfl
      | some constructor =>
          simp only [Option.map_some, fieldShapes_renamed h]
          cases fieldShapes r ids <;> rfl

theorem argMapping_renamed (arg : LinkedArg) :
    argMapping r' (arg.rename σ) = (argMapping r arg).map (ArgumentMapping.rename σ) := by
  obtain ⟨decl, type⟩ := arg
  cases type with
  | node id =>
      simp only [argMapping, LinkedArg.rename, Link.rename,
        Node.isInputObject_of_bare (h.bare id)]
      split <;> rfl
  | given e =>
      simp only [argMapping, LinkedArg.rename, Link.rename, exprShape_renamed h]
      cases exprShape r e <;> rfl

theorem bundleFields_renamed (id : NodeId) :
    bundleFields r' (σ id) = (bundleFields r id).map σ := by
  unfold bundleFields
  rw [h.inputFields?]
  cases (r.node id).inputFields? <;> rfl

end

/-! ## Fields -/

section

variable (h : r.Renames σ r') (hr : r.WellFormed) (hr' : r'.WellFormed)

include h hr hr'

theorem inputs_renamed (owner : String) (ids : List NodeId)
    (compiled : OrderedMap String CompiledInput) :
    Relates (fun m m' => m' = m) (inputs r owner ids compiled)
      (inputs r' owner (ids.map σ) compiled) := by
  induction ids generalizing compiled with
  | nil => exact .ok rfl
  | cons id rest ih =>
      refine (Relates.of_map (h.linkInput id)).bind ?_
      rintro field _ rfl
      refine (input_renamed h hr hr' field.type _ _ _).bind fun c c' hc => ?_
      rw [hc.typeRef]
      exact ih _

theorem arguments_renamed (owner : String) (field : LinkedField) :
    Relates (fun p p' => p'.1 = p.1 ∧ p'.2 = p.2.rename σ) (arguments r owner field)
      (arguments r' owner (field.rename σ)) := by
  obtain ⟨decl, type, args?, arg?⟩ := field
  unfold arguments LinkedField.rename
  dsimp only
  cases arg? with
  | some arg =>
      cases args? with
      | some id => exact Relates.error _
      | none =>
          refine (input_renamed h hr hr' arg.type _ _ _).bind fun c c' hc => ?_
          refine (Relates.of_map (argMapping_renamed h arg)).bind ?_
          rintro mapping _ rfl
          refine .ok ⟨?_, rfl⟩
          rw [hc.typeRef]
          rfl
  | none =>
      cases args? with
      | some id =>
          dsimp only [Option.map_none, Option.map_some]
          rw [Node.type_of_bare (h.bare id), bundleFields_renamed h]
          refine (inputs_renamed h hr hr' _ _ _).bind ?_
          rintro m _ rfl
          exact .ok ⟨rfl, rfl⟩
      | none => exact Relates.ok ⟨rfl, rfl⟩

theorem field_renamed (owner : String) (id : NodeId) :
    Relates (CompiledField.Same σ) (field r owner id) (field r' owner (σ id)) := by
  refine (Relates.of_map (h.linkField id)).bind ?_
  rintro f _ rfl
  refine (output_renamed h hr hr' f.type _ _ _).bind fun c c' hc => ?_
  refine (arguments_renamed h hr hr' owner f).bind ?_
  rintro ⟨args, mapping⟩ ⟨args', mapping'⟩ ⟨hargs, hmapping⟩
  exact .ok ⟨rfl, rfl, rfl, hc.typeRef, hargs,
    ⟨rfl, rfl, hc.hook, hmapping, hc.dispatch, h.lineage hr hr'⟩⟩

theorem fields_renamed (owner : String) (ids : List NodeId)
    {compiled compiled' : OrderedMap String CompiledField}
    (hcompiled : compiled.Rel (CompiledField.Same σ) compiled') :
    Relates (OrderedMap.Rel (CompiledField.Same σ)) (fields r owner ids compiled)
      (fields r' owner (ids.map σ) compiled') := by
  induction ids generalizing compiled compiled' with
  | nil => exact .ok hcompiled
  | cons id rest ih =>
      refine (field_renamed h hr hr' owner id).bind fun f f' hf => ?_
      rw [hf.name]
      exact ih (hcompiled.insert f.name hf)

end

end Meaning

/-! ## Objects -/

namespace Compile

variable {σ : Equiv.Perm NodeId} {r r' : Registry}

section

variable (h : r.Renames σ r')

include h

theorem object?_renamed (id : NodeId) : (r'.node (σ id)).object? =
    (r.node id).object?.map fun n =>
      { n with fields := n.fields.map σ, implementEdges := n.implementEdges.map σ } := by
  rw [(h.node id).congr (f := Node.object?) fun _ _ => rfl]
  cases r.node id <;> rfl

theorem implement?_renamed (id : NodeId) : (r'.node (σ id)).implement? =
    (r.node id).implement?.map fun n => { n with interface := σ n.interface } := by
  rw [(h.node id).congr (f := Node.implement?) fun _ _ => rfl]
  cases r.node id <;> rfl

theorem objectFields_renamed (id : NodeId) :
    objectFields r' (σ id) = (objectFields r id).map σ := by
  unfold objectFields
  rw [object?_renamed h]
  cases (r.node id).object? <;> rfl

theorem interfaceFields_renamed (id : NodeId) :
    interfaceFields r' (σ id) = (interfaceFields r id).map σ := by
  unfold interfaceFields
  cases hn : r.node id with
  | interface n =>
      obtain ⟨_, hn', -⟩ := h.node_interface hn
      rw [hn']
      rfl
  | object _ | inputObject _ | field _ | args _ | arg _ | inputField _ | implement _ =>
      rw [h.node_eq hn rfl]
      rfl

theorem edgesOf_renamed (id : NodeId) : r'.edgesOf (σ id) = (r.edgesOf id).map σ := by
  unfold Registry.edgesOf Node.edges
  rw [object?_renamed h]
  cases (r.node id).object? <;> rfl

theorem chainInterfaces_renamed (chain : List NodeId) :
    chainInterfaces r' (chain.map σ) = (chainInterfaces r chain).map σ := by
  have hedges : (chain.map σ).flatMap r'.edgesOf = (chain.flatMap r.edgesOf).map σ := by
    rw [List.flatMap_map, List.map_flatMap]
    exact congrArg (chain.flatMap ·) (funext (edgesOf_renamed h))
  refine (congrArg (fun edges : List NodeId => edges.foldl _ []) hedges).trans ?_
  rw [List.foldl_map]
  refine List.foldl_rel (r := fun found' found => found' = List.map σ found) rfl ?_
  rintro edge - _ found rfl
  rw [implement?_renamed h]
  cases (r.node edge).implement? with
  | none => rfl
  | some e =>
      dsimp only [Option.map_some]
      rw [Registry.Renames.contains_map]
      split
      · rfl
      · rw [List.map_append]
        rfl

end

/-- Declarations chosen for the same names, under their other numbers. -/
abbrev Chosen (σ : Equiv.Perm NodeId) (m m' : OrderedMap String NodeId) : Prop :=
  m.Rel (fun i i' => i' = σ i) m'

section

variable (h : r.Renames σ r')

include h

theorem offerFields_renamed (ids : List NodeId) {m m' : OrderedMap String NodeId}
    (hm : Chosen σ m m') : Chosen σ (offerFields r m ids) (offerFields r' m' (ids.map σ)) := by
  unfold offerFields
  rw [List.foldl_map]
  refine List.foldl_rel hm fun id _ m m' hm => ?_
  rw [Node.memberName?_of_bare (h.bare id)]
  cases (r.node id).memberName? with
  | none => exact hm
  | some name => exact hm.insertNew name rfl

theorem overrideFields_renamed (ids : List NodeId) {m m' : OrderedMap String NodeId}
    (hm : Chosen σ m m') :
    Chosen σ (overrideFields r m ids) (overrideFields r' m' (ids.map σ)) := by
  unfold overrideFields
  rw [List.foldl_map]
  refine List.foldl_rel hm fun id _ m m' hm => ?_
  rw [Node.memberName?_of_bare (h.bare id)]
  cases (r.node id).memberName? with
  | none => exact hm
  | some name => exact hm.insert name rfl

theorem chosenFields_renamed (chain interfaces : List NodeId) :
    Chosen σ (chosenFields r chain interfaces)
      (chosenFields r' (chain.map σ) (interfaces.map σ)) := by
  unfold chosenFields
  rw [← List.map_reverse, List.foldl_map, List.foldl_map]
  refine List.foldl_rel (List.foldl_rel .empty fun id _ m m' hm => ?_) fun id _ m m' hm => ?_
  · rw [interfaceFields_renamed h]
    exact offerFields_renamed h _ hm
  · rw [objectFields_renamed h]
    exact overrideFields_renamed h _ hm

end

end Compile

namespace Meaning

section

variable {σ : Equiv.Perm NodeId} {r r' : Registry} (h : r.Renames σ r') (hr : r.WellFormed)
  (hr' : r'.WellFormed)

include h

theorem objectFieldIds_renamed (chain : List NodeId) :
    objectFieldIds r' (chain.map σ) = (objectFieldIds r chain).map σ := by
  unfold objectFieldIds
  rw [Compile.chainInterfaces_renamed h]
  have hvalues := (Compile.chosenFields_renamed h chain (Compile.chainInterfaces r chain)).values
  refine List.forall₂_eq_eq_eq ▸ ?_
  exact List.forall₂_map_right_iff.mpr (hvalues.flip)

include hr hr'

theorem objectBody_renamed (id : NodeId) :
    Relates (fun p p' => p'.1 = p.1 ∧ p.2.Rel (CompiledField.Same σ) p'.2)
      (objectBody r id) (objectBody r' (σ id)) := by
  refine (Relates.of_map (h.chain id)).bind ?_
  rintro chain _ rfl
  rw [objectFieldIds_renamed h, Node.displayName_of_bare (h.bare id)]
  refine (fields_renamed h hr hr' _ _ .empty).bind fun m m' hm => ?_
  refine .ok ⟨?_, hm⟩
  rw [Compile.chainInterfaces_renamed h, List.map_map]
  exact List.map_congr_left fun i _ => Node.displayName_of_bare (h.bare i)

theorem object_renamed (id : NodeId) :
    Relates (CompiledObject.Same σ) (object r id) (object r' (σ id)) := by
  unfold object
  cases hn : r.node id with
  | object n =>
      rw [h.node_eq hn rfl]
      exact (objectBody_renamed h hr hr' id).map fun p p' hp => ⟨rfl, rfl, hp.1, hp.2⟩
  | interface _ | inputObject _ | field _ | args _ | arg _ | inputField _ | implement _ =>
      exact Relates.error _

theorem interface_renamed (id : NodeId) :
    Relates (CompiledInterface.Same σ) (interface r id) (interface r' (σ id)) := by
  unfold interface
  cases hn : r.node id with
  | interface n =>
      obtain ⟨_, hn', -⟩ := h.node_interface hn
      rw [hn']
      refine (fields_renamed h hr hr' _ n.fields .empty).bind fun m m' hm => ?_
      exact (interfaceDispatch_renamed h hr hr' id).bind fun d d' hd => .ok ⟨rfl, rfl, hm, hd⟩
  | object _ | inputObject _ | field _ | args _ | arg _ | inputField _ | implement _ =>
      exact Relates.error _

theorem inputObject_renamed (id : NodeId) :
    Relates (fun c c' => c' = c) (inputObject r id) (inputObject r' (σ id)) := by
  unfold inputObject
  cases hn : r.node id with
  | inputObject n =>
      rw [h.node_eq hn rfl]
      refine (inputs_renamed h hr hr' _ n.inputFields ∅).map ?_
      rintro m _ rfl
      rfl
  | object _ | interface _ | field _ | args _ | arg _ | inputField _ | implement _ =>
      exact Relates.error _

/-- Both registries mean the same by a declared type. -/
theorem type_renamed (id : NodeId) :
    Relates (CompiledType.Same σ) (type r id) (type r' (σ id)) := by
  unfold type
  cases hn : r.node id with
  | object n =>
      rw [h.node_eq hn rfl]
      exact (object_renamed h hr hr' id).map fun c c' hc => .object hc
  | interface n =>
      obtain ⟨_, hn', -⟩ := h.node_interface hn
      rw [hn']
      exact (interface_renamed h hr hr' id).map fun c c' hc => .interface hc
  | inputObject n =>
      rw [h.node_eq hn rfl]
      refine (inputObject_renamed h hr hr' id).map fun c c' hc => ?_
      rw [hc]
      exact .inputObject c
  | field _ | args _ | arg _ | inputField _ | implement _ => exact Relates.error _

end

end Meaning

end SchemaGraph
