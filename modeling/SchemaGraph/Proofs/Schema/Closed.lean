import SchemaGraph.Proofs.Schema.Definitions

/-!
# Bundles are closed under reference

Compiled types refer to each other by name. A type that is in progress is
referred to before it is compiled, and one that fails takes the whole request
with it, so when a bundle is assembled every name in it stands for something:
for a type the bundle defines or for a scalar that every schema knows. What is
referred to is of a kind that may stand in the place of the reference, however
many lists and nullables there are around it.
-/

set_option autoImplicit false

namespace SchemaGraph

open CompileState

variable {r : Registry} {A : NodeId → Prop} {s : CompileState}

/-- What a name can stand for in a bundle. -/
def SchemaBundle.Defines (b : SchemaBundle) (name : String) : Prop :=
  name ∈ builtinScalars ∨ ∃ t ∈ b.definitions, t.name = name

/-- The reference that a declared type expression compiles to. -/
def TypeExpr.CompilesTo (r : Registry) (e : TypeExpr) (t : TypeRef) : Prop :=
  ∃ l c, r.link e = .ok l ∧ Meaning.link r l true = .ok c ∧ c.typeRef = t

/-- Every name that a bundle refers to stands for something, and every reference
was compiled from a type expression whose core may stand in its place. -/
structure SchemaBundle.Closed (r : Registry) (b : SchemaBundle) : Prop where
  query : .object b.query ∈ b.definitions
  mutation : ∀ t ∈ b.mutation?, .object t ∈ b.definitions
  interfaces : ∀ t, .object t ∈ b.definitions → ∀ name ∈ t.interfaces, b.Defines name
  possibleTypes : ∀ t, .union t ∈ b.definitions → ∀ name ∈ t.possibleTypes, b.Defines name
  outputs : ∀ t ∈ b.definitions, ∀ f ∈ t.outputFields, b.Defines f.typeRef.coreName ∧
    ∃ e k, r.DeclaresOutput f e ∧ e.CompilesTo r f.typeRef ∧
      e.coreKind? r = some k ∧ k ≠ .inputObject
  inputs : ∀ t ∈ b.definitions, ∀ a ∈ t.inputFields, b.Defines a.typeRef.coreName ∧
    ∃ e k, r.DeclaresInput a e ∧ e.CompilesTo r a.typeRef ∧
      e.coreKind? r = some k ∧ k ≠ .object ∧ k ≠ .interface ∧ k ≠ .union

/-! ## What is kept is defined -/

namespace CompileState.Settled

/-- A definition is the meaning of a kept node, or given on the spot. -/
theorem of_mem_definitions (hs : s.Settled r A) {t : CompiledType}
    (ht : t ∈ s.definitions) :
    (∃ id, s.Keeps id ∧ Meaning.type r id = .ok t) ∨
      t.isDeclared = false ∧ ∃ name, s.given.find? name = some t := by
  cases hdecl : t.isDeclared with
  | true =>
      have hmem : t ∈ s.definitions.filter (·.isDeclared) := List.mem_filter.mpr ⟨ht, hdecl⟩
      obtain ⟨id, hid, hmeaning⟩ := forall₂_exists_right hs.sound.forall₂_keptIds.flip hmem
      exact Or.inl ⟨id, mem_keptIds.mp hid, hmeaning⟩
  | false =>
      refine Or.inr ⟨rfl, ?_⟩
      have hmem : t ∈ s.given.values := by
        rcases List.mem_append.mp ht with hnode | hgiven
        · have hfiltered : t ∈ s.definitions.filter (·.isDeclared) := by
            rw [hs.sound.filter_definitions]
            exact hnode
          rw [(List.mem_filter.mp hfiltered).2] at hdecl
          cases hdecl
        · exact hgiven
      obtain ⟨name, hname⟩ := OrderedMap.mem_values.mp hmem
      exact ⟨name, OrderedMap.find?_eq_some_iff.mpr hname⟩

/-- What is given on the spot is among the definitions under its name. -/
theorem mem_definitions_of_given (hs : s.Settled r A) {name : String}
    (hname : s.given.contains name = true) : ∃ t ∈ s.definitions, t.name = name := by
  obtain ⟨t, ht⟩ := OrderedMap.contains_iff.mp hname
  refine ⟨t, ?_, (hs.sound.given ht).1⟩
  exact List.mem_append_right _ (OrderedMap.mem_values.mpr ⟨name, OrderedMap.mem_of_find? ht⟩)

/-- A union that is defined was compiled from some definition, and what that
mentions is known. -/
theorem of_union_mem (hs : s.Settled r A) {u : CompiledUnion}
    (hu : .union u ∈ s.definitions) :
    ∃ d : UnionDef, Meaning.union r d = .ok u ∧
      ∀ m, (TypeExpr.union d).Mentions r m → s.Knows m := by
  rcases hs.of_mem_definitions hu with ⟨id, -, hmeaning⟩ | ⟨-, name, hname⟩
  · cases Meaning.type_isDeclared hmeaning
  · obtain ⟨d, -, -, hmeaning, hexp⟩ := hs.sound.unions hname
    exact ⟨d, hmeaning, fun m hm => hs.knows (hexp m hm)⟩

/-- Names that stand for something known are defined. -/
theorem defines_of_names (hs : s.Settled r A) {b : SchemaBundle}
    (hb : b.definitions = s.definitions) {M : Mention → Prop}
    (hM : ∀ m, M m → s.Knows m) {name : String} (h : Meaning.Names r M name) :
    b.Defines name := by
  unfold SchemaBundle.Defines
  rw [hb]
  rcases h with ⟨id, hid, rfl⟩ | hbuiltin | hgiven
  · obtain ⟨t, ht, hmeaning⟩ := hs.mem_definitions (hs.keeps (hM _ hid))
    exact Or.inr ⟨t, ht, Meaning.type_name hmeaning⟩
  · exact Or.inl hbuiltin
  · exact Or.inr (hs.mem_definitions_of_given (hM _ hgiven))

end CompileState.Settled

/-! ## Closedness -/

theorem Meaning.ComesFrom.compilesTo {declared : TypeExpr → Prop} {fits : NamedKind → Bool}
    {M : Mention → Prop} {t : TypeRef} (h : ComesFrom r declared fits M t) :
    ∃ e k, declared e ∧ e.CompilesTo r t ∧ e.coreKind? r = some k ∧ fits k = true := by
  obtain ⟨e, l, c, hdecl, hl, hc, ht, hfits, -⟩ := h
  exact ⟨e, c.kind, hdecl, ⟨l, c, hl, hc, ht⟩, (link_core hl hc).1, hfits⟩

/-- The names of the interfaces of an object are those of interfaces it leads
to. -/
theorem Meaning.leads_of_mem_interfaces {id : NodeId} {c : CompiledObject}
    (h : Meaning.object r id = .ok c) {name : String} (hname : name ∈ c.interfaces) :
    ∃ i, r.Leads id (.node i) ∧ name = (r.node i).displayName := by
  obtain ⟨n, chain, _, hn, hchain, -, rfl⟩ := object_eq_ok h
  obtain ⟨i, hi, rfl⟩ := List.mem_map.mp hname
  refine ⟨i, ?_, rfl⟩
  simp only [Registry.Leads, hn]
  exact ⟨chain, hchain, Or.inl ⟨i, hi, rfl⟩⟩

/-- The names of the types of a union are those of the objects that are its
members. -/
theorem Meaning.mentions_of_mem_possibleTypes {d : UnionDef} {u : CompiledUnion}
    (h : Meaning.union r d = .ok u) {name : String} (hname : name ∈ u.possibleTypes) :
    ∃ id, (TypeExpr.union d).Mentions r (.node id) ∧ (r.node id).isObject = true ∧
      name = (r.node id).displayName := by
  obtain ⟨⟨ms, ds⟩, hmembers, rfl⟩ := map_eq_ok.mp h
  obtain ⟨hall, hms, -⟩ := unionMembers_eq_ok hmembers
  obtain ⟨e, he, rfl⟩ := List.mem_map.mp hname
  obtain ⟨t, ht, id, hid, rfl⟩ := (hms e).mp he
  obtain ⟨id', _, hid', hobject, -⟩ := hall t ht
  obtain rfl : id = id' := Except.ok.inj (hid.symm.trans hid')
  exact ⟨id, Or.inr ⟨t, ht, id, hid, rfl⟩, hobject, rfl⟩

theorem SchemaBundle.Assembled.closed {roots : SchemaRoots} {starts : List NodeId}
    {b : SchemaBundle} (h : b.Assembled r roots starts s) : b.Closed r := by
  have hs := h.settled
  -- A type that is made of a node leads to nothing the compiler does not know.
  have hdefines : ∀ {id : NodeId}, s.Keeps id → ∀ {name : String},
      Meaning.Names r (r.Leads id) name → b.Defines name := fun hid _ hname =>
    hs.defines_of_names h.definitions (fun m hm => hs.leads hid hm) hname
  have hroot : ∀ {t : CompiledObject}, (∃ id ∈ starts, Meaning.object r id = .ok t) →
      .object t ∈ b.definitions := by
    rintro t ⟨id, hid, hmeaning⟩
    obtain ⟨t', ht', hmeaning'⟩ := hs.mem_definitions (h.keeps id hid)
    have heq := (Meaning.type_of_object hmeaning).symm.trans hmeaning'
    rw [h.definitions, Except.ok.inj heq]
    exact ht'
  constructor
  case query => exact hroot h.query
  case mutation => exact fun t ht => hroot (h.mutation t ht)
  case interfaces =>
    intro t ht name hname
    rw [h.definitions] at ht
    rcases hs.of_mem_definitions ht with ⟨id, hid, hmeaning⟩ | ⟨hdecl, -⟩
    · obtain ⟨i, hi, rfl⟩ :=
        Meaning.leads_of_mem_interfaces (Meaning.object_of_type hmeaning) hname
      exact hdefines hid (Or.inl ⟨i, hi, rfl⟩)
    · cases hdecl
  case possibleTypes =>
    intro u hu name hname
    rw [h.definitions] at hu
    obtain ⟨d, hmeaning, hknown⟩ := hs.of_union_mem hu
    obtain ⟨id, hid, -, rfl⟩ := Meaning.mentions_of_mem_possibleTypes hmeaning hname
    exact hs.defines_of_names h.definitions hknown (Or.inl ⟨id, hid, rfl⟩)
  case outputs =>
    intro t ht f hf
    rw [h.definitions] at ht
    rcases hs.of_mem_definitions ht with ⟨id, hid, hmeaning⟩ | ⟨hdecl, -⟩
    · obtain ⟨i, hof, hleads⟩ := Meaning.mem_outputFields hmeaning hf
      have hcomes := hof.output.mono hleads
      obtain ⟨e, k, hdeclared, hcompiles, hkind, hfits⟩ := hcomes.compilesTo
      refine ⟨hdefines hid hcomes.names, e, k, hdeclared, hcompiles, hkind, ?_⟩
      rintro rfl
      cases hfits
    · rw [(CompiledType.members_of_not_declared hdecl).1] at hf
      cases hf
  case inputs =>
    intro t ht a ha
    rw [h.definitions] at ht
    rcases hs.of_mem_definitions ht with ⟨id, hid, hmeaning⟩ | ⟨hdecl, -⟩
    · have hcomes := Meaning.mem_inputFields hmeaning ha
      obtain ⟨e, k, hdeclared, hcompiles, hkind, hfits⟩ := hcomes.compilesTo
      refine ⟨hdefines hid hcomes.names, e, k, hdeclared, hcompiles, hkind, ?_⟩
      refine ⟨?_, ?_, ?_⟩ <;> rintro rfl <;> cases hfits
    · rw [(CompiledType.members_of_not_declared hdecl).2] at ha
      cases ha

/-- Whatever is assembled is closed under reference. -/
theorem SchemaBundle.closed_of_ofRegistry {roots : SchemaRoots} {config : SchemaConfig}
    {b : SchemaBundle} (h : ofRegistry r roots config = .ok b) : b.Closed r := by
  obtain ⟨starts, s, hassembled⟩ := ofRegistry_ok h
  exact hassembled.closed

theorem People.closed_query : ∃ b,
    SchemaBundle.ofRegistry registry ⟨query, none⟩ {} = .ok b ∧ b.Closed registry := by
  obtain ⟨b, hb⟩ := accepted
  exact ⟨b, hb, SchemaBundle.closed_of_ofRegistry hb⟩

end SchemaGraph
