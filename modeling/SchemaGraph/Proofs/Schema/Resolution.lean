import SchemaGraph.Proofs.Declared.Ancestry
import SchemaGraph.Proofs.Schema.Closed

/-!
# Abstract types are resolved as they are declared

Which interfaces an object implements is worked out twice. Compiling the object
follows the implements edges on its chain; the table by which the interface
tells instances apart lists the objects that noted themselves on it, and their
descendants. In a registry that declarations lead to the two agree, and since a
host type stands for one object at most, the table answers the object itself.

The table of a union lists its members and what extends them, under the name of
the member. Either way the name that is answered is that of an object the bundle
defines.
-/

set_option autoImplicit false

namespace SchemaGraph

variable {r : Registry}

/-! ## Tables -/

theorem Dispatch.resolveType_of_mem {d : Dispatch} {v : Instance} {name : String}
    (h : (v.type, name) ∈ d.table) :
    ∃ name', (v.type, name') ∈ d.table ∧ d.resolveType (.instance v) = .ok name' := by
  obtain ⟨name', hfind, hmem⟩ := OrderedMap.exists_lookup_of_mem h
  refine ⟨name', hmem, ?_⟩
  simp only [resolveType, objectFor?, hfind]

theorem Dispatch.resolveType_of_not_mem {d : Dispatch} {v : Instance}
    (h : ∀ name, (v.type, name) ∉ d.table) :
    d.resolveType (.instance v) = .error (d.unresolved v.type.shortName) := by
  simp only [resolveType, objectFor?, OrderedMap.lookup_eq_none h]
  rfl

/-! ## Interfaces -/

/-- A compiled interface answers an instance of an object that inherits the
interface with the name of that object, and nothing else. -/
structure CompiledInterface.Resolves (r : Registry) (i : NodeId) (t : CompiledInterface) :
    Prop where
  implementer : ∀ {o n} {v : Instance}, r.node o = .object n → v.type = n.type →
    r.Inherits o i → t.dispatch.resolveType (.instance v) = .ok n.metadata.name
  stranger : ∀ {o n} {v : Instance}, r.node o = .object n → v.type = n.type →
    ¬ r.Inherits o i → t.dispatch.resolveType (.instance v) =
      .error (.unresolvedImplementation t.name v.type.shortName)
  foreign : ∀ {v : Instance}, (∀ o n, r.node o = .object n → v.type ≠ n.type) →
    t.dispatch.resolveType (.instance v) =
      .error (.unresolvedImplementation t.name v.type.shortName)

/-- The table of a compiled interface lists its implementers. -/
theorem Meaning.dispatch_of_interface {i : NodeId} {t : CompiledInterface}
    (h : interface r i = .ok t) :
    ∃ implementers, r.implementers i = .ok implementers ∧ t.dispatch = ⟨t.name, .interface,
      implementers.map fun o => ((r.node o).type, (r.node o).displayName)⟩ := by
  obtain ⟨n, _, implementers, -, -, himpl, rfl⟩ := interface_eq_ok h
  exact ⟨implementers, himpl, rfl⟩

theorem Registry.WellFormed.mem_table_of_interface (hr : r.WellFormed) {i : NodeId}
    {t : CompiledInterface} (h : Meaning.interface r i = .ok t) {ty : HostType}
    {name : String} : (ty, name) ∈ t.dispatch.table ↔
      ∃ o, r.Inherits o i ∧ (r.node o).type = ty ∧ (r.node o).displayName = name := by
  obtain ⟨implementers, himpl, hdispatch⟩ := Meaning.dispatch_of_interface h
  rw [hdispatch, List.mem_map]
  simp only [hr.mem_implementers himpl, Prod.mk.injEq]

theorem Registry.WellFormed.resolves_interface (hr : r.WellFormed) {i : NodeId}
    {t : CompiledInterface} (h : Meaning.interface r i = .ok t) : t.Resolves r i := by
  have hmiss : ∀ {v : Instance}, (∀ o n, r.node o = .object n → v.type = n.type →
      ¬ r.Inherits o i) → t.dispatch.resolveType (.instance v) =
        .error (.unresolvedImplementation t.name v.type.shortName) := by
    intro v hv
    obtain ⟨implementers, -, hdispatch⟩ := Meaning.dispatch_of_interface h
    rw [Dispatch.resolveType_of_not_mem, hdispatch]
    · rfl
    · intro name hmem
      obtain ⟨o, hinherits, htype, -⟩ := (hr.mem_table_of_interface h).mp hmem
      obtain ⟨n, hn⟩ := Node.exists_of_isObject (isObject_of_inherits hinherits)
      exact hv o n hn (by rw [← htype, hn]; rfl) hinherits
  -- Objects of one host type are one object.
  have hunique : ∀ {o o' n}, r.node o = .object n → r.Inherits o' i →
      (r.node o').type = n.type → o' = o := by
    intro o o' n hn hinherits htype
    refine hr.object_unique (isObject_of_inherits hinherits) (by rw [hn]; rfl) ?_
    rw [htype, hn]
    rfl
  constructor
  case implementer =>
    intro o n v hn htype hinherits
    have hmem : (v.type, n.metadata.name) ∈ t.dispatch.table :=
      (hr.mem_table_of_interface h).mpr
        ⟨o, hinherits, by rw [hn, htype]; rfl, by rw [hn]; rfl⟩
    obtain ⟨name, hmem', hresolve⟩ := Dispatch.resolveType_of_mem hmem
    obtain ⟨o', hinherits', htype', rfl⟩ := (hr.mem_table_of_interface h).mp hmem'
    rw [hresolve, hunique hn hinherits' (htype'.trans htype), hn]
    rfl
  case stranger =>
    intro o n v hn htype hnot
    refine hmiss fun o' n' hn' htype' hinherits => hnot ?_
    rw [← hunique hn hinherits]
    · exact hinherits
    · rw [hn', ← htype, htype']
      rfl
  case foreign =>
    exact fun hv => hmiss fun o n hn htype => absurd htype (hv o n hn)

/-! ## Unions -/

/-- A union answers instances of its members and of the objects that extend
them. -/
def Registry.Answers (r : Registry) (d : UnionDef) (t : HostType) : Prop :=
  t ∈ d.members ∨ ∃ o n, r.node o = .object n ∧ n.type = t ∧
    ∃ m ∈ d.members, ∃ id, r.getNode m = .ok id ∧ r.Descends o id

/-- A compiled union answers such an instance with the name of one of its types,
and nothing else. -/
structure CompiledUnion.Resolves (r : Registry) (d : UnionDef) (u : CompiledUnion) :
    Prop where
  member : ∀ {v : Instance}, r.Answers d v.type →
    ∃ name ∈ u.possibleTypes, u.dispatch.resolveType (.instance v) = .ok name
  stranger : ∀ {v : Instance}, ¬ r.Answers d v.type → u.dispatch.resolveType (.instance v) =
    .error (.unresolvedUnionMember u.name v.type.shortName)

/-- Every entry in the table of a union has the name of a member. -/
theorem Meaning.mem_possibleTypes {d : UnionDef} {u : CompiledUnion}
    (h : union r d = .ok u) {t : HostType} {name : String}
    (hmem : (t, name) ∈ u.dispatch.table) : name ∈ u.possibleTypes := by
  obtain ⟨⟨ms, ds⟩, hmembers, rfl⟩ := map_eq_ok.mp h
  obtain ⟨-, hms, hds⟩ := unionMembers_eq_ok hmembers
  rcases List.mem_append.mp hmem with hmem | hmem
  · exact List.mem_map.mpr ⟨_, hmem, rfl⟩
  · obtain ⟨m, hm, id, _, hid, -, o, -, heq⟩ := (hds _).mp hmem
    obtain ⟨-, rfl⟩ := Prod.mk.inj heq
    exact List.mem_map.mpr ⟨_, (hms _).mpr ⟨m, hm, id, hid, rfl⟩, rfl⟩

/-- The table of a union has entries for what the union answers, and for nothing
else. -/
theorem Registry.WellFormed.answers_iff (hr : r.WellFormed) {d : UnionDef}
    {u : CompiledUnion} (h : Meaning.union r d = .ok u) {t : HostType} :
    r.Answers d t ↔ ∃ name, (t, name) ∈ u.dispatch.table := by
  obtain ⟨⟨ms, ds⟩, hmembers, rfl⟩ := Meaning.map_eq_ok.mp h
  obtain ⟨hall, hms, hds⟩ := Meaning.unionMembers_eq_ok hmembers
  have hmember : ∀ {t}, t ∈ d.members → ∃ name, (t, name) ∈ ms ++ ds := by
    intro t ht
    obtain ⟨id, _, hid, -⟩ := hall t ht
    exact ⟨_, List.mem_append_left _ ((hms _).mpr ⟨t, ht, id, hid, rfl⟩)⟩
  constructor
  · rintro (ht | ⟨o, n, hn, htype, m, hm, id, hid, hdescends⟩)
    · exact hmember ht
    · obtain ⟨id', extending, hid', hobject, hextending⟩ := hall m hm
      obtain rfl : id = id' := Except.ok.inj (hid.symm.trans hid')
      have hotype : (r.node o).type = t := by rw [hn, ← htype]; rfl
      -- A member descends from itself, but is not among those that extend it.
      by_cases heq : o = id
      · refine hmember ?_
        rw [← hotype, heq, hr.type_of_getNode hid hobject]
        exact hm
      · have hmem : o ∈ extending := by
          refine (mem_descendants hextending).mpr ⟨?_, heq, hdescends⟩
          exact hr.mem_objects.mpr (by rw [hn]; rfl)
        refine ⟨(r.node id).displayName, List.mem_append_right _ ((hds _).mpr
          ⟨m, hm, id, extending, hid, hextending, o, hmem, ?_⟩)⟩
        rw [hotype]
  · rintro ⟨name, hmem⟩
    rcases List.mem_append.mp hmem with hmem | hmem
    · obtain ⟨m, hm, id, hid, heq⟩ := (hms _).mp hmem
      obtain ⟨rfl, -⟩ := Prod.mk.inj heq
      exact Or.inl hm
    · obtain ⟨m, hm, id, extending, hid, hextending, o, ho, heq⟩ := (hds _).mp hmem
      obtain ⟨hobject, -, hdescends⟩ := (mem_descendants hextending).mp ho
      obtain ⟨htype, -⟩ := Prod.mk.inj heq
      obtain ⟨n, hn⟩ := Node.exists_of_isObject (hr.mem_objects.mp hobject)
      rw [hn] at htype
      exact Or.inr ⟨o, n, hn, htype.symm, m, hm, id, hid, hdescends⟩

theorem Registry.WellFormed.resolves_union (hr : r.WellFormed) {d : UnionDef}
    {u : CompiledUnion} (h : Meaning.union r d = .ok u) : u.Resolves r d := by
  constructor
  case member =>
    intro v hv
    obtain ⟨name, hmem⟩ := (hr.answers_iff h).mp hv
    obtain ⟨name', hmem', hresolve⟩ := Dispatch.resolveType_of_mem hmem
    exact ⟨name', Meaning.mem_possibleTypes h hmem', hresolve⟩
  case stranger =>
    intro v hv
    rw [Dispatch.resolveType_of_not_mem]
    · obtain ⟨_, -, rfl⟩ := Meaning.map_eq_ok.mp h
      rfl
    · exact fun name hmem => hv ((hr.answers_iff h).mpr ⟨name, hmem⟩)

/-! ## Bundles -/

/-- How the abstract types of a bundle are resolved. `ids` are the nodes that the
bundle was built from. -/
structure SchemaBundle.ResolvesTypes (r : Registry) (ids : List NodeId) (b : SchemaBundle) :
    Prop where
  interfaces : ∀ {i}, i ∈ ids → (r.node i).isInterface = true →
    ∃ t, .interface t ∈ b.definitions ∧ Meaning.interface r i = .ok t ∧ t.Resolves r i
  /-- An object lists the interfaces it inherits. -/
  lists : ∀ {i o}, i ∈ ids → (r.node i).isInterface = true → (r.node o).isObject = true →
    ∃ chain, r.chain o = .ok chain ∧
      (i ∈ Compile.chainInterfaces r chain ↔ r.Inherits o i) ∧
      ∀ c, Meaning.object r o = .ok c → c.interfaces =
        (Compile.chainInterfaces r chain).map fun i => (r.node i).displayName
  implementers : ∀ {i o}, i ∈ ids → (r.node i).isInterface = true → r.Inherits o i →
    o ∈ ids ∧ ∃ c, .object c ∈ b.definitions ∧ Meaning.object r o = .ok c
  unions : ∀ {u}, .union u ∈ b.definitions →
    ∃ d, Meaning.union r d = .ok u ∧ u.Resolves r d ∧
      ∀ name ∈ u.possibleTypes, ∃ c, .object c ∈ b.definitions ∧ c.name = name

namespace CompileState.Settled

variable {A : NodeId → Prop} {s : CompileState}

theorem mem_definitions_of_object (hs : s.Settled r A) {o : NodeId} (ho : s.Keeps o)
    (hobject : (r.node o).isObject = true) :
    ∃ c, .object c ∈ s.definitions ∧ Meaning.object r o = .ok c := by
  obtain ⟨t, ht, hmeaning⟩ := hs.mem_definitions ho
  obtain ⟨n, hn⟩ := Node.exists_of_isObject hobject
  simp only [Meaning.type, hn] at hmeaning
  obtain ⟨c, hc, rfl⟩ := Meaning.map_eq_ok.mp hmeaning
  exact ⟨c, ht, hc⟩

theorem mem_definitions_of_interface (hs : s.Settled r A) {i : NodeId} (hi : s.Keeps i)
    (hinterface : (r.node i).isInterface = true) :
    ∃ t, .interface t ∈ s.definitions ∧ Meaning.interface r i = .ok t := by
  obtain ⟨t, ht, hmeaning⟩ := hs.mem_definitions hi
  obtain ⟨n, hn⟩ := Node.exists_of_isInterface hinterface
  simp only [Meaning.type, hn] at hmeaning
  obtain ⟨c, hc, rfl⟩ := Meaning.map_eq_ok.mp hmeaning
  exact ⟨c, ht, hc⟩

/-- Whoever inherits a kept interface is kept. -/
theorem keeps_of_inherits (hs : s.Settled r A) (hr : r.WellFormed) {i o : NodeId}
    (hi : s.Keeps i) (hinterface : (r.node i).isInterface = true) (ho : r.Inherits o i) :
    s.Keeps o := by
  obtain ⟨t, -, hmeaning⟩ := hs.mem_definitions_of_interface hi hinterface
  obtain ⟨n, _, implementers, hn, -, himpl, -⟩ := Meaning.interface_eq_ok hmeaning
  refine hs.keeps (hs.leads hi ?_)
  simp only [Registry.Leads, hn]
  exact Or.inr ⟨implementers, himpl, o, (hr.mem_implementers himpl).mpr ho, rfl⟩

end CompileState.Settled

theorem SchemaBundle.Assembled.resolvesTypes (hr : r.WellFormed) {roots : SchemaRoots}
    {starts : List NodeId} {s : CompileState} {b : SchemaBundle}
    (h : b.Assembled r roots starts s) : b.ResolvesTypes r s.keptIds := by
  have hs := h.settled
  constructor
  case interfaces =>
    intro i hi hinterface
    obtain ⟨t, ht, hmeaning⟩ :=
      hs.mem_definitions_of_interface (CompileState.mem_keptIds.mp hi) hinterface
    rw [h.definitions]
    exact ⟨t, ht, hmeaning, hr.resolves_interface hmeaning⟩
  case lists =>
    intro i o hi hinterface hobject
    have hkept := CompileState.mem_keptIds.mp hi
    obtain ⟨t, -, hmeaning⟩ := hs.mem_definitions_of_interface hkept hinterface
    obtain ⟨implementers, himpl, -⟩ := Meaning.dispatch_of_interface hmeaning
    obtain ⟨chain, hchain⟩ : ∃ chain, r.chain o = .ok chain := by
      by_cases ho : r.Inherits o i
      · obtain ⟨c, -, hc⟩ := hs.mem_definitions_of_object
          (hs.keeps_of_inherits hr hkept hinterface ho) hobject
        obtain ⟨_, chain, _, -, hchain, -⟩ := Meaning.object_eq_ok hc
        exact ⟨chain, hchain⟩
      · exact Registry.chain_of_implementers himpl (hr.mem_objects.mpr hobject)
          fun hmem => ho ((hr.mem_implementers himpl).mp hmem)
    refine ⟨chain, hchain, ?_, fun c hc => ?_⟩
    · rw [Registry.mem_chainInterfaces]
      simp only [Registry.mem_chain hchain, Registry.Inherits]
    · obtain ⟨_, chain', _, -, hchain', -, rfl⟩ := Meaning.object_eq_ok hc
      obtain rfl : chain = chain' := Except.ok.inj (hchain.symm.trans hchain')
      rfl
  case implementers =>
    intro i o hi hinterface ho
    have hkept := hs.keeps_of_inherits hr (CompileState.mem_keptIds.mp hi) hinterface ho
    refine ⟨CompileState.mem_keptIds.mpr hkept, ?_⟩
    rw [h.definitions]
    exact hs.mem_definitions_of_object hkept (Registry.isObject_of_inherits ho)
  case unions =>
    intro u hu
    rw [h.definitions] at hu ⊢
    obtain ⟨d, hmeaning, hknown⟩ := hs.of_union_mem hu
    refine ⟨d, hmeaning, hr.resolves_union hmeaning, fun name hname => ?_⟩
    obtain ⟨id, hid, hobject, rfl⟩ :=
      Meaning.mentions_of_mem_possibleTypes hmeaning hname
    obtain ⟨c, hc, hmeaning'⟩ :=
      hs.mem_definitions_of_object (hs.keeps (hknown _ hid)) hobject
    exact ⟨c, hc, Meaning.type_name (Meaning.type_of_object hmeaning')⟩

/-- In a bundle of a registry that declarations lead to, the resolvers of
interfaces and unions agree with what is declared and with the interface lists
of the objects. -/
theorem SchemaBundle.resolvesTypes_of_ofRegistry (hr : r.Reached) {roots : SchemaRoots}
    {config : SchemaConfig} {b : SchemaBundle} (h : ofRegistry r roots config = .ok b) :
    ∃ ids, b.BuiltFrom r ids ∧ b.ResolvesTypes r ids := by
  obtain ⟨starts, s, hassembled⟩ := ofRegistry_ok h
  exact ⟨s.keptIds, hassembled.builtFrom, hassembled.resolvesTypes hr.wellFormed⟩

theorem People.resolvesTypes_query : ∃ b ids,
    SchemaBundle.ofRegistry registry ⟨query, none⟩ {} = .ok b ∧ b.BuiltFrom registry ids ∧
      b.ResolvesTypes registry ids := by
  obtain ⟨b, hb⟩ := accepted
  obtain ⟨ids, hids⟩ :=
    SchemaBundle.resolvesTypes_of_ofRegistry (Registry.Reached.ofDeclarations _) hb
  exact ⟨b, ids, hb, hids⟩

end SchemaGraph
