import SchemaGraph.Proofs.Compile.Members

/-!
# What the compiler keeps is sound

The invariant of a compiler in the middle of its work. Every cache holds what
the registry means, and what a kept type leads to is known: kept as well, or in
progress and about to be kept. The exceptions are named: `W` holds the nodes
that somebody has promised to compile and has not compiled yet. An interface is
kept before its implementers are compiled, and a node that leaves the ones in
progress is not kept for a moment; in both cases the promise bridges the gap,
and once it is fulfilled it can be dropped.

`A` holds the nodes the compiler has any reason to compile. It is closed under
what a node leads to, and nothing outside of it is ever kept.
-/

set_option autoImplicit false

namespace SchemaGraph

/-- A table of shapes holds what the registry means, and the shapes it holds
refer to nothing it does not know. `U` holds the nodes whose entries are made
and not filled yet. -/
structure ShapeTable.Sound (r : Registry) (U : NodeId → Prop) (table : ShapeTable) :
    Prop where
  meaning : ∀ {id shape}, table.find? id = some (some shape) → Meaning.shape r id = .ok shape
  closed : ∀ {id shape}, table.find? id = some (some shape) →
    ∀ f ∈ shape.fields, ∀ i ∈ f.shape.inputs, table.contains i = true
  unfilled : ∀ {id}, table.find? id = some none → U id

namespace CompileState

/-- A compiled type is kept for the node. -/
def Keeps (s : CompileState) (id : NodeId) : Prop :=
  s.objects.contains id = true ∨ s.interfaces.contains id = true ∨
    s.inputObjects.contains id = true

/-- What is kept, or in progress and about to be. -/
def Knows (s : CompileState) : Mention → Prop
  | .node id => id ∈ s.inProgress ∨ s.Keeps id
  | .given name => s.given.contains name = true
  | .shape id => s.shapes.contains id = true

/-- What is known or promised. -/
def Expects (s : CompileState) (W : NodeId → Prop) (m : Mention) : Prop :=
  s.Knows m ∨ ∃ id, W id ∧ m = .node id

/-- What every run of the compiler does to what is known: it adds to it, and
leaves the marks as they were. -/
structure Grows (s s' : CompileState) : Prop where
  inProgress : s'.inProgress = s.inProgress
  keeps : ∀ {id}, s.Keeps id → s'.Keeps id
  given : ∀ {name}, s.given.contains name = true → s'.given.contains name = true
  shapes : ∀ {id}, s.shapes.contains id = true → s'.shapes.contains id = true

theorem Grows.refl (s : CompileState) : Grows s s := ⟨rfl, id, id, id⟩

theorem Grows.trans {s s' s'' : CompileState} (h : Grows s s') (h' : Grows s' s'') :
    Grows s s'' where
  inProgress := h'.inProgress.trans h.inProgress
  keeps hk := h'.keeps (h.keeps hk)
  given hg := h'.given (h.given hg)
  shapes hs := h'.shapes (h.shapes hs)

theorem Grows.knows {s s' : CompileState} (h : Grows s s') {m : Mention}
    (hm : s.Knows m) : s'.Knows m := by
  cases m with
  | node id =>
      rcases hm with hmark | hkept
      · exact Or.inl (h.inProgress ▸ hmark)
      · exact Or.inr (h.keeps hkept)
  | given name => exact h.given hm
  | shape id => exact h.shapes hm

theorem Expects.imp {s s' : CompileState} {W W' : NodeId → Prop} {m : Mention}
    (hm : s.Expects W m) (hk : s.Knows m → s'.Expects W' m)
    (hw : ∀ id, W id → s'.Expects W' (.node id)) : s'.Expects W' m := by
  rcases hm with hknown | ⟨id, hid, rfl⟩
  · exact hk hknown
  · exact hw id hid

theorem Grows.expects {s s' : CompileState} (h : Grows s s') {W : NodeId → Prop}
    {m : Mention} (hm : s.Expects W m) : s'.Expects W m :=
  hm.imp (fun hk => Or.inl (h.knows hk)) fun id hid => Or.inr ⟨id, hid, rfl⟩

theorem Expects.mono {s : CompileState} {W W' : NodeId → Prop} {m : Mention}
    (hm : s.Expects W m) (hw : ∀ id, W id → W' id) : s.Expects W' m :=
  hm.imp Or.inl fun id hid => Or.inr ⟨id, hw id hid, rfl⟩

theorem Expects.remark {s : CompileState} {W : NodeId → Prop} {m : Mention}
    {marks : List NodeId} (hm : s.Expects W m)
    (hmarks : ∀ id ∈ s.inProgress, id ∈ marks ∨ W id) :
    Expects { s with inProgress := marks } W m := by
  refine hm.imp ?_ fun id hid => Or.inr ⟨id, hid, rfl⟩
  intro hk
  cases m with
  | node id =>
      rcases hk with hmark | hkept
      · rcases hmarks id hmark with hm | hw
        · exact Or.inl (Or.inl hm)
        · exact Or.inr ⟨id, hw, rfl⟩
      · exact Or.inl (Or.inr hkept)
  | given name => exact Or.inl hk
  | shape id => exact Or.inl hk

/-- What every request leaves behind, whatever happened before it. -/
structure Sound (r : Registry) (A W : NodeId → Prop) (s : CompileState) : Prop where
  objects : ∀ {id c}, s.objects.find? id = some c → Meaning.object r id = .ok c
  interfaces : ∀ {id c}, s.interfaces.find? id = some c → Meaning.interface r id = .ok c
  inputObjects : ∀ {id c}, s.inputObjects.find? id = some c →
    Meaning.inputObject r id = .ok c
  dispatches : ∀ {id d}, s.dispatches.find? id = some d →
    Meaning.interfaceDispatch r id = .ok d
  given : ∀ {name t}, s.given.find? name = some t → t.name = name ∧ t.isDeclared = false
  /-- A kept union stands for the members that are kept with it. -/
  unions : ∀ {name u}, s.given.find? name = some (.union u) →
    ∃ d : UnionDef, d.name = name ∧ s.unionMembers.find? name = some d.members ∧
      Meaning.union r d = .ok u ∧ ∀ m, (TypeExpr.union d).Mentions r m → s.Expects W m
  shapes : s.shapes.Sound r fun _ => False
  leads : ∀ {id m}, s.Keeps id → r.Leads id m → s.Expects W m
  within : ∀ {id}, s.Keeps id → A id

/-- A run from one sound state to another that knows at least as much. -/
structure Advances (r : Registry) (A W : NodeId → Prop) (s s' : CompileState) : Prop where
  sound : Sound r A W s'
  grows : Grows s s'

namespace Advances

variable {r : Registry} {A W : NodeId → Prop} {s s' s'' : CompileState}

theorem refl (h : Sound r A W s) : Advances r A W s s := ⟨h, Grows.refl s⟩

theorem trans (h : Advances r A W s s') (h' : Advances r A W s' s'') :
    Advances r A W s s'' := ⟨h'.sound, h.grows.trans h'.grows⟩

end Advances

namespace Sound

variable {r : Registry} {A W : NodeId → Prop} {s s' : CompileState}

/-- Before the first request nothing is kept. -/
theorem start (r : Registry) (A W : NodeId → Prop) : Sound r A W {} where
  objects h := nomatch h
  interfaces h := nomatch h
  inputObjects h := nomatch h
  dispatches h := nomatch h
  given h := nomatch h
  unions h := nomatch h
  shapes := ⟨(nomatch ·), (nomatch ·), (nomatch ·)⟩
  leads h := by
    rcases h with h | h | h <;> cases h
  within h := by
    rcases h with h | h | h <;> cases h

/-- A promise may be replaced by what fulfils it. -/
theorem settle {W' : NodeId → Prop} (h : Sound r A W s)
    (hw : ∀ id, W id → s.Expects W' (.node id)) : Sound r A W' s where
  objects := h.objects
  interfaces := h.interfaces
  inputObjects := h.inputObjects
  dispatches := h.dispatches
  given := h.given
  unions hu := by
    obtain ⟨d, hname, hmembers, hmeaning, hexp⟩ := h.unions hu
    exact ⟨d, hname, hmembers, hmeaning, fun m hm => (hexp m hm).imp Or.inl hw⟩
  shapes := h.shapes
  leads hk hm := (h.leads hk hm).imp Or.inl hw
  within := h.within

theorem mono {W' : NodeId → Prop} (h : Sound r A W s) (hw : ∀ id, W id → W' id) :
    Sound r A W' s := h.settle fun id hid => Or.inr ⟨id, hw id hid, rfl⟩

/-- A promise is fulfilled when the node is kept. -/
theorem fulfil {id : NodeId} (h : Sound r A (fun i => W i ∨ i = id) s)
    (hk : s.Keeps id) : Sound r A W s := by
  refine h.settle ?_
  rintro i (hi | rfl)
  · exact Or.inr ⟨i, hi, rfl⟩
  · exact Or.inl (Or.inr hk)

/-- The marks may change as long as whoever loses its mark is promised. -/
theorem remark {marks : List NodeId} (h : Sound r A W s)
    (hmarks : ∀ id ∈ s.inProgress, id ∈ marks ∨ W id) :
    Sound r A W { s with inProgress := marks } :=
  { objects := h.objects
    interfaces := h.interfaces
    inputObjects := h.inputObjects
    dispatches := h.dispatches
    given := h.given
    unions := fun hu => by
      obtain ⟨d, hname, hmembers, hmeaning, hexp⟩ := h.unions hu
      exact ⟨d, hname, hmembers, hmeaning, fun m hm => (hexp m hm).remark hmarks⟩
    shapes := h.shapes
    leads := fun hk hm => (h.leads hk hm).remark hmarks
    within := h.within }

/-! Storing something new keeps the invariant if what is stored is what the
registry means and what it leads to is expected. -/

/-- A compiled type may be kept once everything it leads to is expected. -/
theorem keep (h : Sound r A W s) (hgrows : Grows s s')
    (hobjects : ∀ {id c}, s'.objects.find? id = some c → Meaning.object r id = .ok c)
    (hinterfaces : ∀ {id c}, s'.interfaces.find? id = some c →
      Meaning.interface r id = .ok c)
    (hinputs : ∀ {id c}, s'.inputObjects.find? id = some c →
      Meaning.inputObject r id = .ok c)
    (hdispatches : s'.dispatches = s.dispatches) (hgiven : s'.given = s.given)
    (hmembers : s'.unionMembers = s.unionMembers) (hshapes : s'.shapes = s.shapes)
    (hkeeps : ∀ {id}, s'.Keeps id →
      s.Keeps id ∨ A id ∧ ∀ m, r.Leads id m → s.Expects W m) :
    Sound r A W s' where
  objects := hobjects
  interfaces := hinterfaces
  inputObjects := hinputs
  dispatches hd := h.dispatches (hdispatches ▸ hd)
  given ht := h.given (hgiven ▸ ht)
  unions hu := by
    obtain ⟨d, hname, hd, hmeaning, hexp⟩ := h.unions (hgiven ▸ hu)
    exact ⟨d, hname, hmembers ▸ hd, hmeaning, fun m hm => hgrows.expects (hexp m hm)⟩
  shapes := hshapes ▸ h.shapes
  leads hk hm := by
    rcases hkeeps hk with hold | ⟨-, hnew⟩
    · exact hgrows.expects (h.leads hold hm)
    · exact hgrows.expects (hnew _ hm)
  within hk := by
    rcases hkeeps hk with hold | ⟨hnew, -⟩
    · exact h.within hold
    · exact hnew

theorem keepObject {id : NodeId} {c : CompiledObject} (h : Sound r A W s)
    (hs' : s' = { s with objects := s.objects.insert id c })
    (hc : Meaning.object r id = .ok c) (hA : A id)
    (hleads : ∀ m, r.Leads id m → s.Expects W m) : Advances r A W s s' ∧ s'.Keeps id := by
  subst hs'
  have hgrows : Grows s { s with objects := s.objects.insert id c } :=
    { inProgress := rfl
      keeps := fun hk => hk.imp_left fun ho => OrderedMap.contains_insert.mpr (Or.inr ho)
      given := fun hg => hg
      shapes := fun hs => hs }
  refine ⟨⟨h.keep hgrows ?_ h.interfaces h.inputObjects rfl rfl rfl rfl ?_, hgrows⟩, ?_⟩
  · exact OrderedMap.forall_find?_insert h.objects hc
  · rintro id' (ho | hi | hn)
    · rcases OrderedMap.contains_insert.mp ho with rfl | hold
      · exact Or.inr ⟨hA, hleads⟩
      · exact Or.inl (Or.inl hold)
    · exact Or.inl (Or.inr (Or.inl hi))
    · exact Or.inl (Or.inr (Or.inr hn))
  · exact Or.inl (OrderedMap.contains_insert.mpr (Or.inl rfl))

theorem keepInterface {id : NodeId} {c : CompiledInterface} (h : Sound r A W s)
    (hs' : s' = { s with interfaces := s.interfaces.insert id c })
    (hc : Meaning.interface r id = .ok c) (hA : A id)
    (hleads : ∀ m, r.Leads id m → s.Expects W m) : Advances r A W s s' ∧ s'.Keeps id := by
  subst hs'
  have hgrows : Grows s { s with interfaces := s.interfaces.insert id c } :=
    { inProgress := rfl
      keeps := fun hk => hk.imp_right fun hk =>
        hk.imp_left fun hi => OrderedMap.contains_insert.mpr (Or.inr hi)
      given := fun hg => hg
      shapes := fun hs => hs }
  refine ⟨⟨h.keep hgrows h.objects ?_ h.inputObjects rfl rfl rfl rfl ?_, hgrows⟩, ?_⟩
  · exact OrderedMap.forall_find?_insert h.interfaces hc
  · rintro id' (ho | hi | hn)
    · exact Or.inl (Or.inl ho)
    · rcases OrderedMap.contains_insert.mp hi with rfl | hold
      · exact Or.inr ⟨hA, hleads⟩
      · exact Or.inl (Or.inr (Or.inl hold))
    · exact Or.inl (Or.inr (Or.inr hn))
  · exact Or.inr (Or.inl (OrderedMap.contains_insert.mpr (Or.inl rfl)))

theorem keepInputObject {id : NodeId} {c : CompiledInputObject} (h : Sound r A W s)
    (hs' : s' = { s with inputObjects := s.inputObjects.insert id c })
    (hc : Meaning.inputObject r id = .ok c) (hA : A id)
    (hleads : ∀ m, r.Leads id m → s.Expects W m) : Advances r A W s s' ∧ s'.Keeps id := by
  subst hs'
  have hgrows : Grows s { s with inputObjects := s.inputObjects.insert id c } :=
    { inProgress := rfl
      keeps := fun hk => hk.imp_right fun hk =>
        hk.imp_right fun hn => OrderedMap.contains_insert.mpr (Or.inr hn)
      given := fun hg => hg
      shapes := fun hs => hs }
  refine ⟨⟨h.keep hgrows h.objects h.interfaces ?_ rfl rfl rfl rfl ?_, hgrows⟩, ?_⟩
  · exact OrderedMap.forall_find?_insert h.inputObjects hc
  · rintro id' (ho | hi | hn)
    · exact Or.inl (Or.inl ho)
    · exact Or.inl (Or.inr (Or.inl hi))
    · rcases OrderedMap.contains_insert.mp hn with rfl | hold
      · exact Or.inr ⟨hA, hleads⟩
      · exact Or.inl (Or.inr (Or.inr hold))
  · exact Or.inr (Or.inr (OrderedMap.contains_insert.mpr (Or.inl rfl)))

theorem keepDispatch {id : NodeId} {d : Dispatch} (h : Sound r A W s)
    (hd : Meaning.interfaceDispatch r id = .ok d) :
    Advances r A W s { s with dispatches := s.dispatches.insert id d } := by
  refine ⟨{ h with dispatches := ?_ }, ⟨rfl, fun hk => hk, fun hg => hg, fun hs => hs⟩⟩
  exact OrderedMap.forall_find?_insert h.dispatches hd

theorem keepShapes {table : ShapeTable} (h : Sound r A W s)
    (htable : table.Sound r fun _ => False)
    (hgrows : ∀ {id}, s.shapes.contains id = true → table.contains id = true) :
    Advances r A W s { s with shapes := table } := by
  have hgrows : Grows s { s with shapes := table } :=
    ⟨rfl, fun hk => hk, fun hg => hg, hgrows⟩
  refine ⟨{ h with unions := ?_, shapes := htable, leads := ?_ }, hgrows⟩
  · intro name u hu
    obtain ⟨d, hname, hmembers, hmeaning, hexp⟩ := h.unions hu
    exact ⟨d, hname, hmembers, hmeaning, fun m hm => hgrows.expects (hexp m hm)⟩
  · intro id m hk hm
    exact hgrows.expects (h.leads hk hm)

/-- What is given on the spot may be kept under its name; a union together with
its members, and once these are expected. -/
theorem keepGiven {name : String} {t : CompiledType}
    {members : OrderedMap String (List HostType)} (h : Sound r A W s)
    (hname : t.name = name) (ht : t.isDeclared = false)
    (hmembers : ∀ other, other ≠ name → members.find? other = s.unionMembers.find? other)
    (hunion : ∀ u, t = .union u → ∃ d : UnionDef, d.name = name ∧
      members.find? name = some d.members ∧ Meaning.union r d = .ok u ∧
      ∀ m, (TypeExpr.union d).Mentions r m → m = .given name ∨ s.Expects W m) :
    Advances r A W s
      { s with given := s.given.insert name t, unionMembers := members } := by
  have hgrows : Grows s { s with given := s.given.insert name t, unionMembers := members } :=
    ⟨rfl, fun hk => hk, fun hg => OrderedMap.contains_insert.mpr (Or.inr hg), fun hs => hs⟩
  refine ⟨{ h with given := ?_, unions := ?_, leads := ?_ }, hgrows⟩
  · exact OrderedMap.forall_find?_insert h.given ⟨hname, ht⟩
  · intro other u hfind
    rw [OrderedMap.find?_insert] at hfind
    split at hfind
    · next heq =>
        obtain ⟨d, hd, hfound, hmeaning, hexp⟩ := hunion u (Option.some.inj hfind)
        refine ⟨d, hd.trans heq.symm, heq ▸ hfound, hmeaning, fun m hm => ?_⟩
        rcases hexp m hm with rfl | hm
        · exact Or.inl (OrderedMap.contains_insert.mpr (Or.inl rfl))
        · exact hgrows.expects hm
    · next hne =>
        obtain ⟨d, hd, hfound, hmeaning, hexp⟩ := h.unions hfind
        exact ⟨d, hd, (hmembers other hne).trans hfound, hmeaning,
          fun m hm => hgrows.expects (hexp m hm)⟩
  · intro id m hk hm
    exact hgrows.expects (h.leads hk hm)

theorem keepUnion {d : UnionDef} {u : CompiledUnion} (h : Sound r A W s)
    (hname : u.name = d.name) (hu : Meaning.union r d = .ok u)
    (hmentions : ∀ m, (TypeExpr.union d).Mentions r m →
      m = .given d.name ∨ s.Expects W m) :
    Advances r A W s
      { s with
        given := s.given.insert d.name (.union u)
        unionMembers := s.unionMembers.insert d.name d.members } := by
  refine h.keepGiven hname rfl ?_ ?_
  · intro other hne
    rw [OrderedMap.find?_insert, if_neg hne]
  · intro u' hu'
    cases hu'
    exact ⟨d, rfl, by rw [OrderedMap.find?_insert, if_pos rfl], hu, hmentions⟩

end Sound

end CompileState

end SchemaGraph
