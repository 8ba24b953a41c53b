import SchemaGraph.Compile.Reference
import SchemaGraph.Proofs.Compile.Shapes

/-!
# References are what they mean

A reference is compiled by entering the declared types it mentions and keeping
the others under their names. Given that entering a node advances a sound state
and makes the node known, so does every step on the way from a type expression
to its reference, and the reference is the one the registry means.

The only reference that enters nothing is one to a union that is kept already.
What its members need was expected when the union was kept, and still is.
-/

set_option autoImplicit false

namespace SchemaGraph.Compile

open CompileState

/-- What is asked of `enter`: that from a sound state it reaches one that knows
the node, provided there is a reason to compile it. -/
def Enters (r : Registry) (A : NodeId → Prop) (enter : NodeId → CompileM Unit) : Prop :=
  ∀ {W : NodeId → Prop} {s s' : CompileState} {id : NodeId} {u : Unit}, A id →
    Sound r A W s → enter id s = .ok u s' →
    Advances r A W s s' ∧ s'.Knows (.node id)

variable {r : Registry} {A W : NodeId → Prop} {s s' : CompileState}
  {enter : NodeId → CompileM Unit}

/-! ## Declared types -/

theorem interfaceDispatch_ok (hs : Sound r A W s) {id : NodeId} {d : Dispatch}
    (h : interfaceDispatch r id s = .ok d s') :
    Advances r A W s s' ∧ Meaning.interfaceDispatch r id = .ok d := by
  simp only [interfaceDispatch, bind_eq_ok, get_eq_ok] at h
  obtain ⟨_, _, ⟨rfl, rfl⟩, h⟩ := h
  cases hfound : s.dispatches.find? id with
  | some kept =>
      simp only [hfound] at h
      obtain ⟨rfl, rfl⟩ := pure_eq_ok.mp h
      exact ⟨Advances.refl hs, hs.dispatches hfound⟩
  | none =>
      simp only [hfound, bind_eq_ok, lift_eq_ok, keepDispatch, modify_eq_ok, pure_eq_ok] at h
      obtain ⟨implementers, _, ⟨himpl, rfl⟩, _, _, rfl, rfl, rfl⟩ := h
      have hmeaning : Meaning.interfaceDispatch r id = .ok
          ⟨(r.node id).displayName, .interface,
            implementers.map fun i => ((r.node i).type, (r.node i).displayName)⟩ :=
        Meaning.map_eq_ok.mpr ⟨implementers, himpl, rfl⟩
      exact ⟨hs.keepDispatch hmeaning, hmeaning⟩

theorem nodeRef_ok (henter : Enters r A enter) {id : NodeId} {c : CompiledRef} (hA : A id)
    (hs : Sound r A W s) (h : nodeRef r enter id s = .ok c s') :
    Advances r A W s s' ∧ Meaning.node r id = .ok c ∧ s'.Knows (.node id) := by
  cases hn : r.node id with
  | object n =>
      simp only [nodeRef, hn, bind_eq_ok, pure_eq_ok] at h
      obtain ⟨_, _, hrun, rfl, rfl⟩ := h
      obtain ⟨hadv, hknown⟩ := henter hA hs hrun
      exact ⟨hadv, by simp only [Meaning.node, hn], hknown⟩
  | interface n =>
      simp only [nodeRef, hn, bind_eq_ok, pure_eq_ok] at h
      obtain ⟨_, s₁, hrun, d, _, hdispatch, rfl, rfl⟩ := h
      obtain ⟨hadv₁, hknown⟩ := henter hA hs hrun
      obtain ⟨hadv₂, hmeaning⟩ := interfaceDispatch_ok hadv₁.sound hdispatch
      refine ⟨hadv₁.trans hadv₂, ?_, hadv₂.grows.knows hknown⟩
      simp only [Meaning.node, hn, Meaning.map_eq_ok]
      exact ⟨d, hmeaning, rfl⟩
  | inputObject n =>
      simp only [nodeRef, hn, bind_eq_ok, pure_eq_ok] at h
      obtain ⟨_, _, hrun, rfl, rfl⟩ := h
      obtain ⟨hadv, hknown⟩ := henter hA hs hrun
      exact ⟨hadv, by simp only [Meaning.node, hn], hknown⟩
  | field n | args n | arg n | inputField n | implement n =>
      simp only [nodeRef, hn] at h
      exact absurd h throw_ne_ok

/-! ## Types given on the spot -/

theorem keepGiven_ok {t : CompiledType} {u : Unit} :
    keepGiven t s = .ok u s' ↔ s' = { s with given := s.given.insert t.name t } :=
  modify_eq_ok

/-- Keeping a scalar or an enum needs no more than its name. -/
theorem advances_keepGiven (hs : Sound r A W s) {t : CompiledType}
    (ht : t.isDeclared = false) (hunion : ∀ u, t ≠ .union u) :
    Advances r A W s { s with given := s.given.insert t.name t } :=
  hs.keepGiven rfl ht (fun _ _ => rfl) fun u hu => absurd hu (hunion u)

theorem keepScalar_ok (hs : Sound r A W s) {d : ScalarDef} {u : Unit}
    (h : keepScalar d s = .ok u s') :
    Advances r A W s s' ∧ (d.builtin = false → s'.Knows (.given d.name)) := by
  simp only [keepScalar, bind_eq_ok, get_eq_ok] at h
  obtain ⟨_, _, ⟨rfl, rfl⟩, h⟩ := h
  split at h
  · simp only [bind_eq_ok, lift_eq_ok, keepGiven_ok] at h
    obtain ⟨_, _, ⟨-, rfl⟩, rfl⟩ := h
    refine ⟨advances_keepGiven hs rfl (fun _ h => by cases h), fun _ => ?_⟩
    exact OrderedMap.contains_insert.mpr (Or.inl rfl)
  · next hskip =>
      obtain ⟨-, rfl⟩ := pure_eq_ok.mp h
      refine ⟨Advances.refl hs, fun hbuiltin => ?_⟩
      simpa [hbuiltin, Knows] using hskip

theorem keepEnum_ok (hs : Sound r A W s) {d : EnumDef} {u : Unit}
    (h : keepEnum d s = .ok u s') :
    Advances r A W s s' ∧ s'.Knows (.given d.name) := by
  simp only [keepEnum, bind_eq_ok, get_eq_ok] at h
  obtain ⟨_, _, ⟨rfl, rfl⟩, h⟩ := h
  split at h
  · simp only [bind_eq_ok, lift_eq_ok, keepGiven_ok] at h
    obtain ⟨_, _, ⟨-, rfl⟩, _, _, ⟨-, rfl⟩, rfl⟩ := h
    refine ⟨advances_keepGiven hs rfl (fun _ h => by cases h), ?_⟩
    exact OrderedMap.contains_insert.mpr (Or.inl rfl)
  · next hskip =>
      obtain ⟨-, rfl⟩ := pure_eq_ok.mp h
      exact ⟨Advances.refl hs, by simpa [Knows] using hskip⟩

theorem unionMembers_ok (henter : Enters r A enter) {members : List HostType} :
    ∀ {s s' : CompileState} {tables : List (HostType × String) × List (HostType × String)},
      (∀ t ∈ members, ∀ id, r.getNode t = .ok id → A id) → Sound r A W s →
      unionMembers r enter members s = .ok tables s' →
      Advances r A W s s' ∧ Meaning.unionMembers r members = .ok tables ∧
        ∀ t ∈ members, ∀ id, r.getNode t = .ok id → s'.Knows (.node id) := by
  induction members with
  | nil =>
      intro s s' tables _ hs h
      obtain ⟨rfl, rfl⟩ := pure_eq_ok.mp h
      exact ⟨Advances.refl hs, rfl, fun t ht => absurd ht List.not_mem_nil⟩
  | cons t rest ih =>
      intro s s' tables hA hs h
      simp only [unionMembers, bind_eq_ok, lift_eq_ok] at h
      obtain ⟨id, _, ⟨hid, rfl⟩, h⟩ := h
      split at h
      · simp only [bind_eq_ok] at h
        obtain ⟨_, _, hthrow, -⟩ := h
        exact absurd hthrow throw_ne_ok
      · next hobject =>
          simp only [bind_eq_ok, lift_eq_ok, pure_eq_ok] at h
          obtain ⟨_, s₁, hrun, extending, _, ⟨hext, rfl⟩, ⟨members, descendants⟩, _,
            hrest, rfl, rfl⟩ := h
          obtain ⟨hadv₁, hknown⟩ := henter (hA t (by simp) id hid) hs hrun
          obtain ⟨hadv₂, hmeaning, hall⟩ :=
            ih (fun t' ht' => hA t' (by simp [ht'])) hadv₁.sound hrest
          refine ⟨hadv₁.trans hadv₂, ?_, ?_⟩
          · simp only [Meaning.unionMembers, Meaning.bind_eq_ok]
            refine ⟨id, hid, ?_⟩
            rw [if_pos (by simpa using hobject)]
            simp only [Meaning.bind_eq_ok]
            exact ⟨extending, hext, (members, descendants), hmeaning, rfl⟩
          · intro t' ht' id' hid'
            rcases List.mem_cons.mp ht' with rfl | ht'
            · obtain rfl : id = id' := Except.ok.inj (hid.symm.trans hid')
              exact hadv₂.grows.knows hknown
            · exact hall t' ht' id' hid'

/-- The meaning of a union depends on its description in no other way than by
carrying it. -/
theorem meaning_union_of_members {d d' : UnionDef} {u : CompiledUnion}
    (hname : d'.name = d.name) (hmembers : d'.members = d.members)
    (h : Meaning.union r d' = .ok u) :
    Meaning.union r d = .ok { u with description := d.description } := by
  simp only [Meaning.union, Meaning.map_eq_ok] at h ⊢
  obtain ⟨tables, htables, rfl⟩ := h
  exact ⟨tables, hmembers ▸ htables, by rw [hname]⟩

theorem unionDispatch_ok (henter : Enters r A enter) {d : UnionDef} {dispatch : Dispatch}
    (hA : ∀ t ∈ d.members, ∀ id, r.getNode t = .ok id → A id) (hs : Sound r A W s)
    (h : unionDispatch r enter d s = .ok dispatch s') :
    Advances r A W s s' ∧
      (∃ u, Meaning.union r d = .ok u ∧ u.dispatch = dispatch) ∧
      ∀ m, (TypeExpr.union d).Mentions r m → s'.Expects W m := by
  simp only [unionDispatch, bind_eq_ok, get_eq_ok] at h
  obtain ⟨_, _, ⟨rfl, rfl⟩, h⟩ := h
  cases hfound : s.given.find? d.name with
  | some t =>
      cases t with
      | union kept =>
          simp only [hfound] at h
          split at h
          · next hmembers =>
              obtain ⟨rfl, rfl⟩ := pure_eq_ok.mp h
              obtain ⟨d', hname, hmembers', hmeaning, hexp⟩ := hs.unions hfound
              have hsame : d'.members = d.members :=
                Option.some.inj (hmembers'.symm.trans hmembers)
              refine ⟨Advances.refl hs,
                ⟨_, meaning_union_of_members hname hsame hmeaning, rfl⟩, ?_⟩
              intro m hm
              apply hexp m
              rw [TypeExpr.Mentions, hname, hsame]
              exact hm
          · exact absurd h throw_ne_ok
      | object _ | interface _ | inputObject _ | enum _ | scalar _ =>
          simp only [hfound] at h
          exact absurd h throw_ne_ok
  | none =>
      simp only [hfound, bind_eq_ok, lift_eq_ok, modify_eq_ok, keepGiven_ok, pure_eq_ok] at h
      obtain ⟨_, _, ⟨-, rfl⟩, ⟨members, descendants⟩, s₁, hrun, _, _, rfl, _, _, rfl, rfl,
        rfl⟩ := h
      obtain ⟨hadv, hmeaning, hknown⟩ := unionMembers_ok henter hA hs hrun
      have hunion : Meaning.union r d = .ok ⟨d.name, d.description, members.map (·.2),
          ⟨d.name, .union, members ++ descendants⟩⟩ :=
        Meaning.map_eq_ok.mpr ⟨(members, descendants), hmeaning, rfl⟩
      have hmentions : ∀ m, (TypeExpr.union d).Mentions r m →
          m = .given d.name ∨ s₁.Expects W m := by
        rintro m (rfl | ⟨t, ht, id, hid, rfl⟩)
        · exact Or.inl rfl
        · exact Or.inr (Or.inl (hknown t ht id hid))
      have hkeep := hadv.sound.keepUnion rfl hunion hmentions
      refine ⟨hadv.trans hkeep, ⟨_, hunion, rfl⟩, ?_⟩
      intro m hm
      rcases hmentions m hm with rfl | hm
      · exact Or.inl (OrderedMap.contains_insert.mpr (Or.inl rfl))
      · exact hkeep.grows.expects hm

/-! ## Type expressions -/

theorem expr_ok (henter : Enters r A enter) {t : TypeExpr} :
    ∀ {nonNull : Bool} {s s' : CompileState} {c : CompiledRef},
      (∀ id, t.Mentions r (.node id) → A id) → Sound r A W s →
      expr r enter nonNull t s = .ok c s' →
      Advances r A W s s' ∧ Meaning.expr r nonNull t = .ok c ∧
        ∀ m, t.Mentions r m → s'.Expects W m := by
  induction t with
  | ref t =>
      intro nonNull s s' c hA hs h
      simp only [expr, bind_eq_ok, lift_eq_ok, pure_eq_ok] at h
      obtain ⟨id, _, ⟨hid, rfl⟩, c, _, hrun, rfl, rfl⟩ := h
      obtain ⟨hadv, hmeaning, hknown⟩ := nodeRef_ok henter (hA id ⟨id, hid, rfl⟩) hs hrun
      refine ⟨hadv, ?_, ?_⟩
      · simp only [Meaning.expr, Meaning.bind_eq_ok]
        exact ⟨id, hid, c, hmeaning, rfl⟩
      · rintro m ⟨id', hid', rfl⟩
        obtain rfl : id = id' := Except.ok.inj (hid.symm.trans hid')
        exact Or.inl hknown
  | scalar d =>
      intro nonNull s s' c hA hs h
      simp only [expr, bind_eq_ok, pure_eq_ok] at h
      obtain ⟨_, _, hrun, rfl, rfl⟩ := h
      obtain ⟨hadv, hknown⟩ := keepScalar_ok hs hrun
      refine ⟨hadv, rfl, ?_⟩
      rintro m ⟨hbuiltin, rfl⟩
      exact Or.inl (hknown hbuiltin)
  | enum d =>
      intro nonNull s s' c hA hs h
      simp only [expr, bind_eq_ok, pure_eq_ok] at h
      obtain ⟨_, _, hrun, rfl, rfl⟩ := h
      obtain ⟨hadv, hknown⟩ := keepEnum_ok hs hrun
      refine ⟨hadv, rfl, ?_⟩
      rintro m rfl
      exact Or.inl hknown
  | union d =>
      intro nonNull s s' c hA hs h
      simp only [expr, bind_eq_ok, pure_eq_ok] at h
      obtain ⟨_, _, hrun, rfl, rfl⟩ := h
      obtain ⟨hadv, ⟨u, hmeaning, rfl⟩, hexp⟩ := unionDispatch_ok henter
        (fun t ht id hid => hA id (Or.inr ⟨t, ht, id, hid, rfl⟩)) hs hrun
      refine ⟨hadv, ?_, hexp⟩
      simp only [Meaning.expr, Meaning.bind_eq_ok]
      exact ⟨u, hmeaning, rfl⟩
  | list item ih =>
      intro nonNull s s' c hA hs h
      simp only [expr, bind_eq_ok, pure_eq_ok] at h
      obtain ⟨c, _, hrun, rfl, rfl⟩ := h
      obtain ⟨hadv, hmeaning, hexp⟩ := ih hA hs hrun
      refine ⟨hadv, ?_, hexp⟩
      simp only [Meaning.expr, Meaning.bind_eq_ok]
      exact ⟨c, hmeaning, rfl⟩
  | nullable inner ih =>
      intro nonNull s s' c hA hs h
      simp only [expr, bind_eq_ok, pure_eq_ok] at h
      obtain ⟨c, _, hrun, rfl, rfl⟩ := h
      obtain ⟨hadv, hmeaning, hexp⟩ := ih hA hs hrun
      refine ⟨hadv, ?_, hexp⟩
      simp only [Meaning.expr, Meaning.bind_eq_ok]
      exact ⟨c, hmeaning, rfl⟩

theorem link_ok (henter : Enters r A enter) {l : Link} {nonNull : Bool} {c : CompiledRef}
    (hA : ∀ id, l.Mentions r (.node id) → A id) (hs : Sound r A W s)
    (h : link r enter l nonNull s = .ok c s') :
    Advances r A W s s' ∧ Meaning.link r l nonNull = .ok c ∧
      ∀ m, l.Mentions r m → s'.Expects W m := by
  cases l with
  | node id =>
      simp only [link, bind_eq_ok, pure_eq_ok] at h
      obtain ⟨c, _, hrun, rfl, rfl⟩ := h
      obtain ⟨hadv, hmeaning, hknown⟩ := nodeRef_ok henter (hA id rfl) hs hrun
      refine ⟨hadv, Meaning.map_eq_ok.mpr ⟨c, hmeaning, rfl⟩, ?_⟩
      rintro m rfl
      exact Or.inl hknown
  | given t => exact expr_ok henter hA hs h

theorem outputLink_ok (henter : Enters r A enter) {l : Link} {nonNull : Bool}
    {owner field : String} {c : CompiledRef}
    (hA : ∀ id, l.Mentions r (.node id) → A id) (hs : Sound r A W s)
    (h : outputLink r enter l nonNull owner field s = .ok c s') :
    Advances r A W s s' ∧ Meaning.output r l nonNull owner field = .ok c ∧
      ∀ m, l.Mentions r m → s'.Expects W m := by
  simp only [outputLink, bind_eq_ok] at h
  obtain ⟨c', s₁, hrun, h⟩ := h
  obtain ⟨hadv, hmeaning, hexp⟩ := link_ok henter hA hs hrun
  split at h
  · next houtput =>
      obtain ⟨rfl, rfl⟩ := pure_eq_ok.mp h
      refine ⟨hadv, ?_, hexp⟩
      simp only [Meaning.output, Meaning.bind_eq_ok]
      exact ⟨c, hmeaning, if_pos houtput⟩
  · exact absurd h throw_ne_ok

theorem inputLink_ok (henter : Enters r A enter) {l : Link} {nonNull : Bool}
    {owner field : String} {c : CompiledRef}
    (hA : ∀ id, l.Mentions r (.node id) → A id) (hs : Sound r A W s)
    (h : inputLink r enter l nonNull owner field s = .ok c s') :
    Advances r A W s s' ∧ Meaning.input r l nonNull owner field = .ok c ∧
      ∀ m, l.Mentions r m → s'.Expects W m := by
  simp only [inputLink, bind_eq_ok] at h
  obtain ⟨c', s₁, hrun, h⟩ := h
  obtain ⟨hadv, hmeaning, hexp⟩ := link_ok henter hA hs hrun
  split at h
  · next hinput =>
      obtain ⟨rfl, rfl⟩ := pure_eq_ok.mp h
      refine ⟨hadv, ?_, hexp⟩
      simp only [Meaning.input, Meaning.bind_eq_ok]
      exact ⟨c, hmeaning, if_pos hinput⟩
  · exact absurd h throw_ne_ok

end SchemaGraph.Compile
