import SchemaGraph.Proofs.Compile.Types
import SchemaGraph.Proofs.Compile.Uses

/-!
# What a run keeps under which name

The invariant of the caches says that a name which is mentioned is kept. Here is
the rest: what is kept under it. A scalar or an enum that finds its name taken is
dropped without a look at what has it. A union looks before its members are
compiled and is kept after, and in between another one may be kept under the
name and replaced.

So of a union that a kept type uses two things can be said. Either it is the one
that is kept under its name, or the one that is kept was waiting for its members
when the other was met, and then one of its members leads to the type. That is
`Stands`. It holds after every run, since a union that replaces another began
when its name was free, and so before any type was kept that uses the name.

A run `Gathers` what it uses: everything new under a name comes from a use, and
whatever was there when the run began stays.
-/

set_option autoImplicit false

namespace SchemaGraph

variable {r : Registry}

theorem Compile.Closed.leadsTo {A : NodeId → Prop} (hclosed : Closed r A) {id other : NodeId}
    (hid : A id) (h : r.LeadsTo id other) : A other := by
  induction h with
  | refl => exact hid
  | tail _ hlead ih => exact hclosed ih hlead

theorem UnionDef.closed_leadsTo (r : Registry) (d : UnionDef) :
    Compile.Closed r (d.LeadsTo r) := by
  rintro id other ⟨t, ht, member, hmember, hleads⟩ hother
  exact ⟨t, ht, member, hmember, hleads.tail hother⟩

namespace CompileState

/-- A union is kept under the name of `d`, with the members of `d`. -/
def Holds (s : CompileState) (d : UnionDef) : Prop :=
  (∃ u, s.given.find? d.name = some (.union u)) ∧
    s.unionMembers.find? d.name = some d.members

/-- The union `d`, which the node uses, is kept under its name, or the one that is
has a member that leads to the node. -/
def Stands (r : Registry) (s : CompileState) (id : NodeId) (d : UnionDef) : Prop :=
  s.Holds d ∨ ∃ d', d'.name = d.name ∧ s.Holds d' ∧ d'.LeadsTo r id

/-- What is said of a union that a kept node uses. -/
def UnionsStand (r : Registry) (s : CompileState) : Prop :=
  ∀ {id d}, s.Keeps id → r.Uses id (.union d) → s.Stands r id d

/-- A run that keeps nodes in `N`, and under the names it finds free what it uses
itself, which is `D`, or what these nodes use. -/
structure Gathers (r : Registry) (N : NodeId → Prop) (D : GivenType → Prop)
    (s s' : CompileState) : Prop where
  stands : s'.UnionsStand r
  nodes : ∀ {id}, s'.Keeps id → s.Keeps id ∨ N id
  given : ∀ {name t}, s.given.find? name = some t → s'.given.find? name = some t
  members : ∀ {name t}, s.given.find? name = some t →
    s'.unionMembers.find? name = s.unionMembers.find? name
  /-- A union that the run uses itself is the one of its name. -/
  holds : ∀ {d}, D (.union d) → s'.Holds d
  origin : ∀ {name t}, s'.given.find? name = some t → s.given.find? name = some t ∨
    ∃ g : GivenType, (D g ∨ ∃ id, N id ∧ r.Uses id g) ∧ g.name = name ∧ g.Defines t

variable {N : NodeId → Prop} {D D' : GivenType → Prop} {s s' s'' : CompileState}

theorem Stands.find? {id : NodeId} {d : UnionDef} (h : s.Stands r id d) :
    ∃ u, s.given.find? d.name = some (.union u) := by
  rcases h with h | ⟨d', hname, h, -⟩
  · exact h.1
  · exact hname ▸ h.1

/-- Unions stand as long as what is kept under their names is not touched. -/
theorem Stands.transfer {id : NodeId} {d : UnionDef} (h : s.Stands r id d)
    (hsame : ∀ d', d'.name = d.name → s.Holds d' → s'.Holds d') : s'.Stands r id d := by
  rcases h with h | ⟨d', hname, h, hleads⟩
  · exact Or.inl (hsame d rfl h)
  · exact Or.inr ⟨d', hname, hsame d' hname h, hleads⟩

namespace Gathers

theorem refl (hs : s.UnionsStand r) (hD : ∀ d, D (.union d) → s.Holds d) :
    Gathers r N D s s :=
  ⟨hs, Or.inl, id, fun _ => rfl, fun {d} => hD d, Or.inl⟩

theorem holds_of_holds (h : Gathers r N D s s') {d : UnionDef} (hd : s.Holds d) :
    s'.Holds d := by
  obtain ⟨⟨u, hu⟩, hmembers⟩ := hd
  exact ⟨⟨u, h.given hu⟩, (h.members hu).trans hmembers⟩

theorem trans (h : Gathers r N D s s') (h' : Gathers r N D' s' s'') :
    Gathers r N (fun g => D g ∨ D' g) s s'' where
  stands := h'.stands
  nodes hid := (h'.nodes hid).elim h.nodes Or.inr
  given ht := h'.given (h.given ht)
  members ht := (h'.members (h.given ht)).trans (h.members ht)
  holds hd := hd.elim (fun hd => h'.holds_of_holds (h.holds hd)) h'.holds
  origin ht := by
    rcases h'.origin ht with ht | ⟨g, huse, hg⟩
    · rcases h.origin ht with ht | ⟨g, huse, hg⟩
      · exact Or.inl ht
      · exact Or.inr ⟨g, huse.imp_left Or.inl, hg⟩
    · exact Or.inr ⟨g, huse.imp_left Or.inr, hg⟩

theorem congr (h : Gathers r N D s s') (hD : ∀ g, D' g ↔ D g) : Gathers r N D' s s' where
  stands := h.stands
  nodes := h.nodes
  given := h.given
  members := h.members
  holds hd := h.holds ((hD _).mp hd)
  origin ht := (h.origin ht).imp_right fun ⟨g, huse, hg⟩ =>
    ⟨g, huse.imp_left (hD g).mpr, hg⟩

/-- What follows uses nothing. -/
theorem followed (h : Gathers r N D s s') (h' : Gathers r N (fun _ => False) s' s'') :
    Gathers r N D s s'' := (h.trans h').congr fun _ => (or_false _).symm.to_iff

/-- What else a run does to the state, and what the state was before, does not
matter. -/
theorem reframe {t t' : CompileState} (h : Gathers r N D s s')
    (hgiven : t.given = s.given) (hmembers : t.unionMembers = s.unionMembers)
    (hkeeps : ∀ id, s.Keeps id → t.Keeps id) (hgiven' : t'.given = s'.given)
    (hmembers' : t'.unionMembers = s'.unionMembers)
    (hkeeps' : ∀ id, t'.Keeps id → s'.Keeps id) :
    Gathers r N D t t' where
  stands {id d} hid huse := (h.stands (hkeeps' id hid) huse).transfer fun d' _ hd' => by
    rw [Holds, hgiven', hmembers']
    exact hd'
  nodes {id} hid := (h.nodes (hkeeps' id hid)).imp_left (hkeeps id)
  given ht := hgiven'.symm ▸ h.given (hgiven ▸ ht)
  members ht := by
    rw [hmembers', hmembers]
    exact h.members (hgiven ▸ ht)
  holds hd := by
    rw [Holds, hgiven', hmembers']
    exact h.holds hd
  origin ht := by
    rw [hgiven]
    exact h.origin (hgiven' ▸ ht)

/-- A node may be kept when what it uses is gathered. -/
theorem keep {id : NodeId} (h : Gathers r N (r.Uses id) s s') (hid : N id)
    (hgiven : s''.given = s'.given) (hmembers : s''.unionMembers = s'.unionMembers)
    (hkeeps : ∀ other, s''.Keeps other → s'.Keeps other ∨ other = id) :
    Gathers r N (fun _ => False) s s'' where
  stands {other d} hother huse := by
    have hsame : ∀ d', s'.Holds d' → s''.Holds d' := by
      intro d' hd'
      rw [Holds, hgiven, hmembers]
      exact hd'
    rcases hkeeps other hother with hold | rfl
    · exact (h.stands hold huse).transfer fun d' _ => hsame d'
    · exact Or.inl (hsame d (h.holds huse))
  nodes {other} hother := by
    rcases hkeeps other hother with hold | rfl
    · exact h.nodes hold
    · exact Or.inr hid
  given ht := hgiven.symm ▸ h.given ht
  members ht := by
    rw [hmembers]
    exact h.members ht
  holds := False.elim
  origin ht := by
    rcases h.origin (hgiven ▸ ht) with ht | ⟨g, huse, hg⟩
    · exact Or.inl ht
    · exact Or.inr ⟨g, Or.inr (huse.elim (fun huse => ⟨id, hid, huse⟩) fun h => h), hg⟩

/-- A scalar or an enum may be kept under a free name. No union has it, so the
unions are as they were. -/
theorem keepLeaf {g : GivenType} {t : CompiledType} (hs : s.UnionsStand r)
    (hfree : s.given.find? t.name = none) (hname : g.name = t.name) (hg : g.Defines t)
    (hleaf : g.IsLeaf) :
    Gathers r N (· = g) s { s with given := s.given.insert t.name t } where
  stands {id d} hid huse := by
    have hstands := hs hid huse
    obtain ⟨u, hu⟩ := hstands.find?
    refine hstands.transfer fun d' hd' hholds => ⟨?_, hholds.2⟩
    rw [OrderedMap.find?_insert, if_neg (hd'.symm ▸ OrderedMap.ne_of_free hfree hu)]
    exact hholds.1
  nodes := Or.inl
  given {name t'} ht := by
    rw [OrderedMap.find?_insert, if_neg (OrderedMap.ne_of_free hfree ht)]
    exact ht
  members _ := rfl
  holds {d} hd := by
    rw [← hd] at hleaf
    exact hleaf.elim
  origin {name t'} ht := by
    rw [OrderedMap.find?_insert] at ht
    split at ht
    · next heq =>
        cases ht
        exact Or.inr ⟨g, Or.inl rfl, hname.trans heq.symm, hg⟩
    · exact Or.inl ht

/-- A union may be kept under a name that was free when its members were not
compiled yet. Whoever uses the name was kept on the way, so the members lead
there. -/
theorem keepUnion {d : UnionDef} {u : CompiledUnion} (hs : s.UnionsStand r)
    (h : Gathers r (d.LeadsTo r) (fun _ => False) s s')
    (hfree : s.given.find? d.name = none) (hN : ∀ id, d.LeadsTo r id → N id) :
    Gathers r N (· = .union d) s
      { s' with
        given := s'.given.insert d.name (.union u)
        unionMembers := s'.unionMembers.insert d.name d.members } where
  stands {id d'} hid huse := by
    by_cases heq : d'.name = d.name
    · rcases h.nodes hid with hold | hnew
      · obtain ⟨u', hu'⟩ := (hs hold huse).find?
        exact absurd heq (OrderedMap.ne_of_free hfree hu')
      · refine Or.inr ⟨d, heq.symm, ?_, hnew⟩
        simp [Holds, OrderedMap.find?_insert]
    · refine (h.stands hid huse).transfer fun d'' hd'' hholds => ?_
      have hne : d''.name ≠ d.name := hd''.symm ▸ heq
      simp only [Holds, OrderedMap.find?_insert, if_neg hne]
      exact hholds
  nodes {id} hid := (h.nodes hid).imp_right (hN id)
  given {name t} ht := by
    rw [OrderedMap.find?_insert, if_neg (OrderedMap.ne_of_free hfree ht)]
    exact h.given ht
  members {name t} ht := by
    rw [OrderedMap.find?_insert, if_neg (OrderedMap.ne_of_free hfree ht)]
    exact h.members ht
  holds {d'} hd' := by
    cases hd'
    simp [Holds, OrderedMap.find?_insert]
  origin {name t} ht := by
    rw [OrderedMap.find?_insert] at ht
    split at ht
    · next heq =>
        cases ht
        exact Or.inr ⟨.union d, Or.inl rfl, heq.symm, u, rfl⟩
    · rcases h.origin ht with ht | ⟨g, huse, hg⟩
      · exact Or.inl ht
      · obtain ⟨id, hid, huse⟩ := huse.resolve_left False.elim
        exact Or.inr ⟨g, Or.inr ⟨id, hN id hid, huse⟩, hg⟩

end Gathers

end CompileState

namespace Compile

open CompileState

variable {N : NodeId → Prop} {D D' : GivenType → Prop} {α β : Type}
  {enter : NodeId → CompileM Unit}

/-! ## Computations -/

/-- Every run of `x` that answers gathers. -/
def Gather (r : Registry) (N : NodeId → Prop) (D : GivenType → Prop) (x : CompileM α) : Prop :=
  ∀ s s' a, s.UnionsStand r → x s = .ok a s' → Gathers r N D s s'

namespace Gather

theorem congr {x : CompileM α} (h : Gather r N D x) (hD : ∀ g, D' g ↔ D g) :
    Gather r N D' x := fun s s' a hs hrun => (h s s' a hs hrun).congr hD

theorem pure (a : α) : Gather r N (fun _ => False) (Pure.pure a) := by
  intro s s' _ hs h
  obtain ⟨-, rfl⟩ := pure_eq_ok.mp h
  exact .refl hs fun _ => False.elim

theorem throw {e : SchemaError} : Gather r N D (MonadExcept.throw e : CompileM α) :=
  fun _ _ _ _ h => absurd h throw_ne_ok

theorem get : Gather r N (fun _ => False) (MonadState.get : CompileM CompileState) := by
  intro s s' _ hs h
  obtain ⟨-, rfl⟩ := get_eq_ok.mp h
  exact .refl hs fun _ => False.elim

/-- A change to what is not given and not a kept node does not matter. -/
theorem modify {f : CompileState → CompileState} (hgiven : ∀ s, (f s).given = s.given)
    (hmembers : ∀ s, (f s).unionMembers = s.unionMembers)
    (hkeeps : ∀ s id, (f s).Keeps id → s.Keeps id) :
    Gather r N (fun _ => False) (modify f : CompileM Unit) := by
  intro s s' _ hs h
  obtain rfl := modify_eq_ok.mp h
  exact (Gathers.refl hs fun _ => False.elim).reframe rfl rfl (fun _ h => h) (hgiven s)
    (hmembers s) (hkeeps s)

theorem bind {x : CompileM α} {f : α → CompileM β} (hx : Gather r N D x)
    (hf : ∀ a, Gather r N D' (f a)) : Gather r N (fun g => D g ∨ D' g) (x >>= f) := by
  intro s s' b hs h
  obtain ⟨a, s₁, hrun, h⟩ := bind_eq_ok.mp h
  have h₁ := hx s s₁ a hs hrun
  exact h₁.trans (hf a s₁ s' b h₁.stands h)

/-- What follows uses nothing. -/
theorem followed {x : CompileM α} {f : α → CompileM β} (hx : Gather r N D x)
    (hf : ∀ a, Gather r N (fun _ => False) (f a)) : Gather r N D (x >>= f) :=
  (hx.bind hf).congr fun _ => (or_false _).symm.to_iff

/-- What goes before uses nothing. -/
theorem before {x : CompileM α} {f : α → CompileM β} (hx : Gather r N (fun _ => False) x)
    (hf : ∀ a, Gather r N D (f a)) : Gather r N D (x >>= f) :=
  (hx.bind hf).congr fun _ => (false_or _).symm.to_iff

theorem throw_bind {e : SchemaError} {f : α → CompileM β} :
    Gather r N D (MonadExcept.throw e >>= f) := by
  intro s s' b _ h
  obtain ⟨_, _, hthrow, -⟩ := bind_eq_ok.mp h
  exact absurd hthrow throw_ne_ok

theorem lift_bind {x : Except SchemaError α} {f : α → CompileM β}
    (hf : ∀ a, x = .ok a → Gather r N D (f a)) : Gather r N D (Compile.lift x >>= f) := by
  intro s s' b hs h
  obtain ⟨a, s₁, hrun, h⟩ := bind_eq_ok.mp h
  obtain ⟨ha, rfl⟩ := lift_eq_ok.mp hrun
  exact hf a ha s s' b hs h

theorem map {x : CompileM α} (f : α → β) (hx : Gather r N D x) : Gather r N D (f <$> x) := by
  intro s s' b hs h
  obtain ⟨a, hrun, -⟩ := map_eq_ok.mp h
  exact hx s s' a hs hrun

theorem discard {x : CompileM α} (hx : Gather r N D x) : Gather r N D (Functor.discard x) :=
  hx.map _

/-- The marks do not matter. -/
theorem inProgress {x : CompileM α} (id : NodeId) (hx : Gather r N D x) :
    Gather r N D (Compile.inProgress id x) := by
  intro s s' a hs h
  obtain ⟨s₁, hrun, rfl⟩ := inProgress_eq_ok.mp h
  have hmarked : UnionsStand r { s with inProgress := s.inProgress.insert id } := hs
  exact (hx _ s₁ a hmarked hrun).reframe rfl rfl (fun _ h => h) rfl rfl fun _ h => h

theorem forM {f : α → CompileM PUnit} {l : List α}
    (hf : ∀ a ∈ l, Gather r N (fun _ => False) (f a)) :
    Gather r N (fun _ => False) (l.forM f) := by
  induction l with
  | nil => exact pure _
  | cons a rest ih =>
      exact (hf a (by simp)).before fun _ => ih fun b hb => hf b (by simp [hb])

end Gather

end Compile

end SchemaGraph
