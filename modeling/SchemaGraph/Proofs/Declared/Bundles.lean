import SchemaGraph.Proofs.Declared.Reachability

/-!
# Bundles in a circle

The walk remembers types and nothing else, so whether it comes to an end depends on what
lies between types: fields, implements edges, input fields and argument bundles. A field
leads to types and bundles, an edge to an interface. An input field leads to what its host
type stands for, and that may be a bundle, although the compiler has no use for such a
field. So bundles can lead to bundles, by way of their input fields, and nothing else that
is not remembered can lead back to itself.

From roots that lead to such a circle the walk never answers. If nothing that it meets
before is broken it does not fail either.
-/

set_option autoImplicit false

namespace SchemaGraph

namespace Registry

variable {r : Registry} {roots : List NodeId}

/-- The walk without a bound on its depth comes to an end. -/
def WalkEnds (r : Registry) (roots : List NodeId) : Prop :=
  ∃ depth, Ends (r.unreachableWithin depth roots)

/-- An input field of the one bundle is of the other. -/
def Bundles (r : Registry) (a b : NodeId) : Prop :=
  ∃ n i m t, r.node a = .args n ∧ i ∈ n.inputFields ∧ r.node i = .inputField m ∧
    m.decl.type? = some t ∧ t.LeadsTo r b ∧ ∃ c, r.node b = .args c

/-- The roots lead to a bundle that leads back to itself by way of bundles. -/
def Tangled (r : Registry) (roots : List NodeId) : Prop :=
  ∃ a, r.ReachableFrom roots a ∧ Relation.TransGen r.Bundles a a

/-! ## Loops are circles of bundles -/

/-- A host type stands for a type or for a bundle. -/
theorem WellFormed.args_of_getNode (hr : r.WellFormed) {t : HostType} {id : NodeId}
    (h : r.getNode t = .ok id) (hid : (r.node id).isSchemaType = false) :
    ∃ n, r.node id = .args n := by
  rcases getNode_eq_ok.mp h with htype | ⟨-, hargs⟩
  · rw [(hr.declared htype).1] at hid
    cases hid
  · exact hr.bundled hargs

theorem WellFormed.args_of_leadsTo (hr : r.WellFormed) {t : TypeExpr} {id : NodeId}
    (h : t.LeadsTo r id) (hid : (r.node id).isSchemaType = false) :
    ∃ n, r.node id = .args n := by
  induction t with
  | ref t => exact hr.args_of_getNode h hid
  | scalar _ | enum _ => exact h.elim
  | union d =>
      obtain ⟨t, -, ht⟩ := h
      exact hr.args_of_getNode ht hid
  | list item ih => exact ih h
  | nullable inner ih => exact ih h

theorem refers_inputField {id other : NodeId} {m : InputFieldNode}
    (hm : r.node id = .inputField m) (h : r.Refers id other) :
    ∃ t, m.decl.type? = some t ∧ t.LeadsTo r other := by
  rw [Refers, hm] at h
  exact h

theorem onward_of_bundles {a b : NodeId} (h : r.Bundles a b) :
    Relation.TransGen r.Onward a b := by
  obtain ⟨n, i, m, t, hn, hi, hm, htype, ht, -⟩ := h
  have hfirst : r.Onward a i := by
    refine ⟨by rw [hn]; rfl, ?_⟩
    rw [Refers, hn]
    exact hi
  have hsecond : r.Onward i b := by
    refine ⟨by rw [hm]; rfl, ?_⟩
    rw [Refers, hm]
    exact ⟨t, htype, ht⟩
  exact .head hfirst (.single hsecond)

namespace Tidy

variable (hr : r.Tidy) {a b x y : NodeId}
include hr

theorem inputField_of_mem {n : ArgsNode} (hn : r.node a = .args n) {i : NodeId}
    (hi : i ∈ n.inputFields) : ∃ m, r.node i = .inputField m := by
  have hmem : i ∈ r.members (.heldBy a .inputField) := by
    rw [members, hn]
    exact hi
  exact Node.exists_of_kind_inputField (hr.fits hmem).admits

/-- What is not remembered and is met on the way from something else that is not is an
argument bundle or an input field. -/
theorem kind_of_onward (h : r.Onward x y) (hy : (r.node y).isSchemaType = false) :
    (∃ n, r.node y = .args n) ∨ ∃ m, r.node y = .inputField m := by
  obtain ⟨hx, href⟩ := h
  unfold Refers at href
  cases hn : r.node x with
  | object n | interface n | inputObject n =>
      rw [hn] at hx
      cases hx
  | args n =>
      rw [hn] at href
      exact Or.inr (hr.inputField_of_mem hn href)
  | field n =>
      rw [hn] at href
      rcases href with ⟨t, -, ht⟩ | ⟨t, -, ht⟩
      · exact Or.inl (hr.wellFormed.args_of_leadsTo ht hy)
      · exact Or.inl (hr.wellFormed.bundled ht)
  | inputField n =>
      rw [hn] at href
      obtain ⟨t, -, ht⟩ := href
      exact Or.inl (hr.wellFormed.args_of_leadsTo ht hy)
  | implement n =>
      rw [hn] at href
      have htarget : r.target? x = some n.interface := by
        rw [target?, hn]
        rfl
      have hinterface := Node.isSchemaType_of_isInterface (hr.wellFormed.targets htarget)
      rw [href, hinterface] at hy
      cases hy
  | arg n =>
      rw [hn] at href
      exact href.elim

/-- Between bundles the walk comes through bundles and their input fields. -/
theorem bundles_of_onward {c : ArgsNode} (hb : r.node b = .args c)
    (h : Relation.TransGen r.Onward x b) :
    (∀ n, r.node x = .args n → Relation.TransGen r.Bundles x b) ∧
      ∀ m, r.node x = .inputField m → ∃ t y, m.decl.type? = some t ∧ t.LeadsTo r y ∧
        (∃ c, r.node y = .args c) ∧ Relation.ReflTransGen r.Bundles y b := by
  induction h using Relation.TransGen.head_induction_on with
  | single honward =>
      constructor
      · intro n hn
        have hmem := honward.2
        rw [Refers, hn] at hmem
        obtain ⟨m, hm⟩ := hr.inputField_of_mem hn hmem
        rw [hm] at hb
        cases hb
      · intro m hm
        obtain ⟨t, htype, ht⟩ := refers_inputField hm honward.2
        exact ⟨t, b, htype, ht, ⟨c, hb⟩, .refl⟩
  | @head x z honward hrest ih =>
      have hz : (r.node z).isSchemaType = false := by
        obtain ⟨_, hstep, -⟩ := Relation.TransGen.head'_iff.mp hrest
        exact hstep.1
      constructor
      · intro n hn
        have hmem := honward.2
        rw [Refers, hn] at hmem
        obtain ⟨m, hm⟩ := hr.inputField_of_mem hn hmem
        obtain ⟨t, y, htype, ht, hy, hback⟩ := ih.2 m hm
        exact .head' ⟨n, z, m, t, hn, hmem, hm, htype, ht, hy⟩ hback
      · intro m hm
        obtain ⟨t, htype, ht⟩ := refers_inputField hm honward.2
        obtain ⟨n, hn⟩ := hr.wellFormed.args_of_leadsTo ht hz
        exact ⟨t, z, htype, ht, ⟨n, hn⟩, (ih.1 n hn).to_reflTransGen⟩

/-- The walk is in a loop exactly where bundles are in a circle. -/
theorem loops_iff : r.Loops roots ↔ r.Tangled roots := by
  constructor
  · rintro ⟨id, hreach, hloop⟩
    obtain ⟨z, honward, hback⟩ := Relation.TransGen.head'_iff.mp hloop
    obtain ⟨p, -, hlast⟩ := Relation.TransGen.tail'_iff.mp hloop
    rcases hr.kind_of_onward hlast honward.1 with ⟨n, hn⟩ | ⟨m, hm⟩
    · exact ⟨id, hreach, (hr.bundles_of_onward hn hloop).1 n hn⟩
    · -- The next node is a bundle, and in the same loop.
      obtain ⟨t, -, ht⟩ := refers_inputField hm honward.2
      have hround : Relation.TransGen r.Onward z z := Relation.TransGen.tail' hback honward
      obtain ⟨_, hstep, -⟩ := Relation.TransGen.head'_iff.mp hround
      obtain ⟨n, hn⟩ := hr.wellFormed.args_of_leadsTo ht hstep.1
      obtain ⟨root, hroot, hpath⟩ := hreach
      exact ⟨z, ⟨root, hroot, hpath.tail honward.2⟩, (hr.bundles_of_onward hn hround).1 n hn⟩
  · rintro ⟨a, hreach, hcircle⟩
    exact ⟨a, hreach, Relation.TransGen.lift' id (fun _ _ => onward_of_bundles) a a hcircle⟩

end Tidy

/-! ## Walks without end -/

/-- What has been covered is in no loop. -/
theorem Covered.not_loop {seen : Seen} {id : NodeId} (h : r.Covered seen id) :
    ¬ Relation.TransGen r.Onward id id := by
  induction h with
  | type htype _ =>
      intro hloop
      obtain ⟨_, ⟨hother, -⟩, -⟩ := Relation.TransGen.head'_iff.mp hloop
      rw [htype] at hother
      cases hother
  | other _ _ ih =>
      intro hloop
      obtain ⟨i, honward, hback⟩ := Relation.TransGen.head'_iff.mp hloop
      exact ih i honward.2 (Relation.TransGen.tail' hback honward)

/-- From roots that lead to a loop the walk never answers. -/
theorem not_ok_of_loops (hr : r.WellFormed) (h : r.Loops roots) (depth : Nat)
    (ids : List NodeId) : r.unreachableWithin depth roots ≠ .ok ids := by
  intro hok
  obtain ⟨seen, hseen, -⟩ := Meaning.map_eq_ok.mp hok
  obtain ⟨id, ⟨root, hroot, hpath⟩, hloop⟩ := h
  have hwalk := (walk_visits hr depth).all roots
  have hclosed : r.Closed seen [] := hwalk.closes hseen fun _ _ hmem => nomatch hmem
  exact ((hwalk.covers hseen root hroot).reachable hclosed hpath).not_loop hloop

theorem ends_unreachableWithin {depth : Nat} : Ends (r.unreachableWithin depth roots) ↔
    Ends (roots.foldlM (fun seen id => r.walk depth id seen) []) := by
  rw [unreachableWithin]
  cases roots.foldlM (fun seen id => r.walk depth id seen) [] with
  | ok seen => exact ⟨fun _ => .ok _, fun _ => .ok _⟩
  | error e => exact ⟨fun h => .error (h e rfl), fun h => .error (h e rfl)⟩

/-- The depth that the walk is allowed suffices wherever one does. -/
theorem WellFormed.walkEnds_iff (hr : r.WellFormed) :
    r.WalkEnds roots ↔ Ends (r.unreachable roots) := by
  constructor
  · rintro ⟨d, hends⟩
    rw [unreachable_eq]
    rw [ends_unreachableWithin] at hends ⊢
    intro e hrun
    by_contra hgiven
    obtain ⟨root, seen, -, hgiven, hwaits⟩ :=
      (Made.all roots).blame hr (Bool.not_eq_false _ ▸ hgiven) hrun
    exact (hgiven.endless hr (Nat.le_refl _)).2 d (hwaits.first d hends)
  · exact fun hends => ⟨r.walkDepth, hends⟩

/-- A walk that fails was given up on the way from one of the roots, or has met something
broken. -/
theorem WellFormed.unreachableWithin_error (hr : r.WellFormed) {depth : Nat} {e : SchemaError}
    (h : r.unreachableWithin depth roots = .error e) :
    (∃ root ∈ roots, ∃ seen, GivenUp (r.walk depth) root seen e) ∨
      ∃ id, r.ReachableFrom roots id ∧ r.Broken id e := by
  rw [unreachableWithin] at h
  cases hseen : roots.foldlM (fun seen id => r.walk depth id seen) [] with
  | ok seen =>
      rw [hseen] at h
      cases h
  | error e' =>
      rw [hseen] at h
      cases h
      rcases ((walk_visits hr depth).all roots).fails hseen with
        ⟨root, seen, hroot, -, hgiven⟩ | hfalse | ⟨root, id, hroot, hpath, hbroken⟩
      · exact Or.inl ⟨root, hroot, seen, hgiven⟩
      · exact hfalse.elim
      · exact Or.inr ⟨id, ⟨root, hroot, hpath⟩, hbroken⟩

/-- With a circle of bundles ahead the walk ends only if it fails before, over something
broken; without one it always ends. -/
theorem Reached.ends_unreachable_iff (hr : r.Reached) : Ends (r.unreachable roots) ↔
    ¬ r.Tangled roots ∨
      ∃ id e, r.unreachable roots = .error e ∧ r.ReachableFrom roots id ∧ r.Broken id e := by
  have hwf := hr.wellFormed
  rw [unreachable_eq]
  constructor
  · intro hends
    by_cases htangled : r.Tangled roots
    · right
      cases hrun : r.unreachableWithin r.walkDepth roots with
      | ok ids => exact absurd hrun (not_ok_of_loops hwf (hr.tidy.loops_iff.mpr htangled) _ ids)
      | error e =>
          rcases hwf.unreachableWithin_error hrun with
            ⟨_, -, _, hendless, -⟩ | ⟨id, hreach, hbroken⟩
          · rw [hends e hrun] at hendless
            cases hendless
          · exact ⟨id, e, rfl, hreach, hbroken⟩
    · exact Or.inl htangled
  · rintro (hnot | ⟨id, e, hrun, -, hbroken⟩)
    · intro e hrun
      rcases hwf.unreachableWithin_error hrun with ⟨root, hroot, seen, hgiven⟩ | ⟨id, -, hbroken⟩
      · have hloops := loops_of_givenUp hwf (Nat.le_refl _) hroot hgiven
        exact absurd (hr.tidy.loops_iff.mp hloops) hnot
      · exact hbroken.ends
    · rw [hrun]
      exact .error hbroken.ends

/-- A walk that comes to its end at one depth comes to it at every greater one, and the
depth that is allowed suffices if any does. The walk comes to its end exactly when the
roots lead to no circle of bundles, or when it fails before it gets into one, over
something broken. It never answers if there is such a circle. -/
theorem Reached.walkEnds_exact (hr : r.Reached) (roots : List NodeId) :
    (∀ depth, Ends (r.unreachableWithin depth roots) → ∀ more,
      r.unreachableWithin (depth + more) roots = r.unreachableWithin depth roots) ∧
    (r.WalkEnds roots ↔ Ends (r.unreachable roots)) ∧
    (r.WalkEnds roots ↔ ¬ r.Tangled roots ∨
      ∃ id e, r.unreachable roots = .error e ∧ r.ReachableFrom roots id ∧ r.Broken id e) ∧
    (r.Tangled roots → ∀ depth ids, r.unreachableWithin depth roots ≠ .ok ids) := by
  have hends : r.WalkEnds roots ↔ Ends (r.unreachable roots) := hr.wellFormed.walkEnds_iff
  refine ⟨fun depth hdepth more => ?_, hends, hends.trans hr.ends_unreachable_iff,
    fun htangled => not_ok_of_loops hr.wellFormed (hr.tidy.loops_iff.mpr htangled)⟩
  have hroots := ends_unreachableWithin.mp hdepth
  rw [unreachableWithin, unreachableWithin]
  exact congrArg _ ((Made.all roots).stable (walk_stable more) hroots)

end Registry

/-! ### Pages

The arguments of a page are said to have pages as arguments. -/

namespace Pages

def page : HostType := ⟨"PageArgs"⟩

def query : HostType := ⟨"Query"⟩

def user : HostType := ⟨"User"⟩

/-- The bundle is node 1, the types are nodes 3 and 4. -/
def registry : Registry := .ofDeclarations [
  .inputField page { name := "more", type? := some (.nullable (.ref page)) },
  .args ⟨page, fun j => .ok ⟨page, j, []⟩⟩,
  .field query { name := "users", type? := some (.list (.ref user)), args? := some page },
  .object query {},
  .object user {}]

/-- From the user the walk comes to an end: it leads nowhere. -/
theorem user_ends : registry.WalkEnds [4] ∧ registry.unreachable [4] = .ok [3] := by
  obtain ⟨-, -, hends, -⟩ :=
    Registry.Reached.walkEnds_exact (Registry.Reached.ofDeclarations _ : registry.Reached) [4]
  refine ⟨hends.mpr (Or.inl ?_), rfl⟩
  rintro ⟨a, ⟨root, hroot, hpath⟩, hcircle⟩
  obtain rfl := List.mem_singleton.mp hroot
  rcases Relation.ReflTransGen.cases_head hpath with rfl | ⟨other, href, -⟩
  · obtain ⟨_, ⟨n, _, _, _, hn, -⟩, -⟩ := Relation.TransGen.head'_iff.mp hcircle
    cases hn
  · rcases href with hmem | hmem | ⟨_, hnone, -⟩
    · cases hmem
    · cases hmem
    · cases hnone

/-- From the query it does not, however deep it may go. -/
theorem query_endless : registry.Reached ∧ (registry.node 3).isObject = true ∧
    ¬ registry.WalkEnds [3] ∧ ∀ depth, ¬ Ends (registry.unreachableWithin depth [3]) := by
  have hr : registry.Reached := .ofDeclarations _
  have hrun : registry.unreachable [3] = .error (.endless "PageArgs") := rfl
  have hendless : ¬ registry.WalkEnds [3] := by
    rw [hr.wellFormed.walkEnds_iff, hrun]
    exact not_ends_endless _
  exact ⟨hr, rfl, hendless, fun depth hends => hendless ⟨depth, hends⟩⟩

end Pages

end SchemaGraph
