import SchemaGraph.Proofs.Declared.Walk

/-!
# Walks and their depth

A walk is allowed to go to a given depth, and is given up there. What it stands for is a
walk with no such limit, and for two reasons nothing is lost. A walk that comes to its end
comes to the same end if it is allowed to go deeper. And beyond a certain depth a walk is
given up only if it would be given up at any depth: it has come to a node for the second
time without having met a type in between. What it had walked by then it walks again
without effect, so nothing keeps it from coming to the node a third time.

Whether a walk comes to its end is said of all depths at once by `Needs`: there can be no
end to the one walk before there is one, at a smaller depth, to the other.
-/

set_option autoImplicit false

namespace SchemaGraph

theorem Ends.of_bind {α β : Type} {x : Except SchemaError α} {f : α → Except SchemaError β}
    (h : Ends (x >>= f)) : Ends x := by
  rintro e rfl
  exact h e rfl

theorem not_ends_endless {α : Type} (name : String) :
    ¬ Ends (.error (.endless name) : Except SchemaError α) :=
  fun h => nomatch h _ rfl

namespace Registry

variable {r : Registry} {id : NodeId} {S : NodeId → Prop} {F : SchemaError → Prop}
  {x : (NodeId → Walk) → Walk} {seen seen' : Seen} {depth : Nat} {e : SchemaError}

/-! ## Going deeper -/

/-- If single walks come to the same end, so do those that are made of them. -/
theorem Made.stable (hx : Made S F x) {enter enter' : NodeId → Walk}
    (h : ∀ id seen, Ends (enter id seen) → enter' id seen = enter id seen) :
    ∀ {seen}, Ends (x enter seen) → x enter' seen = x enter seen := by
  induction hx with
  | nowhere _ | fail _ _ => exact fun _ => rfl
  | enter id => exact h id _
  | @seq S S' F F' x y _ _ ihx ihy =>
      intro seen hends
      show x enter' seen >>= y enter' = x enter seen >>= y enter
      rw [ihx hends.of_bind]
      change Ends (x enter seen >>= y enter) at hends
      cases hrun : x enter seen with
      | ok seen₁ =>
          rw [hrun] at hends
          exact ihy hends
      | error e => rfl
  | imp _ _ _ ih => exact ih

/-- A walk that comes to its end does not depend on the depth it is allowed. -/
theorem walk_stable (more : Nat) : ∀ {depth : Nat} (id : NodeId) (seen : Seen),
    Ends (r.walk depth id seen) → r.walk (depth + more) id seen = r.walk depth id seen := by
  intro depth
  induction depth with
  | zero => exact fun id seen hends => absurd hends (not_ends_endless _)
  | succ depth ih =>
      intro id seen hends
      have hrefs : ∀ {seen}, Ends (r.walkReferences (r.walk depth) id seen) →
          r.walkReferences (r.walk (depth + more)) id seen
            = r.walkReferences (r.walk depth) id seen := (walkReferences_made r id).stable ih
      rw [Nat.add_right_comm]
      cases hid : (r.node id).isSchemaType with
      | true =>
          rw [walk_of_type hid] at hends ⊢
          rw [walk_of_type hid]
          split
          · rfl
          · next hnew =>
              rw [if_neg hnew] at hends
              exact hrefs hends
      | false =>
          rw [walk_of_not_type hid] at hends ⊢
          rw [walk_of_not_type hid]
          exact hrefs hends

/-- Two depths that both suffice make no difference. -/
theorem Made.agree (hx : Made S F x) {d d' : Nat} (h : Ends (x (r.walk d) seen))
    (h' : Ends (x (r.walk d') seen)) : x (r.walk d) seen = x (r.walk d') seen := by
  rcases Nat.le_total d d' with hle | hle
  · obtain ⟨more, rfl⟩ := Nat.exists_eq_add_of_le hle
    exact (hx.stable (walk_stable more) h).symm
  · obtain ⟨more, rfl⟩ := Nat.exists_eq_add_of_le hle
    exact hx.stable (walk_stable more) h'

/-! ## Walking again -/

/-- What has been walked is walked again without effect. -/
def Settles (enter : NodeId → Walk) : Prop :=
  ∀ {id seen seen'}, enter id seen = .ok seen' → ∀ {more}, seen' ⊆ more →
    enter id more = .ok more

theorem Made.settles (hx : Made S F x) {enter : NodeId → Walk} (henter : r.Enters enter)
    (h : Settles enter) : ∀ {seen seen'}, x enter seen = .ok seen' → ∀ {more}, seen' ⊆ more →
      x enter more = .ok more := by
  induction hx with
  | nowhere _ => exact fun _ _ _ => rfl
  | fail _ _ => exact fun hrun => nomatch hrun
  | enter id => exact h
  | @seq S S' F F' x y _ hy ihx ihy =>
      intro seen seen' hrun more hsub
      obtain ⟨seen₁, hfirst, hsecond⟩ := Meaning.bind_eq_ok.mp hrun
      have hkeeps : seen₁ ⊆ seen' := (hy.visits henter).keeps hsecond
      show x enter more >>= y enter = .ok more
      rw [ihx hfirst (List.Subset.trans hkeeps hsub)]
      exact ihy hsecond hsub
  | imp _ _ _ ih => exact ih

theorem walk_settles (hr : r.WellFormed) (depth : Nat) : Settles (r.walk depth) := by
  induction depth with
  | zero => exact fun hrun => nomatch hrun
  | succ depth ih =>
      intro id seen seen' hrun more hsub
      have hrefs := walkReferences_made r id
      have henter := walk_visits hr depth
      cases hid : (r.node id).isSchemaType with
      | true =>
          have hmem : (r.node id).type ∈ seen' := by
            rw [walk_of_type hid] at hrun
            split at hrun
            · next hold =>
                cases hrun
                exact List.contains_iff_mem.mp hold
            · exact (hrefs.visits henter).keeps hrun List.mem_cons_self
          rw [walk_of_type hid, if_pos (List.contains_iff_mem.mpr (hsub hmem))]
      | false =>
          rw [walk_of_not_type hid] at hrun ⊢
          exact hrefs.settles henter ih hrun hsub

/-! ## Walks that wait for others -/

/-- There is no end to a walk before there is one to a walk from `i`: neither the first
time, nor when as much has been met as there had been when it came to that. -/
structure WaitsFor (r : Registry) (x : (NodeId → Walk) → Walk) (seen : Seen) (i : NodeId)
    (seen' : Seen) : Prop where
  subset : seen ⊆ seen'
  first : ∀ d, Ends (x (r.walk d) seen) → Ends (r.walk d i seen')
  again : ∀ {more}, seen' ⊆ more → ∀ d, Ends (x (r.walk d) more) → Ends (r.walk d i more)

/-- A walk that is given up was waiting for a walk that is given up. -/
theorem Made.blame (hx : Made S F x) (hr : r.WellFormed) (he : e.isEndless = true) :
    ∀ {seen}, x (r.walk depth) seen = .error e →
      ∃ i seen', S i ∧ GivenUp (r.walk depth) i seen' e ∧ r.WaitsFor x seen i seen' := by
  induction hx with
  | nowhere _ => exact fun hrun => nomatch hrun
  | fail _ hends =>
      intro seen hrun
      cases hrun
      rw [he] at hends
      cases hends
  | enter id =>
      exact fun hrun => ⟨id, _, rfl, ⟨he, hrun⟩, List.Subset.refl _, fun _ h => h, fun _ _ h => h⟩
  | @seq S S' F F' x y hx hy ihx ihy =>
      intro seen hrun
      change (x (r.walk depth) seen >>= y (r.walk depth)) = .error e at hrun
      cases hfirst : x (r.walk depth) seen with
      | error e' =>
          rw [hfirst] at hrun
          cases hrun
          obtain ⟨i, seen', hi, hgiven, hwaits⟩ := ihx hfirst
          exact ⟨i, seen', Or.inl hi, hgiven, hwaits.subset,
            fun d h => hwaits.first d h.of_bind, fun hsub d h => hwaits.again hsub d h.of_bind⟩
      | ok seen₁ =>
          rw [hfirst] at hrun
          obtain ⟨i, seen', hi, hgiven, hwaits⟩ := ihy hrun
          have hkeeps : seen ⊆ seen₁ := (hx.visits (walk_visits hr depth)).keeps hfirst
          -- The first walk comes to its end at this depth, and so to no other at any other.
          have hagree : ∀ {seen seen₁ d}, x (r.walk depth) seen = .ok seen₁ →
              Ends (x (r.walk d) seen >>= y (r.walk d)) → Ends (y (r.walk d) seen₁) := by
            intro seen seen₁ d hok h
            have hends : Ends (x (r.walk depth) seen) := by rw [hok]; exact .ok _
            rw [hx.agree h.of_bind hends, hok] at h
            exact h
          refine ⟨i, seen', Or.inr hi, hgiven, List.Subset.trans hkeeps hwaits.subset,
            fun d h => hwaits.first d (hagree hfirst h), fun {more} hsub d h => ?_⟩
          have hsettled := hx.settles (walk_visits hr depth) (walk_settles hr depth) hfirst
            (List.Subset.trans hwaits.subset hsub)
          exact hwaits.again hsub d (hagree hsettled h)
  | imp _ hS _ ih =>
      intro seen hrun
      obtain ⟨i, seen', hi, hrest⟩ := ih hrun
      exact ⟨i, seen', (hS i).mp hi, hrest⟩

/-- There is no end to the walk from one node before there is one to that from the other,
at a smaller depth. -/
def Needs (r : Registry) (a b : NodeId × Seen) : Prop :=
  ∀ d, Ends (r.walk (d + 1) a.1 a.2) → Ends (r.walk d b.1 b.2)

theorem ends_of_needs {a b : NodeId × Seen} (h : Relation.TransGen r.Needs a b) :
    ∀ {d}, Ends (r.walk d a.1 a.2) → ∃ d' < d, Ends (r.walk d' b.1 b.2) := by
  have hstep : ∀ {a b : NodeId × Seen}, r.Needs a b → ∀ {d}, Ends (r.walk d a.1 a.2) →
      ∃ d' < d, Ends (r.walk d' b.1 b.2) := by
    intro a b hneeds d hends
    cases d with
    | zero => exact absurd hends (not_ends_endless _)
    | succ d => exact ⟨d, Nat.lt_succ_self d, hneeds d hends⟩
  induction h with
  | single hneeds => exact hstep hneeds
  | tail _ hneeds ih =>
      intro d hends
      obtain ⟨d₁, hlt₁, h₁⟩ := ih hends
      obtain ⟨d₂, hlt₂, h₂⟩ := hstep hneeds h₁
      exact ⟨d₂, Nat.lt_trans hlt₂ hlt₁, h₂⟩

/-- A walk that needs itself has no end. -/
theorem not_ends_of_needs {a : NodeId × Seen} (h : Relation.TransGen r.Needs a a) (d : Nat) :
    ¬ Ends (r.walk d a.1 a.2) := by
  induction d using Nat.strong_induction_on with
  | _ d ih =>
      intro hends
      obtain ⟨d', hlt, hends'⟩ := ends_of_needs h hends
      exact ih d' hlt hends'

/-! ## Walks that are given up -/

/-- Going on from a node that is not remembered. -/
def Onward (r : Registry) (id other : NodeId) : Prop :=
  (r.node id).isSchemaType = false ∧ r.Refers id other

/-- The types that have not been met. -/
def left (r : Registry) (seen : Seen) : Finset NodeId :=
  undone r.size fun id => !(r.node id).isSchemaType || seen.contains (r.node id).type

theorem card_left_mono (h : seen ⊆ seen') : (r.left seen').card ≤ (r.left seen).card := by
  refine card_undone_mono fun id hid => ?_
  rw [Bool.or_eq_true, List.contains_iff_mem] at hid ⊢
  exact hid.imp_right fun hmem => h hmem

theorem card_left_lt (hid : (r.node id).isSchemaType = true)
    (hnew : (r.node id).type ∉ seen) (h : (r.node id).type :: seen ⊆ seen') :
    (r.left seen').card < (r.left seen).card := by
  refine Nat.lt_of_le_of_lt (card_left_mono h) ?_
  refine card_undone_lt (fun i hi => ?_) (lt_size_of_isSchemaType hid)
    (by simpa [hid] using hnew) (by simp)
  rw [Bool.or_eq_true, List.contains_iff_mem] at hi ⊢
  exact hi.imp_right (List.mem_cons_of_mem _)

/-- A walk that is given up passed the blame on to a walk from something that the node
refers to. -/
theorem GivenUp.refers (hr : r.WellFormed) (h : GivenUp (r.walk (depth + 1)) id seen e) :
    ∃ i seen', r.Refers id i ∧ GivenUp (r.walk depth) i seen' e ∧
      r.Needs (id, seen) (i, seen') ∧
      ((r.node id).isSchemaType = true ∧ (r.node id).type ∉ seen ∧
          (r.node id).type :: seen ⊆ seen' ∨
        (r.node id).isSchemaType = false ∧ seen ⊆ seen' ∧
          ∀ {more}, seen' ⊆ more → r.Needs (id, more) (i, more)) := by
  obtain ⟨he, hrun⟩ := h
  have hblame : ∀ {seen}, r.walkReferences (r.walk depth) id seen = .error e →
      ∃ i seen', r.Refers id i ∧ GivenUp (r.walk depth) i seen' e ∧
        r.WaitsFor (fun enter => r.walkReferences enter id) seen i seen' :=
    (walkReferences_made r id).blame hr he
  cases hid : (r.node id).isSchemaType with
  | true =>
      rw [walk_of_type hid] at hrun
      split at hrun
      · cases hrun
      · next hnew =>
          obtain ⟨i, seen', hi, hgiven, hwaits⟩ := hblame hrun
          refine ⟨i, seen', hi, hgiven, fun d hends => hwaits.first d ?_, Or.inl ⟨rfl,
            fun hmem => hnew (List.contains_iff_mem.mpr hmem), hwaits.subset⟩⟩
          rw [walk_of_type hid, if_neg hnew] at hends
          exact hends
  | false =>
      rw [walk_of_not_type hid] at hrun
      obtain ⟨i, seen', hi, hgiven, hwaits⟩ := hblame hrun
      refine ⟨i, seen', hi, hgiven, fun d hends => hwaits.first d ?_, Or.inr ⟨rfl,
        hwaits.subset, fun hsub d hends => hwaits.again hsub d ?_⟩⟩
      · rw [walk_of_not_type hid] at hends
        exact hends
      · rw [walk_of_not_type hid] at hends
        exact hends

theorem length_le_size {path : List NodeId} (hnd : path.Nodup) (h : ∀ p ∈ path, p < r.size) :
    path.length ≤ r.size := by
  rw [← List.toFinset_card_of_nodup hnd, ← Finset.card_range r.size]
  exact Finset.card_le_card fun p hp => Finset.mem_range.mpr (h p (List.mem_toFinset.mp hp))

/-- A place on the way of a walk: it has met no type since, and comes from there to `id`
again whenever it has met as much. -/
structure Behind (r : Registry) (id : NodeId) (seen : Seen) (p : NodeId) : Prop where
  lt_size : p < r.size
  onward : Relation.TransGen r.Onward p id
  needs : ∀ {more}, seen ⊆ more → Relation.TransGen r.Needs (p, more) (id, more)

/-- A walk is given up when it is in a loop that meets no type. `path` is where it has
been since it met one last; there are not enough nodes for it to be longer than `size`. -/
theorem GivenUp.loop (hr : r.WellFormed) : ∀ {id : NodeId} {seen : Seen} {path : List NodeId},
    path.Nodup → (∀ p ∈ path, r.Behind id seen p) →
      (r.left seen).card * (r.size + 2) + (r.size + 1 - path.length) < depth →
      GivenUp (r.walk depth) id seen e →
      ∃ i more, Relation.ReflTransGen r.Refers id i ∧ Relation.TransGen r.Onward i i ∧
        Relation.ReflTransGen r.Needs (id, seen) (i, more) ∧
        Relation.TransGen r.Needs (i, more) (i, more) := by
  induction depth with
  | zero => exact fun _ _ hdepth _ => absurd hdepth (Nat.not_lt_zero _)
  | succ depth ih =>
      intro id seen path hnd hpath hdepth hgiven
      by_cases hloop : id ∈ path
      · have hbehind := hpath id hloop
        exact ⟨id, seen, .refl, hbehind.onward, .refl, hbehind.needs (List.Subset.refl _)⟩
      obtain ⟨i, seen', href, hgiven, hneeds, ⟨hid, hnew, hsub⟩ | ⟨hid, hsub, hagain⟩⟩ :=
        hgiven.refers hr
      · -- A type is met: the path begins anew, and there is one type less to meet.
        have hless := Nat.mul_le_mul_right (r.size + 2) (card_left_lt hid hnew hsub)
        rw [Nat.succ_mul] at hless
        obtain ⟨j, more, hreach, hj, hto, hback⟩ :=
          ih List.nodup_nil (by simp) (by simp; omega) hgiven
        exact ⟨j, more, .head href hreach, hj, .head hneeds hto, hback⟩
      · -- No type is met: the path gets longer, by a node that is not on it.
        have hless := Nat.mul_le_mul_right (r.size + 2) (card_left_mono (r := r) hsub)
        have hnd' : (id :: path).Nodup := List.nodup_cons.mpr ⟨hloop, hnd⟩
        have hpath' : ∀ p ∈ id :: path, r.Behind i seen' p := by
          intro p hp
          rcases List.mem_cons.mp hp with rfl | hp
          · exact ⟨lt_size_of_refers href, .single ⟨hid, href⟩, fun hmore => .single (hagain hmore)⟩
          · have hbehind := hpath p hp
            exact ⟨hbehind.lt_size, hbehind.onward.tail ⟨hid, href⟩, fun hmore =>
              (hbehind.needs (List.Subset.trans hsub hmore)).tail (hagain hmore)⟩
        have hlength := length_le_size hnd' fun p hp => (hpath' p hp).lt_size
        rw [List.length_cons] at hlength
        obtain ⟨j, more, hreach, hj, hto, hback⟩ :=
          ih hnd' hpath' (by rw [List.length_cons]; omega) hgiven
        exact ⟨j, more, .head href hreach, hj, .head hneeds hto, hback⟩

/-- At `walkDepth` and below only those walks are given up that are in a loop, and they
come to an end at no depth. -/
theorem GivenUp.endless (hr : r.WellFormed) (hdepth : r.walkDepth ≤ depth)
    (h : GivenUp (r.walk depth) id seen e) :
    (∃ i, Relation.ReflTransGen r.Refers id i ∧ Relation.TransGen r.Onward i i) ∧
      ∀ d, ¬ Ends (r.walk d id seen) := by
  have hleft : (r.left seen).card * (r.size + 2) ≤ r.size * (r.size + 2) :=
    Nat.mul_le_mul_right _ card_undone_le
  have hbound : (r.left seen).card * (r.size + 2) + (r.size + 1 - 0) < depth := by
    rw [walkDepth, Nat.succ_mul] at hdepth
    omega
  obtain ⟨i, more, hreach, hloop, hto, hback⟩ := h.loop hr List.nodup_nil (by simp) hbound
  refine ⟨⟨i, hreach, hloop⟩, fun d hends => ?_⟩
  obtain ⟨d', -, hends'⟩ := ends_of_needs (Relation.TransGen.trans_right hto hback) hends
  exact not_ends_of_needs hback d' hends'

end Registry

end SchemaGraph
