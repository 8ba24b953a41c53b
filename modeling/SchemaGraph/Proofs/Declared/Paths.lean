import SchemaGraph.Proofs.Declared.Chains
import SchemaGraph.Proofs.Declared.Tidy

/-!
# How a path of links ends

From a node the links lead along one path, since a node has one parent at most. The path comes
to an object without a link, or to a host type that nothing is declared for, or to a node that
is no object, or it comes back to a node that it has passed. There is nothing else, for there
are only so many nodes to pass; and no two of these happen on one path. The chain says which it
was, and lists the nodes that were passed in the first case only.

The argument follows the path and the walk side by side. Up to a node that is reached without
passing another one twice the walk has come just there, and has the steps that it still needs.
-/

set_option autoImplicit false

namespace SchemaGraph

namespace Registry

variable {r : Registry} {id a p : NodeId} {before : List NodeId}
  {x : Except SchemaError (List NodeId)}

/-- The links lead from `id` to `a`, past the nodes `before`. -/
inductive Way (r : Registry) (id : NodeId) : List NodeId → NodeId → Prop where
  | here : Way r id [] id
  | step {before : List NodeId} {a p : NodeId} :
      Way r id before a → r.Parent a p → Way r id (before ++ [a]) p

/-- How the path of links from a node ends, and the answer to it. -/
inductive PathEnd (r : Registry) (id : NodeId) : Except SchemaError (List NodeId) → Prop where
  /-- At an object that extends nothing. -/
  | root {before : List NodeId} {a : NodeId} {n : ObjectNode} :
      r.Way id before a → r.node a = .object n → n.extends? = none →
        PathEnd r id (.ok (before ++ [a]))
  /-- At a link to something that is not declared. -/
  | undeclared {before : List NodeId} {a : NodeId} {n : ObjectNode} {link : Extends} :
      r.Way id before a → r.node a = .object n → n.extends? = some link →
        r.find? link.parent = none →
        PathEnd r id (.error (.notDeclared link.parent.shortName))
  /-- At a node that is no object. -/
  | other {before : List NodeId} {a : NodeId} :
      r.Way id before a → (r.node a).isObject = false →
        PathEnd r id (.error (.notAnObject (r.node a).displayName))
  /-- At the first link to a node that was passed. -/
  | again {before : List NodeId} {a p : NodeId} {n : ObjectNode} {link : Extends} :
      r.Way id before a → (before ++ [a]).Nodup → r.node a = .object n →
        n.extends? = some link → r.getNode link.parent = .ok p → p ∈ before ++ [a] →
        PathEnd r id (.error (.inheritanceCycle n.metadata.name))

/-! ## The walk at one node -/

section Walk

variable {steps : Nat} {seen : List NodeId} {n : ObjectNode} {link : Extends}

theorem chainFrom_root (hn : r.node a = .object n) (hextends : n.extends? = none) :
    r.chainFrom steps seen a = .ok [a] := by
  unfold chainFrom
  simp only [hn, hextends]

theorem chainFrom_undeclared (hn : r.node a = .object n) (hextends : n.extends? = some link)
    (hp : r.find? link.parent = none) :
    r.chainFrom steps seen a = .error (.notDeclared link.parent.shortName) := by
  unfold chainFrom
  simp only [hn, hextends, getNode, hp]

theorem chainFrom_other (hn : (r.node a).isObject = false) :
    r.chainFrom steps seen a = .error (.notAnObject (r.node a).displayName) := by
  unfold chainFrom
  cases hnode : r.node a with
  | object n => rw [hnode] at hn; cases hn
  | interface _ | inputObject _ | field _ | args _ | arg _ | inputField _ | implement _ => rfl

theorem chainFrom_again (hn : r.node a = .object n) (hextends : n.extends? = some link)
    (hp : r.getNode link.parent = .ok p) (hseen : p ∈ seen) :
    r.chainFrom steps seen a = .error (.inheritanceCycle n.metadata.name) := by
  unfold chainFrom
  simp only [hn, hextends, hp, List.contains_iff_mem.mpr hseen, if_true]

theorem chainFrom_parent (hparent : r.Parent a p) (hnew : p ∉ seen) :
    r.chainFrom (steps + 1) seen a = (r.chainFrom steps (p :: seen) p).map (a :: ·) := by
  obtain ⟨n, link, hn, hextends, hp⟩ := hparent
  rw [← List.contains_iff_mem, Bool.not_eq_true] at hnew
  rw [chainFrom]
  simp only [hn, hextends, hp, hnew, Bool.false_eq_true, if_false]
  cases r.chainFrom steps (p :: seen) p <;> rfl

end Walk

/-! ## Ways -/

theorem Parent.card_unmet_lt {seen : List NodeId} (h : r.Parent a p) (hnew : p ∉ seen) :
    (r.unmet (p :: seen)).card < (r.unmet seen).card := by
  obtain ⟨n, link, -, -, hp⟩ := h
  exact card_unmet_cons hp (by simpa using hnew)

/-- Whatever an object in a circle descends from is in the circle as well. -/
theorem InCircle.of_descends {b : NodeId} (h : r.InCircle b) (hb : r.Descends b a) :
    r.InCircle a := by
  induction hb using Relation.ReflTransGen.head_induction_on with
  | refl => exact h
  | @head b c hbc _ ih =>
      obtain ⟨c', hc', hback⟩ := Relation.TransGen.head'_iff.mp h
      obtain rfl := hbc.unique hc'
      exact ih (Relation.TransGen.tail' hback hbc)

namespace Way

/-- Whatever is passed on a way descends to where it leads. -/
theorem descends (h : r.Way id before a) : ∀ b ∈ before ++ [a], r.Descends b a := by
  induction h with
  | here =>
      intro b hb
      rw [List.mem_singleton.mp hb]
      exact .refl
  | step _ hparent ih =>
      intro b hb
      rcases List.mem_append.mp hb with hb | hb
      · exact (ih b hb).tail hparent
      · rw [List.mem_singleton.mp hb]
        exact .refl

/-- A way that passes nothing in a circle passes nothing twice. -/
theorem nodup (h : r.Way id before a) (hcircle : ∀ b ∈ before ++ [a], ¬ r.InCircle b) :
    (before ++ [a]).Nodup := by
  induction h with
  | here => exact List.nodup_singleton id
  | @step before a p hway hparent ih =>
      have hbefore := ih fun b hb => hcircle b (List.mem_append_left _ hb)
      rw [List.nodup_append_comm, List.singleton_append, List.nodup_cons]
      refine ⟨fun hp => hcircle p (by simp) ?_, hbefore⟩
      exact Relation.TransGen.tail' (hway.descends p hp) hparent

/-- A way to a node that has no parent passes nothing twice. -/
theorem nodup_of_no_parent (h : r.Way id before a) (ha : ∀ p, ¬ r.Parent a p) :
    (before ++ [a]).Nodup := by
  refine h.nodup fun b hb hcircle => ?_
  obtain ⟨p, hp, -⟩ := Relation.TransGen.head'_iff.mp (hcircle.of_descends (h.descends b hb))
  exact ha p hp

/-- Where a way leads without passing a node twice the walk comes as well. It knows the nodes
that were passed, and has as many steps as there are others. -/
theorem chain_eq (h : r.Way id before a) (hnodup : (before ++ [a]).Nodup) :
    ∃ steps seen, (∀ b, b ∈ seen ↔ b ∈ before ++ [a]) ∧ (r.unmet seen).card ≤ steps ∧
      r.chain id = (r.chainFrom steps seen a).map (before ++ ·) := by
  induction h with
  | here =>
      refine ⟨_, [id], fun b => Iff.rfl, r.card_unmet_le _, ?_⟩
      rw [chain]
      cases r.chainFrom (r.types.size + r.args.size) [id] id <;> rfl
  | @step before a p hway hparent ih =>
      obtain ⟨hbefore, -, hdisjoint⟩ := List.nodup_append'.mp hnodup
      obtain ⟨steps, seen, hseen, hsteps, hchain⟩ := ih hbefore
      have hnew : p ∉ seen := by
        rw [hseen]
        exact fun hp => hdisjoint hp (List.mem_singleton_self p)
      have hless := hparent.card_unmet_lt hnew
      obtain ⟨steps, rfl⟩ : ∃ k, steps = k + 1 := ⟨steps - 1, by omega⟩
      refine ⟨steps, p :: seen, fun b => ?_, by omega, ?_⟩
      · rw [List.mem_cons, hseen, List.mem_append (t := [p]), List.mem_singleton, or_comm]
      · rw [hchain, chainFrom_parent hparent hnew]
        cases r.chainFrom steps (p :: seen) p with
        | error e => rfl
        | ok rest => simp [Except.map]

end Way

/-! ## Paths -/

theorem not_parent_of_root {n : ObjectNode} (hn : r.node a = .object n)
    (hextends : n.extends? = none) (p : NodeId) : ¬ r.Parent a p := by
  rintro ⟨n', link, hn', hlink, -⟩
  rw [hn] at hn'
  cases hn'
  rw [hextends] at hlink
  cases hlink

theorem not_parent_of_undeclared {n : ObjectNode} {link : Extends} (hn : r.node a = .object n)
    (hextends : n.extends? = some link) (hp : r.find? link.parent = none) (p : NodeId) :
    ¬ r.Parent a p := by
  rintro ⟨n', link', hn', hlink, hparent⟩
  rw [hn] at hn'
  cases hn'
  rw [hextends] at hlink
  cases hlink
  rw [getNode, hp] at hparent
  cases hparent

theorem not_parent_of_other (hn : (r.node a).isObject = false) (p : NodeId) :
    ¬ r.Parent a p := by
  intro h
  rw [h.isObject] at hn
  cases hn

/-- The chain is the answer to how the path ends. -/
theorem PathEnd.chain_eq (h : r.PathEnd id x) : r.chain id = x := by
  cases h with
  | root hway hn hextends =>
      obtain ⟨_, _, -, -, hchain⟩ :=
        hway.chain_eq (hway.nodup_of_no_parent (not_parent_of_root hn hextends))
      rw [hchain, chainFrom_root hn hextends]
      rfl
  | undeclared hway hn hextends hp =>
      obtain ⟨_, _, -, -, hchain⟩ :=
        hway.chain_eq (hway.nodup_of_no_parent (not_parent_of_undeclared hn hextends hp))
      rw [hchain, chainFrom_undeclared hn hextends hp]
      rfl
  | other hway hn =>
      obtain ⟨_, _, -, -, hchain⟩ :=
        hway.chain_eq (hway.nodup_of_no_parent (not_parent_of_other hn))
      rw [hchain, chainFrom_other hn]
      rfl
  | again hway hnodup hn hextends hp hmem =>
      obtain ⟨_, _, hseen, -, hchain⟩ := hway.chain_eq hnodup
      rw [hchain, chainFrom_again hn hextends hp ((hseen _).mpr hmem)]
      rfl

/-- A way that has passed nothing twice ends where it is, or goes on to a new node. -/
theorem Way.end_or_step (h : r.Way id before a) (hnodup : (before ++ [a]).Nodup) :
    (∃ x, r.PathEnd id x) ∨ ∃ p, r.Parent a p ∧ p ∉ before ++ [a] := by
  cases hobject : (r.node a).isObject with
  | false => exact Or.inl ⟨_, .other h hobject⟩
  | true =>
      obtain ⟨n, hn⟩ := Node.exists_of_isObject hobject
      cases hextends : n.extends? with
      | none => exact Or.inl ⟨_, .root h hn hextends⟩
      | some link =>
          cases hfind : r.find? link.parent with
          | none => exact Or.inl ⟨_, .undeclared h hn hextends hfind⟩
          | some p =>
              have hp : r.getNode link.parent = .ok p := by rw [getNode, hfind]
              by_cases hmem : p ∈ before ++ [a]
              · exact Or.inl ⟨_, .again h hnodup hn hextends hp hmem⟩
              · exact Or.inr ⟨p, ⟨n, link, hn, hextends, hp⟩, hmem⟩

/-- Every way comes to an end: each step passes a declared node that was not passed before. -/
theorem Way.exists_end {before : List NodeId} {a : NodeId} (h : r.Way id before a)
    (hnodup : (before ++ [a]).Nodup) : ∃ x, r.PathEnd id x := by
  rcases h.end_or_step hnodup with hend | ⟨p, hparent, hnew⟩
  · exact hend
  · have hless : (r.unmet (before ++ [a] ++ [p])).card < (r.unmet (before ++ [a])).card := by
      have hsame : r.unmet (before ++ [a] ++ [p]) = r.unmet (p :: (before ++ [a])) := by
        simp only [unmet, List.toFinset_append, List.toFinset_cons, List.toFinset_nil,
          Finset.union_comm _ (insert p ∅), Finset.insert_union, Finset.empty_union]
      rw [hsame]
      exact hparent.card_unmet_lt hnew
    refine (h.step hparent).exists_end ?_
    rw [List.nodup_append_comm, List.singleton_append, List.nodup_cons]
    exact ⟨hnew, hnodup⟩
termination_by (r.unmet (before ++ [a])).card
decreasing_by exact hless

/-- A chain is answered as the path of links ends. -/
theorem chain_eq_iff : r.chain id = x ↔ r.PathEnd id x := by
  refine ⟨?_, PathEnd.chain_eq⟩
  rintro rfl
  obtain ⟨x, hx⟩ := (Way.here : r.Way id [] id).exists_end (List.nodup_singleton id)
  exact hx.chain_eq ▸ hx

/-- There is a cycle if and only if the path comes to a node twice. -/
theorem chain_eq_cycle_iff : (∃ name, r.chain id = .error (.inheritanceCycle name)) ↔
    ∃ before a, r.Way id before a ∧ ¬ (before ++ [a]).Nodup := by
  constructor
  · rintro ⟨name, hchain⟩
    generalize hx : (Except.error (.inheritanceCycle name) :
      Except SchemaError (List NodeId)) = x at hchain
    cases chain_eq_iff.mp hchain with
    | root | undeclared | other => cases hx
    | again hway hnodup hn hextends hp hmem =>
        refine ⟨_, _, hway.step ⟨_, _, hn, hextends, hp⟩, fun htwice => ?_⟩
        exact (List.nodup_append'.mp htwice).2.2 hmem (List.mem_singleton_self _)
  · rintro ⟨before, a, hway, htwice⟩
    induction hway with
    | here => exact absurd (List.nodup_singleton id) htwice
    | @step before a p hway hparent ih =>
        by_cases hnodup : (before ++ [a]).Nodup
        · obtain ⟨n, link, hn, hextends, hp⟩ := hparent
          refine ⟨n.metadata.name, (PathEnd.again hway hnodup hn hextends hp ?_).chain_eq⟩
          by_contra hnew
          rw [List.nodup_append_comm, List.singleton_append, List.nodup_cons] at htwice
          exact htwice ⟨hnew, hnodup⟩
        · exact ih hnodup

theorem nodup_of_chain {ids : List NodeId} (h : r.chain id = .ok ids) : ids.Nodup := by
  generalize hx : (Except.ok ids : Except SchemaError (List NodeId)) = x at h
  cases chain_eq_iff.mp h with
  | undeclared | other | again => cases hx
  | root hway hn hextends =>
      cases hx
      exact hway.nodup_of_no_parent (not_parent_of_root hn hextends)

/-! ## Descendants -/

theorem filterMapM_eq_filter {α : Type} {f : α → Except SchemaError (Option α)} {T : α → Bool} :
    ∀ {l : List α}, (∀ b ∈ l, f b = .ok (if T b then some b else none)) →
      l.filterMapM f = .ok (l.filter T)
  | [], _ => rfl
  | b :: rest, h => by
      obtain ⟨hb, hrest⟩ := List.forall_mem_cons.mp h
      rw [List.filterMapM_cons, hb, List.filter_cons]
      cases T b with
      | true => exact congrArg (· >>= fun found => pure (b :: found)) (filterMapM_eq_filter hrest)
      | false => exact filterMapM_eq_filter hrest

/-- Where the others have chains, those of them are found on whose chain the object is. -/
theorem exists_descendants
    (hchains : ∀ o ∈ r.objects, o ≠ id → ∃ ids, r.chain o = .ok ids) :
    ∃ found, r.descendants id = .ok found ∧ found.Sublist r.objects ∧
      ∀ o, o ∈ found ↔ o ∈ r.objects ∧ o ≠ id ∧ ∃ ids, r.chain o = .ok ids ∧ id ∈ ids := by
  classical
  have hfilter : r.descendants id = .ok (r.objects.filter fun o =>
      decide (o ≠ id ∧ ∃ ids, r.chain o = .ok ids ∧ id ∈ ids)) := by
    refine filterMapM_eq_filter fun o ho => ?_
    by_cases hself : o = id
    · simp [hself]
    · obtain ⟨ids, hids⟩ := hchains o ho hself
      simp [hself, hids]
  refine ⟨_, hfilter, List.filter_sublist, fun o => ?_⟩
  rw [List.mem_filter, decide_eq_true_eq]

/-- Chains are exact. The walk from any node comes to an end, and is answered as the path of
links ends, in one of four ways; to come to a node twice is a cycle, and a chain that exists has
every node once. If the other objects have chains, the descendants of an object are those that
have it on theirs, each once and in the order of declaration. -/
theorem chain_exact (r : Registry) (id : NodeId) :
    (∀ more, r.chainFrom (r.types.size + r.args.size + more) [id] id = r.chain id) ∧
    (∀ x, r.chain id = x ↔ r.PathEnd id x) ∧
    ((∃ name, r.chain id = .error (.inheritanceCycle name)) ↔
      ∃ before a, r.Way id before a ∧ ¬ (before ++ [a]).Nodup) ∧
    (∀ ids, r.chain id = .ok ids → ids.Nodup) ∧
    (r.Reached → (∀ o ∈ r.objects, o ≠ id → ∃ ids, r.chain o = .ok ids) →
      ∃ found, r.descendants id = .ok found ∧ found.Sublist r.objects ∧
        found.Pairwise (· < ·) ∧
        ∀ o, o ∈ found ↔ o ∈ r.objects ∧ o ≠ id ∧ ∃ ids, r.chain o = .ok ids ∧ id ∈ ids) := by
  refine ⟨fun more => chainFrom_eq_chain more id, fun x => chain_eq_iff, chain_eq_cycle_iff,
    fun ids => nodup_of_chain, fun hr hchains => ?_⟩
  obtain ⟨found, hfound, hsublist, hmem⟩ := exists_descendants hchains
  refine ⟨found, hfound, hsublist, ?_, hmem⟩
  exact hr.tidy.indexed.types.sublist (hsublist.trans List.filter_sublist)

end Registry

namespace Vehicles

def vehicle : HostType := ⟨"Vehicle"⟩

def car : HostType := ⟨"Car"⟩

def taxi : HostType := ⟨"Taxi"⟩

/-- A taxi is declared before the car that it extends, and both before the vehicle. -/
def registry : Registry := .ofDeclarations [
  .field vehicle { name := "wheels", type? := some .int },
  .object taxi { extends? := some ⟨taxi, car⟩ },
  .object car { extends? := some ⟨car, vehicle⟩ },
  .object vehicle {}]

/-- Cars and taxis extend vehicles. -/
theorem vehicle_descendants : ∃ found, registry.descendants 3 = .ok found ∧
    found.Pairwise (· < ·) ∧ 1 ∈ found ∧ 2 ∈ found ∧ 3 ∉ found := by
  have htaxi : registry.chain 1 = .ok [1, 2, 3] := rfl
  have hcar : registry.chain 2 = .ok [2, 3] := rfl
  have hobjects : registry.objects = [1, 2, 3] := rfl
  have hchains : ∀ o ∈ registry.objects, o ≠ 3 → ∃ ids, registry.chain o = .ok ids := by
    intro o ho hne
    simp only [hobjects, List.mem_cons, List.not_mem_nil, or_false] at ho
    rcases ho with rfl | rfl | rfl
    · exact ⟨_, htaxi⟩
    · exact ⟨_, hcar⟩
    · exact absurd rfl hne
  obtain ⟨-, -, -, -, hdescendants⟩ := Registry.chain_exact registry 3
  obtain ⟨found, hfound, -, horder, hmem⟩ := hdescendants (.ofDeclarations _) hchains
  refine ⟨found, hfound, horder, (hmem 1).mpr ⟨?_, by decide, _, htaxi, by decide⟩,
    (hmem 2).mpr ⟨?_, by decide, _, hcar, by decide⟩, fun hself => ((hmem 3).mp hself).2.1 rfl⟩
  · rw [hobjects]
    decide
  · rw [hobjects]
    decide

/-- A van that extends a truck, which extends itself. -/
def vans : Registry := .ofDeclarations [
  .field ⟨"Truck"⟩ { name := "load", type? := some .int },
  .object ⟨"Truck"⟩ { extends? := some ⟨⟨"Truck"⟩, ⟨"Truck"⟩⟩ },
  .object ⟨"Van"⟩ { extends? := some ⟨⟨"Van"⟩, ⟨"Truck"⟩⟩ }]

example : vans.chain 2 = .error (.inheritanceCycle "Truck") := rfl

end Vehicles

end SchemaGraph
