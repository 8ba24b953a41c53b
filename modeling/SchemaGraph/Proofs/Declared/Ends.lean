import Mathlib.Data.Finset.Card
import SchemaGraph.Declared.Ancestry
import SchemaGraph.Declared.Metadata
import SchemaGraph.Declared.Declare
import SchemaGraph.Proofs.OrderedMap

/-!
# Questions to the registry have an end

A walk that might go on for ever is given as many steps as it can need, and to run out
of them is an error of its own. No question that is put to a registry ends with that
error, whatever is declared: a chain goes from a declared node to a declared node and
never to one it has met, so that it is over before the steps are.
-/

set_option autoImplicit false

namespace SchemaGraph

/-- The error stands for a walk that was given up. -/
def SchemaError.isEndless : SchemaError → Bool
  | .endless _ => true
  | _ => false

/-- Whatever comes out of it, it was not given up. -/
def Ends {α : Type} (x : Except SchemaError α) : Prop :=
  ∀ e, x = .error e → e.isEndless = false

namespace Ends

variable {α β : Type}

theorem ok (a : α) : Ends (.ok a) := fun _ h => nomatch h

theorem error {e : SchemaError} (h : e.isEndless = false) :
    Ends (.error e : Except SchemaError α) := by
  rintro _ ⟨⟩
  exact h

theorem bind {x : Except SchemaError α} {f : α → Except SchemaError β} (hx : Ends x)
    (hf : ∀ a, Ends (f a)) : Ends (x >>= f) := by
  cases x with
  | ok a => exact hf a
  | error e => exact error (hx e rfl)

theorem map {x : Except SchemaError α} {f : α → β} (hx : Ends x) : Ends (x.map f) := by
  cases x with
  | ok a => exact ok _
  | error e => exact error (hx e rfl)

theorem filterMapM {f : α → Except SchemaError (Option β)} (hf : ∀ a, Ends (f a))
    (l : List α) : Ends (l.filterMapM f) := by
  induction l with
  | nil => exact ok _
  | cons a rest ih =>
      rw [List.filterMapM_cons]
      refine bind (hf a) fun b? => ?_
      cases b? with
      | none => exact ih
      | some b => exact bind ih fun _ => ok _

theorem forM {f : α → Except SchemaError PUnit} (hf : ∀ a, Ends (f a)) (l : List α) :
    Ends (l.forM f) := by
  induction l with
  | nil => exact ok _
  | cons a rest ih => exact bind (hf a) fun _ => ih

end Ends

/-! ## What is left to do -/

/-- The numbers below `size` for which nothing is done yet. -/
def undone (size : Nat) (done : NodeId → Bool) : Finset NodeId :=
  (Finset.range size).filter fun id => done id = false

section Undone

variable {size : Nat} {done done' : NodeId → Bool}

theorem card_undone_le : (undone size done).card ≤ size :=
  (Finset.card_filter_le _ _).trans (Nat.le_of_eq (Finset.card_range size))

theorem undone_subset (h : ∀ id, done id = true → done' id = true) :
    undone size done' ⊆ undone size done := by
  intro id hid
  simp only [undone, Finset.mem_filter, Finset.mem_range] at hid ⊢
  refine ⟨hid.1, ?_⟩
  cases hdone : done id with
  | false => rfl
  | true =>
      rw [h id hdone] at hid
      cases hid.2

theorem card_undone_mono (h : ∀ id, done id = true → done' id = true) :
    (undone size done').card ≤ (undone size done).card :=
  Finset.card_le_card (undone_subset h)

theorem card_undone_lt (h : ∀ id, done id = true → done' id = true) {id : NodeId}
    (hid : id < size) (hbefore : done id = false) (hafter : done' id = true) :
    (undone size done').card < (undone size done).card := by
  refine Finset.card_lt_card ⟨undone_subset h, fun hsubset => ?_⟩
  have hmem : id ∈ undone size done' :=
    hsubset (Finset.mem_filter.mpr ⟨Finset.mem_range.mpr hid, hbefore⟩)
  rw [(Finset.mem_filter.mp hmem).2] at hafter
  cases hafter

end Undone

/-! ## Names and nodes -/

theorem checkName_ends (name : String) : Ends (checkName name) := by
  unfold checkName
  split
  · exact .ok _
  · exact .error rfl

namespace Registry

variable (r : Registry)

theorem getNode_ends (t : HostType) : Ends (r.getNode t) := by
  unfold getNode
  split
  · exact .ok _
  · exact .error rfl

theorem getArgsNode_ends (t : HostType) : Ends (r.getArgsNode t) := by
  unfold getArgsNode
  split
  · exact .ok _
  · exact .error rfl

/-! ## Linking -/

theorem link_ends (t : TypeExpr) : Ends (r.link t) := by
  unfold link
  split
  · exact (r.getNode_ends _).map
  · exact .ok _

theorem linkArgs_ends (t? : Option HostType) : Ends (r.linkArgs t?) := by
  cases t? with
  | none => exact .ok _
  | some t =>
      refine (r.getArgsNode_ends t).bind fun id => ?_
      split
      · exact .error rfl
      · exact .ok _

theorem linkArg_ends (owner field : String) (type? : Option TypeExpr)
    (node? : Option ArgNode) : Ends (r.linkArg owner field type? node?) := by
  unfold linkArg
  split
  · exact (r.link_ends _).map
  · exact .error rfl
  · exact .error rfl
  · exact .ok _

theorem linkField_ends (id : NodeId) : Ends (r.linkField id) := by
  have hrest : ∀ (owner field : String) (decl : FieldDecl) (type : Link)
      (args? : Option HostType) (type? : Option TypeExpr) (node? : Option ArgNode),
      Ends (do
        let args? ← r.linkArgs args?
        let arg? ← r.linkArg owner field type? node?
        return (⟨decl, type, args?, arg?⟩ : LinkedField)) := fun _ _ _ _ _ _ _ =>
    (r.linkArgs_ends _).bind fun _ => (r.linkArg_ends _ _ _ _).bind fun _ => .ok _
  unfold linkField
  split
  · dsimp only
    split
    · refine (r.link_ends _).bind fun type => ?_
      split
      · exact .error rfl
      · exact hrest _ _ _ _ _ _ _
    · exact .error rfl
  · exact .error rfl

theorem linkInput_ends (id : NodeId) : Ends (r.linkInput id) := by
  unfold linkInput
  split
  · split
    · exact (r.link_ends _).map
    · exact .error rfl
  · exact .error rfl

/-! ## Chains -/

/-- The nodes that a host type may stand for. -/
def declared : Finset NodeId := (r.types.values ++ r.args.values).toFinset

theorem card_declared_le : r.declared.card ≤ r.types.size + r.args.size := by
  refine (List.toFinset_card_le _).trans (Nat.le_of_eq ?_)
  simp [OrderedMap.values, OrderedMap.size]

variable {r}

theorem mem_declared {t : HostType} {id : NodeId} (h : r.getNode t = .ok id) :
    id ∈ r.declared := by
  have hfind : r.find? t = some id := by
    unfold getNode at h
    split at h
    · next heq => rw [heq, Except.ok.inj h]
    · cases h
  simp only [declared, List.mem_toFinset, List.mem_append, OrderedMap.mem_values]
  rcases Option.or_eq_some_iff.mp hfind with hfind | ⟨-, hfind⟩
  · exact Or.inl ⟨t, OrderedMap.mem_of_find? hfind⟩
  · exact Or.inr ⟨t, OrderedMap.mem_of_find? hfind⟩

/-- The declared nodes that a chain has not met. -/
def unmet (r : Registry) (seen : List NodeId) : Finset NodeId := r.declared \ seen.toFinset

theorem card_unmet_cons {seen : List NodeId} {t : HostType} {id : NodeId}
    (h : r.getNode t = .ok id) (hnew : seen.contains id = false) :
    (r.unmet (id :: seen)).card < (r.unmet seen).card := by
  have hmem : id ∈ r.unmet seen := by
    simp only [unmet, Finset.mem_sdiff, List.mem_toFinset]
    exact ⟨mem_declared h, by simpa using hnew⟩
  have herase : r.unmet (id :: seen) = (r.unmet seen).erase id := by
    rw [unmet, unmet, List.toFinset_cons, Finset.sdiff_insert]
  rw [herase]
  exact Finset.card_erase_lt_of_mem hmem

/-- The walk goes on in one place only: where the parent has not been met. -/
theorem chainFrom_step {steps steps' : Nat} {seen : List NodeId} {id : NodeId}
    (h : ∀ t p, r.getNode t = .ok p → seen.contains p = false →
      ∃ n n', steps = n + 1 ∧ steps' = n' + 1 ∧ Ends (r.chainFrom n (p :: seen) p) ∧
        r.chainFrom n' (p :: seen) p = r.chainFrom n (p :: seen) p) :
    Ends (r.chainFrom steps seen id) ∧
      r.chainFrom steps' seen id = r.chainFrom steps seen id := by
  rw [chainFrom, chainFrom]
  split
  · split
    · exact ⟨.ok _, rfl⟩
    · split
      · next hp => exact ⟨.error (r.getNode_ends _ _ hp), rfl⟩
      · next p hp =>
          split
          · exact ⟨.error rfl, rfl⟩
          · next hnew =>
              obtain ⟨n, n', rfl, rfl, hends, hsame⟩ := h _ p hp (by simpa using hnew)
              dsimp only
              rw [hsame]
              refine ⟨?_, rfl⟩
              split
              · next e he => exact .error (hends e he)
              · exact .ok _
  · exact ⟨.error rfl, rfl⟩

/-- With as many steps as there are nodes to meet a chain is not given up, and further
steps make no difference. -/
theorem chainFrom_ends {steps : Nat} (more : Nat) : ∀ {seen : List NodeId} {id : NodeId},
    (r.unmet seen).card ≤ steps → Ends (r.chainFrom steps seen id) ∧
      r.chainFrom (steps + more) seen id = r.chainFrom steps seen id := by
  induction steps with
  | zero =>
      intro seen id hsteps
      refine chainFrom_step fun t p hp hnew => ?_
      exact absurd (card_unmet_cons hp hnew) (by omega)
  | succ steps ih =>
      intro seen id hsteps
      refine chainFrom_step fun t p hp hnew => ⟨steps, steps + more, rfl, by omega, ih ?_⟩
      exact Nat.le_of_lt_succ (Nat.lt_of_lt_of_le (card_unmet_cons hp hnew) hsteps)

theorem card_unmet_le (r : Registry) (seen : List NodeId) :
    (r.unmet seen).card ≤ r.types.size + r.args.size :=
  (Finset.card_le_card Finset.sdiff_subset).trans r.card_declared_le

theorem chain_ends (r : Registry) (id : NodeId) : Ends (r.chain id) :=
  (chainFrom_ends 0 (r.card_unmet_le _)).1

/-- A chain does not depend on the number of steps that it is given. -/
theorem chainFrom_eq_chain (more : Nat) (id : NodeId) :
    r.chainFrom (r.types.size + r.args.size + more) [id] id = r.chain id :=
  (chainFrom_ends more (r.card_unmet_le _)).2

theorem descendants_ends (r : Registry) (id : NodeId) : Ends (r.descendants id) := by
  refine .filterMapM (fun o => ?_) _
  split
  · exact .ok _
  · split
    · next e he => exact .error (r.chain_ends o e he)
    · exact .ok _

theorem inheritors_ends (r : Registry) (direct : List NodeId) : Ends (r.inheritors direct) := by
  refine .filterMapM (fun o => ?_) _
  split
  · exact .ok _
  · split
    · next e he => exact .error (r.chain_ends o e he)
    · exact .ok _

theorem implementers_ends (r : Registry) (id : NodeId) : Ends (r.implementers id) := by
  unfold implementers
  split
  · split
    · next e he => exact .error (r.inheritors_ends _ e he)
    · exact .ok _
  · exact .error rfl

end Registry

end SchemaGraph
