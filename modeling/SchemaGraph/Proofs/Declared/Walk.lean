import SchemaGraph.Declared.Reachability
import SchemaGraph.Proofs.Declared.Ancestry
import SchemaGraph.Proofs.Declared.References

/-!
# What a walk achieves

The types that have been met are remembered when their references still have to be
followed, so in the middle of a walk it is not so that everything remembered has been
followed up. What is so is that the exceptions, the gray types, are those at work above.
Nodes that are no types are not remembered at all; of these it can only be said that the
types at the ends of their references are. `Covered` is what the walk achieves for a
node, and `Closed` what it keeps true of the others.

`Visits` collects what can be said of a walk in one contract. A walk is made of walks,
one after the other, and the contract of the whole follows from those of the parts. How it
is made of them is said once, by `Made`, and whatever else holds of parts and whole is shown
by induction on that.
-/

set_option autoImplicit false

namespace SchemaGraph

namespace Registry

variable {r : Registry}

/-- The node has been met, or it is no type and all that it refers to has been met. -/
inductive Covered (r : Registry) (seen : Seen) : NodeId → Prop where
  | type {id : NodeId} : (r.node id).isSchemaType = true → (r.node id).type ∈ seen →
      Covered r seen id
  | other {id : NodeId} : (r.node id).isSchemaType = false →
      (∀ i, r.Refers id i → Covered r seen i) → Covered r seen id

theorem Covered.mono {seen seen' : Seen} {id : NodeId} (h : r.Covered seen id)
    (hsub : seen ⊆ seen') : r.Covered seen' id := by
  induction h with
  | type htype hmem => exact .type htype (hsub hmem)
  | other htype _ ih => exact .other htype ih

/-- The references of all types that have been met, but those of the gray ones, have been
followed. -/
def Closed (r : Registry) (seen gray : List HostType) : Prop :=
  ∀ id, (r.node id).isSchemaType = true → (r.node id).type ∈ seen →
    (r.node id).type ∉ gray → ∀ i, r.Refers id i → r.Covered seen i

/-- Once nothing is gray, what is covered is covered with all that is reachable from it. -/
theorem Covered.reachable {seen : Seen} (hclosed : r.Closed seen []) {id other : NodeId}
    (h : r.Covered seen id) (hreach : Relation.ReflTransGen r.Refers id other) :
    r.Covered seen other := by
  induction hreach with
  | refl => exact h
  | tail _ href ih =>
      cases ih with
      | type htype hmem => exact hclosed _ htype hmem (by simp) _ href
      | other _ hall => exact hall _ href

/-- A type on the way from a start. -/
def TypeFrom (r : Registry) (S : NodeId → Prop) (t : HostType) : Prop :=
  ∃ s id, S s ∧ Relation.ReflTransGen r.Refers s id ∧ (r.node id).isSchemaType = true ∧
    (r.node id).type = t

/-- Something broken on the way from a start. -/
def BrokenFrom (r : Registry) (S : NodeId → Prop) (e : SchemaError) : Prop :=
  ∃ s id, S s ∧ Relation.ReflTransGen r.Refers s id ∧ r.Broken id e

/-- Walking from the node is given up. -/
def GivenUp (enter : NodeId → Seen → Except SchemaError Seen) (id : NodeId) (seen : Seen)
    (e : SchemaError) : Prop :=
  e.isEndless = true ∧ enter id seen = .error e

/-- What a walk does that begins at the nodes in `S`, from each of them by `enter`. If it
fails, then a walk from one of them was given up, or something is broken on the way, or
the failure is one of `F`, by which the starts are not even found. -/
structure Visits (r : Registry) (enter : NodeId → Seen → Except SchemaError Seen)
    (S : NodeId → Prop) (F : SchemaError → Prop) (x : Seen → Except SchemaError Seen) :
    Prop where
  keeps : ∀ {seen seen'}, x seen = .ok seen' → seen ⊆ seen'
  meets : ∀ {seen seen'}, x seen = .ok seen' → ∀ t ∈ seen', t ∈ seen ∨ r.TypeFrom S t
  closes : ∀ {seen seen' gray}, x seen = .ok seen' → r.Closed seen gray →
    r.Closed seen' gray
  covers : ∀ {seen seen'}, x seen = .ok seen' → ∀ s, S s → r.Covered seen' s
  fails : ∀ {seen e}, x seen = .error e →
    (∃ s seen₁, S s ∧ seen ⊆ seen₁ ∧ GivenUp enter s seen₁ e) ∨ F e ∨ r.BrokenFrom S e

namespace Visits

variable {enter : NodeId → Seen → Except SchemaError Seen} {S S' : NodeId → Prop}
  {F F' : SchemaError → Prop} {x y : Seen → Except SchemaError Seen}

theorem imp (h : r.Visits enter S F x) (hS : ∀ s, S s ↔ S' s) (hF : ∀ e, F e → F' e) :
    r.Visits enter S' F' x where
  keeps := h.keeps
  meets hx t ht := (h.meets hx t ht).imp_right fun ⟨s, id, hs, hrest⟩ =>
    ⟨s, id, (hS s).mp hs, hrest⟩
  closes := h.closes
  covers hx s hs := h.covers hx s ((hS s).mpr hs)
  fails hx := by
    rcases h.fails hx with ⟨s, seen₁, hs, hrest⟩ | hfail | ⟨s, id, hs, hrest⟩
    · exact Or.inl ⟨s, seen₁, (hS s).mp hs, hrest⟩
    · exact Or.inr (Or.inl (hF _ hfail))
    · exact Or.inr (Or.inr ⟨s, id, (hS s).mp hs, hrest⟩)

/-- Nothing is walked. -/
theorem nowhere (hS : ∀ s, ¬ S s) : r.Visits enter S F .ok where
  keeps h := by
    cases h
    exact List.Subset.refl _
  meets h t ht := by
    cases h
    exact Or.inl ht
  closes h hclosed := by
    cases h
    exact hclosed
  covers _ s hs := absurd hs (hS s)
  fails h := nomatch h

/-- The walk fails before it begins. -/
theorem error {e : SchemaError} (h : F e) : r.Visits enter S F fun _ => .error e where
  keeps h := nomatch h
  meets h := nomatch h
  closes h := nomatch h
  covers h := nomatch h
  fails hx := by
    cases hx
    exact Or.inr (Or.inl h)

/-- One walk after the other. -/
theorem seq (hx : r.Visits enter S F x) (hy : r.Visits enter S' F' y) :
    r.Visits enter (fun s => S s ∨ S' s) (fun e => F e ∨ F' e) fun seen => x seen >>= y := by
  have hok : ∀ {seen seen'}, (x seen >>= y) = .ok seen' →
      ∃ seen₁, x seen = .ok seen₁ ∧ y seen₁ = .ok seen' := fun {seen} _ h => by
    cases hrun : x seen with
    | ok seen₁ =>
        rw [hrun] at h
        exact ⟨seen₁, rfl, h⟩
    | error e =>
        rw [hrun] at h
        cases h
  constructor
  case keeps =>
    intro seen seen' h
    obtain ⟨seen₁, h₁, h₂⟩ := hok h
    exact List.Subset.trans (hx.keeps h₁) (hy.keeps h₂)
  case meets =>
    intro seen seen' h t ht
    obtain ⟨seen₁, h₁, h₂⟩ := hok h
    rcases hy.meets h₂ t ht with ht | ⟨s, id, hs, hrest⟩
    · exact (hx.meets h₁ t ht).imp_right fun ⟨s, id, hs, hrest⟩ =>
        ⟨s, id, Or.inl hs, hrest⟩
    · exact Or.inr ⟨s, id, Or.inr hs, hrest⟩
  case closes =>
    intro seen seen' gray h hclosed
    obtain ⟨seen₁, h₁, h₂⟩ := hok h
    exact hy.closes h₂ (hx.closes h₁ hclosed)
  case covers =>
    intro seen seen' h s hs
    obtain ⟨seen₁, h₁, h₂⟩ := hok h
    rcases hs with hs | hs
    · exact (hx.covers h₁ s hs).mono (hy.keeps h₂)
    · exact hy.covers h₂ s hs
  case fails =>
    intro seen e h
    cases hrun : x seen with
    | ok seen₁ =>
        rw [hrun] at h
        rcases hy.fails h with ⟨s, seen₂, hs, hsub, hgiven⟩ | hfail | ⟨s, id, hs, hrest⟩
        · exact Or.inl ⟨s, seen₂, Or.inr hs, List.Subset.trans (hx.keeps hrun) hsub, hgiven⟩
        · exact Or.inr (Or.inl (Or.inr hfail))
        · exact Or.inr (Or.inr ⟨s, id, Or.inr hs, hrest⟩)
    | error e' =>
        rw [hrun] at h
        cases h
        rcases hx.fails hrun with ⟨s, seen₁, hs, hrest⟩ | hfail | ⟨s, id, hs, hrest⟩
        · exact Or.inl ⟨s, seen₁, Or.inl hs, hrest⟩
        · exact Or.inr (Or.inl (Or.inl hfail))
        · exact Or.inr (Or.inr ⟨s, id, Or.inl hs, hrest⟩)

end Visits

/-! ## Walking references

What is walked for a node is read off its declaration once; whatever is said about walks
follows from how they are made. -/

/-- A walk goes on with what has been met, or fails. -/
abbrev Walk := Seen → Except SchemaError Seen

/-- How a walk is made of the walks from single nodes: of none, or it fails before there is
one, or of a single one, or one walk comes after the other. `S` are the nodes that it
begins at, `F` the failures by which it does not begin. -/
inductive Made : (NodeId → Prop) → (SchemaError → Prop) → ((NodeId → Walk) → Walk) → Prop where
  | nowhere {S : NodeId → Prop} {F : SchemaError → Prop} : (∀ s, ¬ S s) →
      Made S F fun _ => .ok
  | fail {S : NodeId → Prop} {F : SchemaError → Prop} {e : SchemaError} : F e →
      e.isEndless = false → Made S F fun _ _ => .error e
  | enter (id : NodeId) : Made (· = id) (fun _ => False) fun enter => enter id
  | seq {S S' : NodeId → Prop} {F F' : SchemaError → Prop} {x y : (NodeId → Walk) → Walk} :
      Made S F x → Made S' F' y → Made (fun s => S s ∨ S' s) (fun e => F e ∨ F' e)
        fun enter seen => x enter seen >>= y enter
  | imp {S S' : NodeId → Prop} {F F' : SchemaError → Prop} {x : (NodeId → Walk) → Walk} :
      Made S F x → (∀ s, S s ↔ S' s) → (∀ e, F e → F' e) → Made S' F' x

namespace Made

theorem foldlM {α : Type} {S : α → NodeId → Prop} {F : α → SchemaError → Prop}
    {f : α → (NodeId → Walk) → Walk} {l : List α} (hf : ∀ a ∈ l, Made (S a) (F a) (f a)) :
    Made (fun s => ∃ a ∈ l, S a s) (fun e => ∃ a ∈ l, F a e)
      fun enter seen => l.foldlM (fun seen a => f a enter seen) seen := by
  induction l with
  | nil => exact nowhere (by simp)
  | cons a rest ih =>
      refine ((hf a List.mem_cons_self).seq (ih fun b hb => hf b (List.mem_cons_of_mem _ hb))).imp
        (fun s => ?_) fun e he => ?_
      · simp
      · simpa using he

theorem all (ids : List NodeId) : Made (· ∈ ids) (fun _ => False) fun enter seen =>
    ids.foldlM (fun seen id => enter id seen) seen :=
  (foldlM fun id _ => enter id).imp (fun s => by simp) fun e ⟨_, _, he⟩ => he

/-- From a host type the walk goes to the node that it stands for. -/
theorem node (r : Registry) (t : HostType) :
    Made (fun id => r.getNode t = .ok id) (fun e => r.getNode t = .error e) fun enter seen =>
      match r.getNode t with
      | .ok id => enter id seen
      | .error e => .error e := by
  cases hnode : r.getNode t with
  | ok id => exact (enter id).imp (fun s => by simp [eq_comm]) fun e he => he.elim
  | error e => exact fail rfl (r.getNode_ends t e hnode)

theorem bind_node (r : Registry) (t : HostType) :
    Made (fun id => r.getNode t = .ok id) (fun e => r.getNode t = .error e) fun enter seen =>
      r.getNode t >>= fun id => enter id seen := by
  convert node r t using 3 with enter seen
  cases r.getNode t <;> rfl

end Made

theorem walkType_made (t : TypeExpr) :
    Made (t.LeadsTo r) (t.Fails r) fun enter => r.walkType enter t := by
  induction t with
  | ref t => exact .node r t
  | scalar _ | enum _ => exact .nowhere fun _ hs => hs
  | union d => exact .foldlM fun t _ => .node r t
  | list item ih => exact ih
  | nullable inner ih => exact ih

/-- Walking a link is walking the type expression that was linked. -/
theorem walkLink_eq {t : TypeExpr} {l : Link} (h : r.link t = .ok l)
    (enter : NodeId → Walk) : r.walkLink enter l = r.walkType enter t := by
  funext seen
  unfold link at h
  split at h
  · next t =>
      cases hnode : r.getNode t with
      | ok id =>
          rw [hnode] at h
          cases h
          rw [walkLink, walkType, hnode]
      | error e =>
          rw [hnode] at h
          cases h
  · cases h
    rfl

theorem walkLink_made {t : TypeExpr} {l : Link} (h : r.link t = .ok l) :
    Made (t.LeadsTo r) (t.Fails r) fun enter => r.walkLink enter l := by
  rw [funext (walkLink_eq h)]
  exact walkType_made t

theorem walkObject_made {id : NodeId} {n : ObjectNode} (hn : r.node id = .object n) :
    Made (r.Refers id) (r.Broken id) fun enter => r.walkReferences enter id := by
  have hparent : Made
      (fun i => ∃ link, n.extends? = some link ∧ r.getNode link.parent = .ok i)
      (fun e => ∃ link, n.extends? = some link ∧ r.getNode link.parent = .error e)
      fun enter seen => n.extends?.elim (.ok seen) fun link =>
        r.getNode link.parent >>= fun i => enter i seen := by
    cases n.extends? with
    | none => exact .nowhere (by simp)
    | some link => exact (Made.bind_node r link.parent).imp (by simp) (by simp)
  have hwalk : (fun enter => r.walkReferences enter id) = fun enter seen =>
      n.fields.foldlM (fun seen id => enter id seen) seen >>= fun seen =>
      n.implementEdges.foldlM (fun seen id => enter id seen) seen >>= fun seen =>
      n.extends?.elim (.ok seen) fun link =>
        r.getNode link.parent >>= fun i => enter i seen := by
    funext enter seen
    simp only [walkReferences, hn]
    cases n.extends? <;> rfl
  rw [hwalk]
  refine ((Made.all n.fields).seq ((Made.all n.implementEdges).seq hparent)).imp
    (fun i => ?_) fun e he => ?_
  · simp only [Refers, hn]
  · simpa only [Broken, hn, false_or] using he

theorem walkField_made {id : NodeId} {n : FieldNode} (hn : r.node id = .field n) :
    Made (r.Refers id) (r.Broken id) fun enter => r.walkReferences enter id := by
  cases hlink : r.linkField id with
  | error e =>
      have hwalk : (fun enter => r.walkReferences enter id) = fun _ _ => .error e := by
        funext enter seen
        simp only [walkReferences, hn, hlink]
        rfl
      rw [hwalk]
      refine .fail ?_ (r.linkField_ends id e hlink)
      simp only [Broken, hn]
      exact Or.inl hlink
  | ok f =>
      obtain ⟨⟨t, ht, hl⟩, harg, hargs⟩ := linkField_parts hn hlink
      have harg : Made
          (fun i => ∃ t, argType? n (r.attachedArg? n) = some t ∧ t.LeadsTo r i)
          (fun e => ∃ t, argType? n (r.attachedArg? n) = some t ∧ t.Fails r e)
          fun enter seen => f.arg?.elim (.ok seen) fun arg => r.walkLink enter arg.type seen := by
        rcases harg with ⟨hnone, hf⟩ | ⟨t', arg, ht', hf, hl'⟩
        · rw [hf]
          exact .nowhere (by simp [hnone])
        · rw [hf]
          exact (walkLink_made hl').imp (by simp [ht']) (by simp [ht'])
      have hargs : Made (fun i => ∃ t, n.decl.args? = some t ∧ r.args.find? t = some i)
          (fun _ => False) fun enter seen =>
            f.args?.elim (.ok seen) fun args => enter args seen := by
        rcases hargs with ⟨hnone, hf⟩ | ⟨t', i, ht', hf, hfind⟩
        · rw [hf]
          exact .nowhere (by simp [hnone])
        · rw [hf]
          exact (Made.enter i).imp (by simp [ht', hfind, eq_comm]) fun _ he => he
      have hwalk : (fun enter => r.walkReferences enter id) = fun enter seen =>
          r.walkLink enter f.type seen >>= fun seen =>
          (f.arg?.elim (.ok seen) fun arg => r.walkLink enter arg.type seen) >>= fun seen =>
          f.args?.elim (.ok seen) fun args => enter args seen := by
        funext enter seen
        simp only [walkReferences, hn, hlink]
        obtain ⟨_, _, _ | _, _ | _⟩ := f <;> rfl
      rw [hwalk]
      refine ((walkLink_made hl).seq (harg.seq hargs)).imp (fun i => ?_) fun e he => ?_
      · simp only [Refers, hn, FieldType, ht, Option.some.injEq, or_and_right, exists_or,
          exists_eq_left', or_assoc]
      · simp only [Broken, hn, FieldType, ht, Option.some.injEq, or_and_right, exists_or,
          exists_eq_left']
        exact Or.inr (he.imp_right fun he => he.resolve_right not_false)

theorem walkInputField_made {id : NodeId} {n : InputFieldNode}
    (hn : r.node id = .inputField n) :
    Made (r.Refers id) (r.Broken id) fun enter => r.walkReferences enter id := by
  cases hlink : r.linkInput id with
  | error e =>
      have hwalk : (fun enter => r.walkReferences enter id) = fun _ _ => .error e := by
        funext enter seen
        simp only [walkReferences, hn, hlink]
        rfl
      rw [hwalk]
      refine .fail ?_ (r.linkInput_ends id e hlink)
      simp only [Broken, hn]
      exact Or.inl hlink
  | ok f =>
      obtain ⟨n', t, hn', -, ht, hl⟩ := Meaning.linkInput_eq_ok hlink
      cases hn.symm.trans hn'
      have hwalk : (fun enter => r.walkReferences enter id)
          = fun enter => r.walkLink enter f.type := by
        funext enter seen
        simp only [walkReferences, hn, hlink]
        rfl
      rw [hwalk]
      refine (walkLink_made hl).imp (fun i => ?_) fun e he => ?_
      · simp only [Refers, hn, ht, Option.some.injEq, exists_eq_left']
      · simp only [Broken, hn, ht, Option.some.injEq, exists_eq_left']
        exact Or.inr he

/-- What is walked for a node is what it refers to, in the order of its declaration, and
there is a failure if it is broken. -/
theorem walkReferences_made (r : Registry) (id : NodeId) :
    Made (r.Refers id) (r.Broken id) fun enter => r.walkReferences enter id := by
  have hmembers : ∀ ids : List NodeId, (∀ i, r.Refers id i ↔ i ∈ ids) →
      (∀ enter seen, r.walkReferences enter id seen
        = ids.foldlM (fun seen id => enter id seen) seen) →
      Made (r.Refers id) (r.Broken id) fun enter => r.walkReferences enter id := by
    intro ids hids hwalk
    rw [funext fun enter => funext (hwalk enter)]
    exact (Made.all ids).imp (fun i => (hids i).symm) fun e he => he.elim
  cases hn : r.node id with
  | object n => exact walkObject_made hn
  | interface n =>
      exact hmembers n.fields (by simp [Refers, hn]) fun _ _ => by simp only [walkReferences, hn]
  | inputObject n =>
      exact hmembers n.inputFields (by simp [Refers, hn]) fun _ _ => by
        simp only [walkReferences, hn]
  | args n =>
      exact hmembers n.inputFields (by simp [Refers, hn]) fun _ _ => by
        simp only [walkReferences, hn]
  | field n => exact walkField_made hn
  | inputField n => exact walkInputField_made hn
  | implement n =>
      have hwalk : (fun enter => r.walkReferences enter id)
          = fun enter => enter n.interface := by
        funext enter seen
        simp only [walkReferences, hn]
      rw [hwalk]
      exact (Made.enter n.interface).imp (by simp [Refers, hn]) fun e he => he.elim
  | arg n =>
      have hwalk : (fun enter => r.walkReferences enter id) = fun _ => .ok := by
        funext enter seen
        simp only [walkReferences, hn]
      rw [hwalk]
      exact .nowhere (by simp [Refers, hn])

variable {enter : NodeId → Walk}

/-- What is assumed of the walk from a single node. -/
def Enters (r : Registry) (enter : NodeId → Seen → Except SchemaError Seen) : Prop :=
  ∀ id, r.Visits enter (· = id) (fun _ => False) (enter id)

theorem Made.visits {S : NodeId → Prop} {F : SchemaError → Prop}
    {x : (NodeId → Walk) → Walk} (hx : Made S F x) (henter : r.Enters enter) :
    r.Visits enter S F (x enter) := by
  induction hx with
  | nowhere hS => exact .nowhere hS
  | fail hF _ => exact .error hF
  | enter id => exact henter id
  | seq _ _ ihx ihy => exact ihx.seq ihy
  | imp _ hS hF ih => exact ih.imp hS hF

theorem Enters.all (henter : r.Enters enter) (ids : List NodeId) :
    r.Visits enter (· ∈ ids) (fun _ => False) fun seen =>
      ids.foldlM (fun seen id => enter id seen) seen :=
  (Made.all ids).visits henter

theorem walkReferences_visits (henter : r.Enters enter) (id : NodeId) :
    r.Visits enter (r.Refers id) (r.Broken id) (r.walkReferences enter id) :=
  (walkReferences_made r id).visits henter

/-! ## Walking nodes -/

/-- Beginning at the references of a node is beginning at the node. -/
theorem TypeFrom.of_refers {id : NodeId} {t : HostType} (h : r.TypeFrom (r.Refers id) t) :
    r.TypeFrom (· = id) t := by
  obtain ⟨s, other, hs, hpath, hrest⟩ := h
  exact ⟨id, other, rfl, .head hs hpath, hrest⟩

theorem BrokenFrom.of_refers {id : NodeId} {e : SchemaError}
    (h : r.BrokenFrom (r.Refers id) e) : r.BrokenFrom (· = id) e := by
  obtain ⟨s, other, hs, hpath, hrest⟩ := h
  exact ⟨id, other, rfl, .head hs hpath, hrest⟩

variable {enter' : NodeId → Seen → Except SchemaError Seen} {id : NodeId}
  {x : Seen → Except SchemaError Seen}

theorem fails_of_refers {seen seen₁ : Seen} {e : SchemaError}
    (hx : enter' id seen = .error e)
    (h : (∃ s seen₂, r.Refers id s ∧ seen₁ ⊆ seen₂ ∧ GivenUp enter s seen₂ e) ∨
      r.Broken id e ∨ r.BrokenFrom (r.Refers id) e) :
    (∃ s seen₂, s = id ∧ seen ⊆ seen₂ ∧ GivenUp enter' s seen₂ e) ∨ False ∨
      r.BrokenFrom (· = id) e := by
  rcases h with ⟨_, _, -, -, hendless, -⟩ | h | h
  · exact Or.inl ⟨id, seen, rfl, List.Subset.refl _, hendless, hx⟩
  · exact Or.inr (Or.inr ⟨id, id, rfl, .refl, h⟩)
  · exact Or.inr (Or.inr h.of_refers)

/-- A node that is no type has been met when its references have. -/
theorem Visits.other (h : r.Visits enter (r.Refers id) (r.Broken id) x)
    (hid : (r.node id).isSchemaType = false) (hwalk : enter' id = x) :
    r.Visits enter' (· = id) (fun _ => False) x where
  keeps := h.keeps
  meets hx t ht := (h.meets hx t ht).imp_right fun hfrom => hfrom.of_refers
  closes := h.closes
  covers hx s hs := by
    subst hs
    exact .other hid (h.covers hx)
  fails hx := fails_of_refers (hwalk ▸ hx) (h.fails hx)

/-- A type that is met for the first time is gray while its references are followed. -/
theorem Visits.type (hr : r.WellFormed) (h : r.Visits enter (r.Refers id) (r.Broken id) x)
    (hid : (r.node id).isSchemaType = true)
    (hwalk : enter' id = fun seen =>
      if seen.contains (r.node id).type then .ok seen else x ((r.node id).type :: seen)) :
    r.Visits enter' (· = id) (fun _ => False) (enter' id) := by
  rw [hwalk]
  constructor
  case keeps =>
    intro seen seen' hx
    split at hx
    · cases hx
      exact List.Subset.refl _
    · exact List.Subset.trans (List.subset_cons_self _ _) (h.keeps hx)
  case meets =>
    intro seen seen' hx t ht
    split at hx
    · cases hx
      exact Or.inl ht
    · rcases h.meets hx t ht with ht | ht
      · rcases List.mem_cons.mp ht with rfl | ht
        · exact Or.inr ⟨id, id, rfl, .refl, hid, rfl⟩
        · exact Or.inl ht
      · exact Or.inr ht.of_refers
  case closes =>
    intro seen seen' gray hx hclosed
    split at hx
    · cases hx
      exact hclosed
    · have hgray : r.Closed ((r.node id).type :: seen) ((r.node id).type :: gray) := by
        intro i htype hmem hnot j hj
        have hne : (r.node i).type ≠ (r.node id).type := fun heq => hnot (heq ▸ by simp)
        have hold := hclosed i htype ((List.mem_cons.mp hmem).resolve_left hne)
          (fun hgray => hnot (List.mem_cons_of_mem _ hgray)) j hj
        exact hold.mono (List.subset_cons_self _ _)
      -- Its own references are covered now, and those of all others were covered before.
      intro i htype hmem hnot
      by_cases heq : (r.node i).type = (r.node id).type
      · obtain rfl := hr.type_unique htype hid heq
        exact h.covers hx
      · exact h.closes hx hgray i htype hmem fun hgray =>
          hnot ((List.mem_cons.mp hgray).resolve_left heq)
  case covers =>
    intro seen seen' hx s hs
    subst hs
    split at hx
    · next hmem =>
        cases hx
        exact .type hid (List.contains_iff_mem.mp hmem)
    · exact .type hid (h.keeps hx List.mem_cons_self)
  case fails =>
    intro seen e hx
    have hrun : enter' id seen = .error e := by rw [hwalk]; exact hx
    split at hx
    · cases hx
    · exact fails_of_refers hrun (h.fails hx)

theorem walk_of_type (hid : (r.node id).isSchemaType = true) (depth : Nat) (seen : Seen) :
    r.walk (depth + 1) id seen =
      if seen.contains (r.node id).type then .ok seen
      else r.walkReferences (r.walk depth) id ((r.node id).type :: seen) := by
  simp only [walk, hid, if_true]

theorem walk_of_not_type (hid : (r.node id).isSchemaType = false) (depth : Nat)
    (seen : Seen) : r.walk (depth + 1) id seen = r.walkReferences (r.walk depth) id seen := by
  simp only [walk, hid, Bool.false_eq_true, if_false]

theorem walk_visits (hr : r.WellFormed) (depth : Nat) : r.Enters (r.walk depth) := by
  induction depth with
  | zero =>
      intro id
      constructor
      case fails =>
        intro seen e h
        cases h
        exact Or.inl ⟨id, seen, rfl, List.Subset.refl _, rfl, rfl⟩
      all_goals exact fun h => nomatch h
  | succ depth ih =>
      intro id
      have hrefs := walkReferences_visits ih id
      cases hid : (r.node id).isSchemaType with
      | true => exact hrefs.type hr hid (funext (walk_of_type hid depth))
      | false =>
          have hwalk := funext (walk_of_not_type hid depth)
          rw [hwalk]
          exact hrefs.other hid hwalk

end Registry

end SchemaGraph
