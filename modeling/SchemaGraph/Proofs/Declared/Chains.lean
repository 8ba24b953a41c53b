import SchemaGraph.Proofs.Declared.Ancestry
import SchemaGraph.Proofs.Declared.Ends
import SchemaGraph.Proofs.Host.Lineage

/-!
# Chains and lineages

The links of objects are followed twice. The compiler goes from node to node, and stops
at a node that it has met before. The lineage keeps the links by host type, and a search
for a value goes along them without remembering where it has been. A host type stands for
one object at most, so both go the same way: where there is a chain a search comes to the
end of the chain, and where there is none because the links lead in a circle it comes to
no end.

What a search does to the value it is given is to see it along the links, one after the
other, up to the type asked for.
-/

set_option autoImplicit false

namespace SchemaGraph

/-- The value as it is seen along the links, one after the other. -/
def HostValue.along (v : HostValue) (links : List Extends) : Option HostValue :=
  links.foldlM (fun v link => link.upcast v) v

namespace Registry

variable {r : Registry}

/-- The links of objects to what they extend. -/
def links (r : Registry) (ids : List NodeId) : List Extends :=
  ids.filterMap fun id => (r.node id).object?.bind (·.extends?)

/-- Whatever extends an object does so by a link from its own type. -/
def OwnLinks (r : Registry) : Prop :=
  ∀ {id : NodeId} {n : ObjectNode} {link : Extends}, r.node id = .object n →
    n.extends? = some link → link.child = n.type

instance (r : Registry) : Decidable r.OwnLinks :=
  decidable_of_iff (∀ id < r.size, ∀ n ∈ (r.node id).object?, ∀ link ∈ n.extends?,
    link.child = n.type) <| by
    constructor
    · intro h id n link hn hextends
      have hid : id < r.size := lt_size_of_isSchemaType (by rw [hn]; rfl)
      exact h id hid n (by rw [hn]; rfl) link hextends
    · intro h id _ n hn link hextends
      cases hnode : r.node id with
      | object n' =>
          rw [hnode] at hn
          cases hn
          exact h hnode hextends
      | interface _ | inputObject _ | field _ | args _ | arg _ | inputField _
      | implement _ =>
          rw [hnode] at hn
          cases hn

/-! ## Chains

There is a chain exactly where the path of links has an end, and no object is met twice on
it. -/

theorem Parent.unique {o p q : NodeId} (hp : r.Parent o p) (hq : r.Parent o q) : p = q := by
  obtain ⟨n, link, hn, hlink, hp⟩ := hp
  obtain ⟨n', link', hn', hlink', hq⟩ := hq
  rw [hn] at hn'
  cases hn'
  rw [hlink] at hlink'
  cases hlink'
  exact Except.ok.inj (hp.symm.trans hq)

namespace ChainOf

variable {o a : NodeId} {chain : List NodeId}

theorem isObject (h : r.ChainOf o chain) : (r.node o).isObject = true := by
  cases h with
  | root hn _ => rw [hn]; rfl
  | child hn _ _ _ => rw [hn]; rfl

theorem isObject_of_mem (h : r.ChainOf o chain) (ha : a ∈ chain) :
    (r.node a).isObject = true := by
  induction h with
  | root hn _ =>
      rw [List.mem_singleton.mp ha, hn]
      rfl
  | child hn _ _ _ ih =>
      rcases List.mem_cons.mp ha with rfl | ha
      · rw [hn]
        rfl
      · exact ih ha

/-- What has a chain does not descend from itself by way of others. -/
theorem not_circle (h : r.ChainOf o chain) : ¬ Relation.TransGen r.Parent o o := by
  induction h with
  | root hn hextends =>
      intro hloop
      obtain ⟨p, ⟨n', link, hn', hlink, -⟩, -⟩ := Relation.TransGen.head'_iff.mp hloop
      rw [hn] at hn'
      cases hn'
      rw [hextends] at hlink
      cases hlink
  | @child id p n link rest hn hextends hp _ ih =>
      intro hloop
      have hparent : r.Parent id p := ⟨n, link, hn, hextends, hp⟩
      obtain ⟨p', hp', hback⟩ := Relation.TransGen.head'_iff.mp hloop
      obtain rfl := hparent.unique hp'
      exact ih (Relation.TransGen.tail' hback hparent)

/-- The chain of a descendant goes on with the chain of what it descends from. -/
theorem of_descends {d : NodeId} (hd : r.Descends d o) (h : r.ChainOf o chain) :
    ∃ below, r.ChainOf d (below ++ chain) := by
  induction hd using Relation.ReflTransGen.head_induction_on with
  | refl => exact ⟨[], h⟩
  | @head d p hparent _ ih =>
      obtain ⟨below, hbelow⟩ := ih
      obtain ⟨n, link, hn, hextends, hp⟩ := hparent
      exact ⟨d :: below, .child hn hextends hp hbelow⟩

/-- The walk gets to the end of the path: all that it has met descends from where it is,
and so is not the parent. -/
theorem chainFrom_eq_ok (h : r.ChainOf o chain) : ∀ {steps : Nat} {seen : List NodeId},
    chain.length ≤ steps + 1 → (∀ a ∈ seen, r.Descends a o) →
      r.chainFrom steps seen o = .ok chain := by
  induction h with
  | root hn hextends =>
      intro steps seen _ _
      unfold chainFrom
      simp only [hn, hextends]
  | @child id p n link rest hn hextends hp hrest ih =>
      intro steps seen hsteps hseen
      have hparent : r.Parent id p := ⟨n, link, hn, hextends, hp⟩
      have hnew : seen.contains p = false := by
        rw [← Bool.not_eq_true, List.contains_iff_mem]
        exact fun hmem => (child hn hextends hp hrest).not_circle
          (Relation.TransGen.head' hparent (hseen p hmem))
      have hlength : 0 < rest.length :=
        List.length_pos_of_mem (hrest.mem_iff.mpr (.refl : r.Descends p p))
      rw [List.length_cons] at hsteps
      obtain ⟨steps, rfl⟩ : ∃ k, steps = k + 1 := ⟨steps - 1, by omega⟩
      have hseen' : ∀ a ∈ p :: seen, r.Descends a p := by
        intro a ha
        rcases List.mem_cons.mp ha with rfl | ha
        · exact .refl
        · exact (hseen a ha).tail hparent
      have hwalk : r.chainFrom steps (p :: seen) p = .ok rest := ih (by omega) hseen'
      unfold chainFrom
      simp only [hn, hextends, hp, hnew, hwalk, Bool.false_eq_true, if_false]

/-- The path of links of an object, where it has an end, is its chain. -/
theorem chain_eq_ok (h : r.ChainOf o chain) : r.chain o = .ok chain := by
  rw [← chainFrom_eq_chain chain.length o]
  refine h.chainFrom_eq_ok (by omega) fun a ha => ?_
  rw [List.mem_singleton.mp ha]
  exact .refl

end ChainOf

/-! ## The lineage of a registry -/

/-- What a node brings into the lineage. -/
def brought? (r : Registry) (id : NodeId) : Option (HostType × Extends) :=
  (r.node id).object?.bind fun n => n.extends?.map (n.type, ·)

theorem lineage_eq (r : Registry) :
    r.lineage = OrderedMap.insertAll ∅ (r.schemaTypes.filterMap r.brought?) := by
  rw [OrderedMap.insertAll, List.foldl_filterMap, lineage]
  congr 1
  funext l id
  rw [brought?]
  cases hn : r.node id with
  | object n => cases hextends : n.extends? <;> simp [Node.object?, hextends]
  | interface _ | inputObject _ | field _ | args _ | arg _ | inputField _ | implement _ => rfl

theorem brought?_eq_some {id : NodeId} {t : HostType} {link : Extends} :
    r.brought? id = some (t, link) ↔
      ∃ n, r.node id = .object n ∧ n.type = t ∧ n.extends? = some link := by
  rw [brought?]
  cases hn : r.node id with
  | object n => simp [Node.object?, and_comm]
  | interface _ | inputObject _ | field _ | args _ | arg _ | inputField _ | implement _ =>
      simp [Node.object?]

/-- The lineage knows the links of all objects, whether or not they are compiled. -/
theorem WellFormed.find?_lineage (hr : r.WellFormed) {t : HostType} {link : Extends} :
    r.lineage.find? t = some link ↔
      ∃ id n, r.node id = .object n ∧ n.type = t ∧ n.extends? = some link := by
  have hmem : ∀ link, (t, link) ∈ (r.schemaTypes.filterMap r.brought?).reverse ↔
      ∃ id n, r.node id = .object n ∧ n.type = t ∧ n.extends? = some link := by
    intro link
    simp only [List.mem_reverse, List.mem_filterMap, brought?_eq_some, hr.mem_schemaTypes]
    constructor
    · rintro ⟨id, -, n, hn⟩
      exact ⟨id, n, hn⟩
    · rintro ⟨id, n, hn, hrest⟩
      exact ⟨id, by rw [hn]; rfl, n, hn, hrest⟩
  rw [lineage_eq, OrderedMap.find?_insertAll, OrderedMap.find?_empty, Option.or_none]
  constructor
  · intro hfind
    exact (hmem link).mp (OrderedMap.mem_of_lookup hfind)
  · rintro ⟨id, n, hn, htype, hextends⟩
    obtain ⟨link', hfind, hmem'⟩ :=
      OrderedMap.exists_lookup_of_mem ((hmem link).mpr ⟨id, n, hn, htype, hextends⟩)
    obtain ⟨id', n', hn', htype', hextends'⟩ := (hmem link').mp hmem'
    -- It is the link of an object of the same type, which is the same object.
    have hsame : id = id' := by
      refine hr.object_unique (by rw [hn]; rfl) (by rw [hn']; rfl) ?_
      rw [hn, hn']
      exact htype.trans htype'.symm
    rw [hsame, hn'] at hn
    cases hn
    rw [hextends'] at hextends
    rw [hfind, hextends]

theorem WellFormed.find?_lineage_object (hr : r.WellFormed) {id : NodeId} {n : ObjectNode}
    (hn : r.node id = .object n) : r.lineage.find? (r.node id).type = n.extends? := by
  refine Option.ext fun link => ?_
  rw [hr.find?_lineage]
  constructor
  · rintro ⟨id', n', hn', htype, hextends⟩
    have hsame : id = id' := by
      refine hr.object_unique (by rw [hn]; rfl) (by rw [hn']; rfl) ?_
      rw [hn']
      exact htype.symm
    rw [hsame, hn'] at hn
    cases hn
    exact hextends
  · intro hextends
    exact ⟨id, n, hn, by rw [hn]; rfl, hextends⟩

theorem OwnLinks.child_eq (hown : r.OwnLinks) {id : NodeId} {n : ObjectNode} {link : Extends}
    (hn : r.node id = .object n) (hextends : n.extends? = some link) :
    link.child = (r.node id).type := by
  rw [hown hn hextends, hn]
  rfl

theorem WellFormed.climbs (hr : r.WellFormed) (hown : r.OwnLinks) {id : NodeId}
    {n : ObjectNode} {link : Extends} {wanted : HostType} (hn : r.node id = .object n)
    (hextends : n.extends? = some link) (hne : (r.node id).type ≠ wanted) :
    r.lineage.Climbs wanted (r.node id).type link.parent :=
  ⟨hne, link, by rw [hr.find?_lineage_object hn, hextends], hown.child_eq hn hextends, rfl⟩

namespace ChainOf

variable {o a : NodeId} {chain above : List NodeId} {wanted : HostType} {v : HostValue}

/-- The head of a chain is the object whose chain it is; what comes after it is the chain
of the parent. -/
theorem of_cons {b : NodeId} {rest : List NodeId} (h : r.ChainOf o (b :: rest))
    (hrest : rest ≠ []) : b = o ∧ ∃ n link p, r.node o = .object n ∧
      n.extends? = some link ∧ r.getNode link.parent = .ok p ∧ r.ChainOf p rest := by
  cases h with
  | root _ _ => exact absurd rfl hrest
  | child hn hextends hp hrest => exact ⟨rfl, _, _, _, hn, hextends, hp, hrest⟩

/-- Further up a chain is the chain of what is there. -/
theorem suffix {below : List NodeId} : ∀ {o : NodeId}, r.ChainOf o (below ++ a :: above) →
    r.ChainOf a (a :: above) := by
  induction below with
  | nil =>
      intro o h
      have ha : a = o := by
        cases h with
        | root _ _ => rfl
        | child _ _ _ _ => rfl
      exact ha ▸ h
  | cons b below ih =>
      intro o h
      obtain ⟨-, _, _, p, -, -, -, hrest⟩ := of_cons h (by simp)
      exact ih hrest

/-- The parent at the end of a link is an object of the type that the link leads to. -/
theorem type_eq (h : r.ChainOf o chain) (hr : r.WellFormed) {t : HostType}
    (ho : r.getNode t = .ok o) : (r.node o).type = t := hr.type_of_getNode ho h.isObject

/-- From an object that has a chain no search gets into a circle. -/
theorem not_circles (hr : r.WellFormed) (h : r.ChainOf o chain) (wanted : HostType) :
    ¬ r.lineage.Circles wanted (r.node o).type := by
  induction h with
  | root hn hextends =>
      intro hcircles
      obtain ⟨p, ⟨-, link, hlink, -⟩, -⟩ := hcircles.step
      rw [hr.find?_lineage_object hn, hextends] at hlink
      cases hlink
  | child hn hextends hp hrest ih =>
      intro hcircles
      obtain ⟨p', ⟨-, link', hlink, -, rfl⟩, hcircles'⟩ := hcircles.step
      rw [hr.find?_lineage_object hn, hextends] at hlink
      cases hlink
      rw [← hrest.type_eq hr hp] at hcircles'
      exact ih hcircles'

/-- Up to an object on the chain a search sees the value along the links below it. -/
theorem follow_along (hr : r.WellFormed) (hown : r.OwnLinks) {below : List NodeId} :
    ∀ {o : NodeId} {v : HostValue}, r.ChainOf o (below ++ a :: above) →
      v.type = (r.node o).type → ∃ w, v.along (r.links below) = some w ∧
        ∀ steps, below.length ≤ steps →
          r.lineage.follow (r.node a).type steps v v.type = .found w := by
  induction below with
  | nil =>
      intro o v h hv
      have ha : a = o := by
        cases h with
        | root _ _ => rfl
        | child _ _ _ _ => rfl
      exact ⟨v, rfl, fun steps _ => Lineage.follow_found (by rw [hv, ha]) steps⟩
  | cons b below ih =>
      intro o v h hv
      obtain ⟨rfl, n, link, p, hn, hextends, hp, hrest⟩ := of_cons h (by simp)
      have hparent : r.Parent b p := ⟨n, link, hn, hextends, hp⟩
      obtain ⟨w, hw, hfollow⟩ := @ih p (v.seenAs link.parent) hrest
        (hrest.type_eq hr hp).symm
      refine ⟨w, ?_, fun steps hsteps => ?_⟩
      · have hup : link.upcast v = some (v.seenAs link.parent) :=
          if_pos (hv.trans (hown.child_eq hn hextends).symm)
        have hlinks : r.links (b :: below) = link :: r.links below := by
          simp [links, hn, Node.object?, hextends]
        rw [hlinks, HostValue.along, List.foldlM_cons, hup]
        exact hw
      · -- The object is not met here: it comes later, and nothing comes twice.
        have hne : (r.node b).type ≠ (r.node a).type := by
          intro htype
          have hmem : a ∈ below ++ a :: above := by simp
          have hsame : b = a :=
            hr.object_unique h.isObject (hrest.isObject_of_mem hmem) htype
          have hdescends : r.Descends p b := hsame ▸ hrest.mem_iff.mp hmem
          exact h.not_circle (Relation.TransGen.head' hparent hdescends)
        obtain ⟨steps, rfl⟩ : ∃ k, steps = k + 1 := ⟨steps - 1, by
          rw [List.length_cons] at hsteps
          omega⟩
        rw [List.length_cons] at hsteps
        rw [Lineage.follow_succ (hv ▸ hr.climbs hown hn hextends hne)]
        exact hfollow steps (by omega)

/-- A search for a type that is not on the chain comes to the end of the chain. -/
theorem follow_beyond (hr : r.WellFormed) (hown : r.OwnLinks) (h : r.ChainOf o chain) :
    ∀ {v : HostValue}, v.type = (r.node o).type → (∀ a ∈ chain, (r.node a).type ≠ wanted) →
      ∀ steps, chain.length ≤ steps → r.lineage.follow wanted steps v v.type = .absent := by
  induction h with
  | @root id n hn hextends =>
      intro v hv hwanted steps _
      have hne : v.type ≠ wanted := by
        rw [hv]
        exact hwanted id (List.mem_singleton_self id)
      refine Lineage.follow_absent hne ?_ steps
      rintro p ⟨-, link, hlink, -⟩
      rw [hv, hr.find?_lineage_object hn, hextends] at hlink
      cases hlink
  | @child id p n link rest hn hextends hp hrest ih =>
      intro v hv hwanted steps hsteps
      obtain ⟨hid, hothers⟩ := List.forall_mem_cons.mp hwanted
      rw [List.length_cons] at hsteps
      obtain ⟨steps, rfl⟩ : ∃ k, steps = k + 1 := ⟨steps - 1, by omega⟩
      rw [Lineage.follow_succ (hv ▸ hr.climbs hown hn hextends hid)]
      exact @ih (v.seenAs link.parent) (hrest.type_eq hr hp).symm hothers steps (by omega)

end ChainOf

/-! ## Circles

An object in a circle has no chain, and the lineage leads in the same circle. -/

/-- The links lead from the object back to it. -/
def InCircle (r : Registry) (o : NodeId) : Prop := Relation.TransGen r.Parent o o

theorem Parent.isObject {o p : NodeId} (h : r.Parent o p) : (r.node o).isObject = true := by
  obtain ⟨n, -, hn, -⟩ := h
  rw [hn]
  rfl

theorem isObject_of_transGen {o p : NodeId} (h : Relation.TransGen r.Parent o p) :
    (r.node o).isObject = true := by
  obtain ⟨q, hq, -⟩ := Relation.TransGen.head'_iff.mp h
  exact hq.isObject

theorem InCircle.isObject {o : NodeId} (h : r.InCircle o) : (r.node o).isObject = true :=
  isObject_of_transGen h

/-- What the links do between objects they do between their types. -/
theorem transGen_type {R : HostType → HostType → Prop}
    (hR : ∀ {a b}, r.Parent a b → (r.node b).isObject = true →
      R (r.node a).type (r.node b).type) {o p : NodeId}
    (h : Relation.TransGen r.Parent o p) (hp : (r.node p).isObject = true) :
    Relation.TransGen R (r.node o).type (r.node p).type := by
  induction h using Relation.TransGen.head_induction_on with
  | single hparent => exact .single (hR hparent hp)
  | head hparent hrest ih => exact .head (hR hparent (isObject_of_transGen hrest)) ih

namespace WellFormed

theorem next_of_parent (hr : r.WellFormed) {a b : NodeId} (h : r.Parent a b)
    (hb : (r.node b).isObject = true) : r.lineage.Next (r.node a).type (r.node b).type := by
  obtain ⟨n, link, hn, hextends, hparent⟩ := h
  exact ⟨link, by rw [hr.find?_lineage_object hn, hextends],
    (hr.type_of_getNode hparent hb).symm⟩

theorem parent_of_next (hr : r.WellFormed) {a b : NodeId} (ha : (r.node a).isObject = true)
    (hb : (r.node b).isObject = true) (h : r.lineage.Next (r.node a).type (r.node b).type) :
    r.Parent a b := by
  obtain ⟨link, hlink, hparent⟩ := h
  obtain ⟨n, hn⟩ := Node.exists_of_isObject ha
  rw [hr.find?_lineage_object hn] at hlink
  exact ⟨n, link, hn, hlink, hparent ▸ hr.getNode_type (Node.isSchemaType_of_isObject hb)⟩

/-- What has a link in the lineage is the type of an object. -/
theorem exists_of_transGen_next (hr : r.WellFormed) {t u : HostType}
    (h : Relation.TransGen r.lineage.Next t u) :
    ∃ o, (r.node o).isObject = true ∧ (r.node o).type = t := by
  obtain ⟨p, ⟨link, hlink, -⟩, -⟩ := Relation.TransGen.head'_iff.mp h
  obtain ⟨o, n, hn, htype, -⟩ := hr.find?_lineage.mp hlink
  exact ⟨o, by rw [hn]; rfl, by rw [hn]; exact htype⟩

theorem transGen_parent (hr : r.WellFormed) {t u : HostType}
    (h : Relation.TransGen r.lineage.Next t u) {p : NodeId}
    (hp : (r.node p).isObject = true) (htype : (r.node p).type = u) :
    ∀ {o : NodeId}, (r.node o).isObject = true → (r.node o).type = t →
      Relation.TransGen r.Parent o p := by
  induction h using Relation.TransGen.head_induction_on with
  | single hnext =>
      rintro o ho rfl
      rw [← htype] at hnext
      exact .single (hr.parent_of_next ho hp hnext)
  | head hnext hrest ih =>
      rintro o ho rfl
      obtain ⟨q, hq, rfl⟩ := hr.exists_of_transGen_next hrest
      exact .head (hr.parent_of_next ho hq hnext) (ih hq rfl)

/-- The lineage leads in a circle where objects do. -/
theorem circle_iff (hr : r.WellFormed) :
    (∃ t, Relation.TransGen r.lineage.Next t t) ↔ ∃ o, r.InCircle o := by
  constructor
  · rintro ⟨t, h⟩
    obtain ⟨o, ho, htype⟩ := hr.exists_of_transGen_next h
    exact ⟨o, hr.transGen_parent h ho htype ho htype⟩
  · rintro ⟨o, h⟩
    exact ⟨_, transGen_type hr.next_of_parent h h.isObject⟩

end WellFormed

/-- From an object in a circle a search for a type that has no link never ends. -/
theorem InCircle.circles (hr : r.WellFormed) (hown : r.OwnLinks) {o : NodeId}
    (h : r.InCircle o) {wanted : HostType} (hwanted : wanted ∉ r.lineage.keys) :
    r.lineage.Circles wanted (r.node o).type := by
  have hclimbs : ∀ {a b}, r.Parent a b → (r.node b).isObject = true →
      r.lineage.Climbs wanted (r.node a).type (r.node b).type := by
    rintro a b ⟨n, link, hn, hextends, hparent⟩ hb
    have hlink := hr.find?_lineage_object hn
    rw [hr.type_of_getNode hparent hb]
    refine hr.climbs hown hn hextends fun heq => hwanted ?_
    rw [← heq, OrderedMap.mem_keys_iff]
    exact OrderedMap.contains_of_find? (hlink.trans hextends)
  exact ⟨_, .refl, transGen_type hclimbs h h.isObject⟩

end Registry

end SchemaGraph
