import Mathlib.Logic.Relation
import SchemaGraph.Compile.Types
import SchemaGraph.Proofs.Declared.WellFormed

/-!
# Ancestors and implementers, both ways

A chain lists what an object descends from, so descending is membership in a
chain, and the descendants of an object are the objects that have it on theirs.
An object inherits an interface when an implements edge leads to it from
anywhere on the chain. From the object that is a matter of its chain and the
edges on it; from the interface it is a matter of the objects that noted it and
of their descendants. In a well-formed registry both say the same.
-/

set_option autoImplicit false

namespace SchemaGraph

namespace Registry

variable {r : Registry}

/-- The link from an object to the one it extends. -/
def Parent (r : Registry) (o p : NodeId) : Prop :=
  ∃ n link, r.node o = .object n ∧ n.extends? = some link ∧ r.getNode link.parent = .ok p

/-- An object descends from itself, from the object it extends, from the object
that one extends, and so on. -/
def Descends (r : Registry) : NodeId → NodeId → Prop := Relation.ReflTransGen r.Parent

/-- An implements edge leads from the object to the interface. -/
def Implements (r : Registry) (o i : NodeId) : Prop :=
  ∃ e ∈ r.edgesOf o, r.target? e = some i

/-- An implements edge leads to the interface from the object or from one that it
descends from. -/
def Inherits (r : Registry) (o i : NodeId) : Prop :=
  ∃ a, r.Descends o a ∧ r.Implements a i

/-! ## Chains -/

/-- An object that extends nothing descends from itself alone. -/
theorem descends_root {id a : NodeId} {n : ObjectNode} (hn : r.node id = .object n)
    (hextends : n.extends? = none) : r.Descends id a ↔ a = id := by
  constructor
  · intro h
    rcases Relation.ReflTransGen.cases_head h with rfl | ⟨_, ⟨n', link, hn', hlink, -⟩, -⟩
    · rfl
    · rw [hn] at hn'
      cases hn'
      rw [hextends] at hlink
      cases hlink
  · rintro rfl
    exact .refl

/-- Any other descends from itself and from what its parent descends from. -/
theorem descends_child {id p a : NodeId} {n : ObjectNode} {link : Extends}
    (hn : r.node id = .object n) (hextends : n.extends? = some link)
    (hp : r.getNode link.parent = .ok p) :
    r.Descends id a ↔ a = id ∨ r.Descends p a := by
  constructor
  · intro h
    rcases Relation.ReflTransGen.cases_head h with
      rfl | ⟨p', ⟨n', link', hn', hlink', hp'⟩, hrest⟩
    · exact Or.inl rfl
    · rw [hn] at hn'
      cases hn'
      rw [hextends] at hlink'
      cases hlink'
      rw [hp] at hp'
      cases hp'
      exact Or.inr hrest
  · rintro (rfl | h)
    · exact .refl
    · exact .head ⟨n, link, hn, hextends, hp⟩ h

/-- A chain ends with an object that extends nothing, or goes on with the chain
of the parent. -/
theorem chainFrom_cases {steps : Nat} {seen chain : List NodeId} {id : NodeId}
    (h : r.chainFrom steps seen id = .ok chain) :
    ∃ n, r.node id = .object n ∧ (n.extends? = none ∧ chain = [id] ∨
      ∃ link p steps' rest, n.extends? = some link ∧ r.getNode link.parent = .ok p ∧
        steps = steps' + 1 ∧ r.chainFrom steps' (p :: seen) p = .ok rest ∧
        chain = id :: rest) := by
  unfold chainFrom at h
  cases hn : r.node id with
  | object n =>
      refine ⟨n, rfl, ?_⟩
      cases hextends : n.extends? with
      | none =>
          simp only [hn, hextends, Except.ok.injEq] at h
          exact Or.inl ⟨rfl, h.symm⟩
      | some link =>
          cases hp : r.getNode link.parent with
          | error e => simp [hn, hextends, hp] at h
          | ok p =>
              simp only [hn, hextends, hp] at h
              split at h
              · cases h
              · cases steps with
                | zero => cases h
                | succ steps =>
                    cases hrest : r.chainFrom steps (p :: seen) p with
                    | error e => simp [hrest] at h
                    | ok rest =>
                        simp only [hrest, Except.ok.injEq] at h
                        exact Or.inr ⟨link, p, steps, rest, rfl, hp, rfl, hrest, h.symm⟩
  | interface _ | inputObject _ | field _ | args _ | arg _ | inputField _ | implement _ =>
      simp only [hn] at h
      cases h

/-- The path of extends links from an object on: itself, the object it extends,
and so on to one that extends nothing. -/
inductive ChainOf (r : Registry) : NodeId → List NodeId → Prop
  | root {id : NodeId} {n : ObjectNode} : r.node id = .object n → n.extends? = none →
      ChainOf r id [id]
  | child {id p : NodeId} {n : ObjectNode} {link : Extends} {rest : List NodeId} :
      r.node id = .object n → n.extends? = some link → r.getNode link.parent = .ok p →
      ChainOf r p rest → ChainOf r id (id :: rest)

theorem chainOf_of_chainFrom {steps : Nat} :
    ∀ {seen chain : List NodeId} {id : NodeId}, r.chainFrom steps seen id = .ok chain →
      r.ChainOf id chain := by
  induction steps with
  | zero =>
      intro seen chain id h
      obtain ⟨n, hn, ⟨hextends, rfl⟩ | ⟨_, _, _, _, -, -, hsteps, -⟩⟩ := chainFrom_cases h
      · exact .root hn hextends
      · cases hsteps
  | succ steps ih =>
      intro seen chain id h
      obtain ⟨n, hn, ⟨hextends, rfl⟩ | ⟨link, p, _, rest, hextends, hp, hsteps, hrest, rfl⟩⟩ :=
        chainFrom_cases h
      · exact .root hn hextends
      · cases hsteps
        exact .child hn hextends hp (ih hrest)

/-- The chain of an object is that path. -/
theorem chainOf_of_chain {id : NodeId} {chain : List NodeId} (h : r.chain id = .ok chain) :
    r.ChainOf id chain := chainOf_of_chainFrom h

/-- Such a path lists what its first object descends from. -/
theorem ChainOf.mem_iff {o a : NodeId} {chain : List NodeId} (h : r.ChainOf o chain) :
    a ∈ chain ↔ r.Descends o a := by
  induction h with
  | root hn hextends => rw [descends_root hn hextends, List.mem_singleton]
  | child hn hextends hp _ ih => rw [descends_child hn hextends hp, List.mem_cons, ih]

theorem mem_chain {o a : NodeId} {chain : List NodeId} (h : r.chain o = .ok chain) :
    a ∈ chain ↔ r.Descends o a := (chainOf_of_chain h).mem_iff

/-- Implementing something takes an object. -/
theorem isObject_of_implements {o i : NodeId} (h : r.Implements o i) :
    (r.node o).isObject = true := by
  obtain ⟨e, he, -⟩ := h
  unfold edgesOf Node.edges at he
  unfold Node.isObject
  cases hn : (r.node o).object? with
  | none => simp [hn] at he
  | some n => rfl

/-- So does inheriting something. -/
theorem isObject_of_inherits {o i : NodeId} (h : r.Inherits o i) :
    (r.node o).isObject = true := by
  obtain ⟨a, hdescends, himplements⟩ := h
  rcases Relation.ReflTransGen.cases_head hdescends with rfl | ⟨_, ⟨n, _, hn, -⟩, -⟩
  · exact isObject_of_implements himplements
  · rw [hn]
    rfl

/-- The targets of edges are collected, none twice and none left out. -/
theorem mem_foldl_targets {i : NodeId} {edges : List NodeId} :
    ∀ {found : List NodeId}, i ∈ edges.foldl
      (fun found edge =>
        match (r.node edge).implement? with
        | some e => if found.contains e.interface then found else found ++ [e.interface]
        | none => found) found ↔ i ∈ found ∨ ∃ e ∈ edges, r.target? e = some i := by
  induction edges with
  | nil => simp
  | cons e rest ih =>
      intro found
      rw [List.foldl_cons, ih]
      cases hm : (r.node e).implement? with
      | none => simp [target?, hm]
      | some m =>
          have htarget : r.target? e = some i ↔ i = m.interface := by
            simp [target?, hm, eq_comm]
          simp only [List.mem_cons, exists_eq_or_imp, htarget]
          split
          · next hmem =>
              constructor
              · rintro (h | h)
                · exact Or.inl h
                · exact Or.inr (Or.inr h)
              · rintro (h | rfl | h)
                · exact Or.inl h
                · exact Or.inl (by simpa using hmem)
                · exact Or.inr h
          · rw [List.mem_append, List.mem_singleton, or_assoc]

/-- The interfaces of a chain are those that its objects implement. -/
theorem mem_chainInterfaces {chain : List NodeId} {i : NodeId} :
    i ∈ Compile.chainInterfaces r chain ↔ ∃ a ∈ chain, r.Implements a i := by
  refine Iff.trans mem_foldl_targets ?_
  simp only [List.not_mem_nil, false_or, List.mem_flatMap]
  constructor
  · rintro ⟨e, ⟨a, ha, he⟩, htarget⟩
    exact ⟨a, ha, e, he, htarget⟩
  · rintro ⟨a, ha, e, he, htarget⟩
    exact ⟨e, ⟨a, ha, he⟩, htarget⟩

/-! ## Descendants and implementers -/

theorem filterMapM_cons_eq_ok {α β : Type} {f : α → Except SchemaError (Option β)} {a : α}
    {rest : List α} {found : List β} (h : (a :: rest).filterMapM f = .ok found) :
    ∃ b? found', f a = .ok b? ∧ rest.filterMapM f = .ok found' ∧
      found = b?.toList ++ found' := by
  rw [List.filterMapM_cons] at h
  cases hf : f a with
  | error e => simp [hf, bind, Except.bind] at h
  | ok b? =>
      cases b? with
      | none =>
          simp only [hf, bind, Except.bind] at h
          exact ⟨none, found, rfl, h, rfl⟩
      | some b =>
          simp only [hf, bind, Except.bind] at h
          cases hrest : rest.filterMapM f with
          | error e => simp [hrest] at h
          | ok found' =>
              simp only [hrest, pure, Except.pure, Except.ok.injEq] at h
              exact ⟨some b, found', rfl, rfl, h.symm⟩

theorem filterMapM_eq_ok {α β : Type} {f : α → Except SchemaError (Option β)} {l : List α} :
    ∀ {found : List β}, l.filterMapM f = .ok found →
      (∀ a ∈ l, ∃ b?, f a = .ok b?) ∧ ∀ b, b ∈ found ↔ ∃ a ∈ l, f a = .ok (some b) := by
  induction l with
  | nil =>
      intro found h
      cases h
      simp
  | cons a rest ih =>
      intro found h
      obtain ⟨b?, found', hf, hrest, rfl⟩ := filterMapM_cons_eq_ok h
      obtain ⟨hall, hmem⟩ := ih hrest
      refine ⟨List.forall_mem_cons.mpr ⟨⟨b?, hf⟩, hall⟩, fun b => ?_⟩
      rw [List.mem_append, hmem]
      simp only [Option.mem_toList, List.mem_cons, exists_eq_or_imp, hf, Except.ok.injEq]

/-- Looking through the chains of all objects but those of `P` for those that pass
`T`. Every chain that is looked at must exist. -/
theorem filterMapM_chain_eq_ok (P : NodeId → Prop) [DecidablePred P]
    (T : List NodeId → Bool) {found : List NodeId}
    (h : r.objects.filterMapM (fun o =>
      if P o then Except.ok none
      else
        match r.chain o with
        | .error e => .error e
        | .ok chain => .ok (if T chain then some o else none)) = .ok found) :
    (∀ o ∈ r.objects, ¬ P o → ∃ chain, r.chain o = .ok chain) ∧
      ∀ o, o ∈ found ↔ o ∈ r.objects ∧ ¬ P o ∧
        ∃ chain, r.chain o = .ok chain ∧ T chain = true := by
  obtain ⟨hall, hmem⟩ := filterMapM_eq_ok h
  have hexists : ∀ o ∈ r.objects, ¬ P o → ∃ chain, r.chain o = .ok chain := by
    intro o ho hskip
    obtain ⟨b?, hb⟩ := hall o ho
    rw [if_neg hskip] at hb
    cases hchain : r.chain o with
    | error e => simp [hchain] at hb
    | ok chain => exact ⟨chain, rfl⟩
  refine ⟨hexists, fun o => ?_⟩
  rw [hmem]
  constructor
  · rintro ⟨o', ho', hf⟩
    split at hf
    · cases hf
    · next hskip =>
        obtain ⟨chain, hchain⟩ := hexists o' ho' hskip
        simp only [hchain, Except.ok.injEq] at hf
        split at hf
        · next htest =>
            cases hf
            exact ⟨ho', hskip, chain, hchain, htest⟩
        · cases hf
  · rintro ⟨ho, hskip, chain, hchain, htest⟩
    refine ⟨o, ho, ?_⟩
    rw [if_neg hskip]
    simp only [hchain, htest, if_true]

/-- A host type stands for the type declared for it, or else for the bundle. -/
theorem getNode_eq_ok {t : HostType} {id : NodeId} : r.getNode t = .ok id ↔
    r.types.find? t = some id ∨ r.types.find? t = none ∧ r.args.find? t = some id := by
  rw [← Option.or_eq_some_iff, getNode, ← find?]
  cases r.find? t with
  | none => simp
  | some i => simp

namespace WellFormed

theorem mem_schemaTypes (h : r.WellFormed) {id : NodeId} :
    id ∈ r.schemaTypes ↔ (r.node id).isSchemaType = true := by
  unfold schemaTypes
  rw [OrderedMap.mem_values]
  constructor
  · rintro ⟨t, ht⟩
    exact (h.declared (OrderedMap.find?_eq_some_iff.mpr ht)).1
  · intro hid
    exact ⟨_, OrderedMap.mem_of_find? (h.registered hid)⟩

theorem mem_objects (h : r.WellFormed) {o : NodeId} :
    o ∈ r.objects ↔ (r.node o).isObject = true := by
  unfold objects
  rw [List.mem_filter, h.mem_schemaTypes]
  constructor
  · exact fun ho => ho.2
  · exact fun ho => ⟨Node.isSchemaType_of_isObject ho, ho⟩

/-- A host type stands for one type at most. -/
theorem type_unique (h : r.WellFormed) {id id' : NodeId}
    (hid : (r.node id).isSchemaType = true) (hid' : (r.node id').isSchemaType = true)
    (htype : (r.node id).type = (r.node id').type) : id = id' := by
  have hfind := h.registered hid
  rw [htype, h.registered hid'] at hfind
  exact (Option.some.inj hfind).symm

theorem object_unique (h : r.WellFormed) {o o' : NodeId} (ho : (r.node o).isObject = true)
    (ho' : (r.node o').isObject = true) (htype : (r.node o).type = (r.node o').type) :
    o = o' :=
  h.type_unique (Node.isSchemaType_of_isObject ho) (Node.isSchemaType_of_isObject ho') htype

/-- The host type of a declared type stands for it. -/
theorem getNode_type (h : r.WellFormed) {id : NodeId} (hid : (r.node id).isSchemaType = true) :
    r.getNode (r.node id).type = .ok id := by
  rw [getNode_eq_ok]
  exact Or.inl (h.registered hid)

/-- The type that a host type stands for is declared on its behalf. -/
theorem type_of_getNode_schema (h : r.WellFormed) {t : HostType} {id : NodeId}
    (hid : r.getNode t = .ok id) (hschema : (r.node id).isSchemaType = true) :
    (r.node id).type = t := by
  rw [getNode_eq_ok] at hid
  rcases hid with htype | ⟨-, hargs⟩
  · exact (h.declared htype).2
  · obtain ⟨a, ha⟩ := h.bundled hargs
    rw [ha] at hschema
    cases hschema

theorem type_of_getNode (h : r.WellFormed) {t : HostType} {id : NodeId}
    (hid : r.getNode t = .ok id) (hobject : (r.node id).isObject = true) :
    (r.node id).type = t :=
  h.type_of_getNode_schema hid (Node.isSchemaType_of_isObject hobject)

/-- What is noted on an interface is what implements it. -/
theorem mem_implementersOf (h : r.WellFormed) {o i : NodeId} :
    o ∈ r.implementersOf i ↔ r.Implements o i := by
  rw [← List.count_pos_iff, h.implementers i o, List.countP_pos_iff]
  simp only [decide_eq_true_eq, Implements]

end WellFormed

/-- The descendants of an object are the other objects that descend from it. -/
theorem mem_descendants {id : NodeId} {found : List NodeId}
    (h : r.descendants id = .ok found) {o : NodeId} :
    o ∈ found ↔ o ∈ r.objects ∧ o ≠ id ∧ r.Descends o id := by
  obtain ⟨hchains, hmem⟩ :=
    filterMapM_chain_eq_ok (fun o => o = id) (fun chain => chain.contains id) h
  rw [hmem]
  constructor
  · rintro ⟨ho, hne, chain, hchain, hpass⟩
    exact ⟨ho, hne, (mem_chain hchain).mp (by simpa using hpass)⟩
  · rintro ⟨ho, hne, hdescends⟩
    obtain ⟨chain, hchain⟩ := hchains o ho hne
    exact ⟨ho, hne, chain, hchain, by simpa using (mem_chain hchain).mpr hdescends⟩

/-- To find the descendants of an object the chains of all others must exist. -/
theorem chain_of_descendants {id o : NodeId} {found : List NodeId}
    (h : r.descendants id = .ok found) (ho : o ∈ r.objects) (hne : o ≠ id) :
    ∃ chain, r.chain o = .ok chain :=
  (filterMapM_chain_eq_ok (fun o => o = id) (fun chain => chain.contains id) h).1 o ho hne

/-- Objects that do not say so themselves inherit from one that does. -/
theorem mem_inheritors {direct found : List NodeId} (h : r.inheritors direct = .ok found)
    {o : NodeId} :
    o ∈ found ↔ o ∈ r.objects ∧ o ∉ direct ∧ ∃ a ∈ direct, r.Descends o a := by
  obtain ⟨hchains, hmem⟩ := filterMapM_chain_eq_ok (fun o => direct.contains o = true)
    (fun chain => chain.any direct.contains) h
  rw [hmem, List.contains_iff_mem]
  constructor
  · rintro ⟨ho, hnot, chain, hchain, hpass⟩
    obtain ⟨a, ha, hdirect⟩ := List.any_eq_true.mp hpass
    exact ⟨ho, hnot, a, List.contains_iff_mem.mp hdirect, (mem_chain hchain).mp ha⟩
  · rintro ⟨ho, hnot, a, ha, hdescends⟩
    obtain ⟨chain, hchain⟩ := hchains o ho (by rwa [List.contains_iff_mem])
    exact ⟨ho, hnot, chain, hchain, List.any_eq_true.mpr
      ⟨a, (mem_chain hchain).mpr hdescends, List.contains_iff_mem.mpr ha⟩⟩

/-- The implementers of an interface are those it noted, then those that inherit
from one of them. -/
theorem implementers_eq_ok {i : NodeId} {found : List NodeId}
    (h : r.implementers i = .ok found) :
    ∃ more, r.inheritors (r.implementersOf i) = .ok more ∧
      found = r.implementersOf i ++ more := by
  unfold implementers at h
  cases hn : r.node i with
  | interface n =>
      have hnoted : r.implementersOf i = n.implementers := by
        rw [implementersOf, hn]
        rfl
      rw [hnoted]
      cases hmore : r.inheritors n.implementers with
      | error e => simp [hn, hmore] at h
      | ok more =>
          simp only [hn, hmore, Except.ok.injEq] at h
          exact ⟨more, rfl, h.symm⟩
  | object _ | inputObject _ | field _ | args _ | arg _ | inputField _ | implement _ =>
      simp only [hn] at h
      cases h

/-- To find the implementers of an interface the chains of all other objects must
exist. -/
theorem chain_of_implementers {i o : NodeId} {found : List NodeId}
    (h : r.implementers i = .ok found) (ho : o ∈ r.objects) (hnot : o ∉ found) :
    ∃ chain, r.chain o = .ok chain := by
  obtain ⟨more, hmore, rfl⟩ := implementers_eq_ok h
  refine (filterMapM_chain_eq_ok (fun o => (r.implementersOf i).contains o = true)
    (fun chain => chain.any (r.implementersOf i).contains) hmore).1 o ho ?_
  rw [List.contains_iff_mem]
  exact fun hmem => hnot (List.mem_append_left _ hmem)

/-- The implementers of an interface are the objects that inherit it. -/
theorem WellFormed.mem_implementers (hr : r.WellFormed) {i : NodeId} {found : List NodeId}
    (h : r.implementers i = .ok found) {o : NodeId} : o ∈ found ↔ r.Inherits o i := by
  obtain ⟨more, hmore, rfl⟩ := implementers_eq_ok h
  rw [List.mem_append, mem_inheritors hmore, hr.mem_implementersOf]
  constructor
  · rintro (himplements | ⟨-, -, a, ha, hdescends⟩)
    · exact ⟨o, .refl, himplements⟩
    · exact ⟨a, hdescends, hr.mem_implementersOf.mp ha⟩
  · rintro ⟨a, hdescends, himplements⟩
    by_cases ho : r.Implements o i
    · exact Or.inl ho
    · have hobject := isObject_of_inherits ⟨a, hdescends, himplements⟩
      exact Or.inr ⟨hr.mem_objects.mpr hobject, ho, a,
        hr.mem_implementersOf.mpr himplements, hdescends⟩

end Registry

end SchemaGraph
