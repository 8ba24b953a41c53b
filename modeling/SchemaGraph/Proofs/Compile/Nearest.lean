import SchemaGraph.Proofs.Compile.Unions
import SchemaGraph.Proofs.Declared.Chains

/-!
# Which member stands for an instance

The table of a union lists the members, then for each member, in the order of the members,
the objects that extend it; and of several entries for a host type the first one counts.
So an object that is a member stands for itself. An object that is none has an entry for
every member on its chain, and what counts is not which of these is nearest to it but which
is listed first. The two are the same as long as no member is listed before one that
extends it.
-/

set_option autoImplicit false

namespace SchemaGraph

variable {r : Registry} {d : UnionDef} {o : NodeId} {chain : List NodeId}

namespace Registry

/-- The first member on a chain. -/
def nearest? (r : Registry) (members : List HostType) (chain : List NodeId) : Option NodeId :=
  chain.find? fun a => members.contains (r.node a).type

/-- Of the members on a chain the one that is listed first. -/
def firstListed? (r : Registry) (members : List HostType) (chain : List NodeId) :
    Option NodeId :=
  members.findSome? fun t => chain.find? fun a => (r.node a).type = t

/-- No member is listed before one that extends it. -/
def ListsHeirsFirst (r : Registry) (members : List HostType) : Prop :=
  members.Pairwise fun t t' => ∀ a a', r.getNode t = .ok a → r.getNode t' = .ok a' →
    r.Descends a' a → a' = a

namespace ChainOf

variable {members : List HostType}

/-- A host type stands on a chain for one object at most. -/
theorem find?_type (hr : r.WellFormed) (h : r.ChainOf o chain) {id : NodeId}
    (hid : (r.node id).isObject = true) :
    chain.find? (fun a => (r.node a).type = (r.node id).type)
      = if id ∈ chain then some id else none := by
  split
  · next hmem =>
      have hsome : (chain.find? fun a => (r.node a).type = (r.node id).type).isSome :=
        List.find?_isSome.mpr ⟨id, hmem, by simp⟩
      obtain ⟨a, ha⟩ := Option.isSome_iff_exists.mp hsome
      have htype : (r.node a).type = (r.node id).type := by simpa using List.find?_some ha
      rw [ha, hr.object_unique (h.isObject_of_mem (List.mem_of_find?_eq_some ha)) hid htype]
  · next hnot =>
      refine List.find?_eq_none.mpr fun a ha htype => hnot ?_
      rw [← hr.object_unique (h.isObject_of_mem ha) hid (by simpa using htype)]
      exact ha

theorem nearest?_of_mem (h : r.ChainOf o chain) (ho : (r.node o).type ∈ members) :
    r.nearest? members chain = some o := by
  cases h with
  | root _ _ => simp [nearest?, ho]
  | child _ _ _ _ => simp [nearest?, ho]

/-- The member that is listed first is one of those on the chain. -/
theorem firstListed?_eq_some {first : NodeId} (h : r.firstListed? members chain = some first) :
    ∃ before after, members = before ++ (r.node first).type :: after ∧ first ∈ chain ∧
      ∀ a ∈ chain, (r.node a).type ∉ before := by
  obtain ⟨before, t, after, hsplit, hfirst, hbefore⟩ := List.findSome?_eq_some_iff.mp h
  have htype : (r.node first).type = t := by simpa using List.find?_some hfirst
  refine ⟨before, after, htype ▸ hsplit, List.mem_of_find?_eq_some hfirst, fun a ha hmem => ?_⟩
  have hnone := List.find?_eq_none.mp (hbefore _ hmem) a ha
  simp at hnone

/-- There is a nearest member where there is one that is listed first. -/
theorem exists_firstListed? {near : NodeId} (h : r.nearest? members chain = some near) :
    ∃ first, r.firstListed? members chain = some first := by
  refine Option.isSome_iff_exists.mp (List.findSome?_isSome_iff.mpr ?_)
  have hmem : (r.node near).type ∈ members := by simpa using List.find?_some h
  exact ⟨_, hmem, List.find?_isSome.mpr ⟨near, List.mem_of_find?_eq_some h, by simp⟩⟩

/-- Where heirs are listed first the nearest member is. -/
theorem nearest?_eq_firstListed? (hr : r.WellFormed) (h : r.ChainOf o chain)
    (hheirs : r.ListsHeirsFirst members) {near first : NodeId}
    (hnear : r.nearest? members chain = some near)
    (hfirst : r.firstListed? members chain = some first) : near = first := by
  obtain ⟨hmember, below, above, hchain, hbelow⟩ := List.find?_eq_some_iff_append.mp hnear
  obtain ⟨before, after, hmembers, hmem, hbefore⟩ := firstListed?_eq_some hfirst
  have hnear_mem : near ∈ chain := List.mem_of_find?_eq_some hnear
  have hobject : ∀ {a}, a ∈ chain → r.getNode (r.node a).type = .ok a := fun ha =>
    hr.getNode_type (Node.isSchemaType_of_isObject (h.isObject_of_mem ha))
  -- The one listed first is on the chain, and not below the nearest.
  have hdescends : r.Descends near first := by
    rw [hchain] at h hmem
    refine h.suffix.mem_iff.mp ((List.mem_append.mp hmem).resolve_left fun hlow => ?_)
    have hnot := hbelow first hlow
    simp [hmembers] at hnot
  have hlisted : (r.node near).type ∈ members := by simpa using hmember
  rw [ListsHeirsFirst, hmembers, List.pairwise_append] at hheirs
  rw [hmembers] at hlisted
  rcases List.mem_append.mp hlisted with hearly | hlate
  · exact absurd hearly (hbefore near hnear_mem)
  · rcases List.mem_cons.mp hlate with hsame | hlate
    · exact hr.object_unique (h.isObject_of_mem hnear_mem) (h.isObject_of_mem hmem) hsame
    · exact (List.pairwise_cons.mp hheirs.2.1).1 _ hlate first near (hobject hmem)
        (hobject hnear_mem) hdescends

end ChainOf

end Registry

/-! ## The table of a union -/

namespace Meaning

variable {members : List HostType} {ms ds : List (HostType × String)}

theorem lookup_member (hr : r.WellFormed) (h : unionMembers r members = .ok (ms, ds))
    (ho : (r.node o).isObject = true) (hmem : (r.node o).type ∈ members) :
    ms.lookup (r.node o).type = some (r.node o).displayName := by
  obtain ⟨-, hms, -⟩ := unionMembers_eq_ok h
  have hnode := hr.getNode_type (Node.isSchemaType_of_isObject ho)
  obtain ⟨name, hfind, hentry⟩ := OrderedMap.exists_lookup_of_mem
    ((hms _).mpr ⟨_, hmem, o, hnode, rfl⟩)
  obtain ⟨t, -, id, hid, heq⟩ := (hms _).mp hentry
  obtain ⟨rfl, rfl⟩ := Prod.mk.inj heq
  obtain rfl := Except.ok.inj (hnode.symm.trans hid)
  exact hfind

theorem lookup_not_member (h : unionMembers r members = .ok (ms, ds)) {t : HostType}
    (ht : t ∉ members) : ms.lookup t = none := by
  obtain ⟨-, hms, -⟩ := unionMembers_eq_ok h
  refine OrderedMap.lookup_eq_none fun name hentry => ht ?_
  obtain ⟨t', ht', id, -, heq⟩ := (hms _).mp hentry
  obtain ⟨rfl, -⟩ := Prod.mk.inj heq
  exact ht'

/-- Among the objects that extend a member is every other object with the member on its
chain. -/
theorem lookup_extending (hr : r.WellFormed) (hchain : r.ChainOf o chain) {id : NodeId}
    {extending : List NodeId} (h : r.descendants id = .ok extending) (hne : o ≠ id)
    (name : String) : (extending.map fun i => ((r.node i).type, name)).lookup (r.node o).type
      = if id ∈ chain then some name else none := by
  split
  · next hmem =>
      have ho : o ∈ extending := (Registry.mem_descendants h).mpr
        ⟨hr.mem_objects.mpr hchain.isObject, hne, hchain.mem_iff.mp hmem⟩
      have hmapped : ((r.node o).type, name) ∈ extending.map fun i => ((r.node i).type, name) :=
        List.mem_map.mpr ⟨o, ho, rfl⟩
      obtain ⟨name', hfind, hentry⟩ := OrderedMap.exists_lookup_of_mem hmapped
      obtain ⟨_, -, heq⟩ := List.mem_map.mp hentry
      rw [hfind, (Prod.mk.inj heq).2]
  · next hnot =>
      refine OrderedMap.lookup_eq_none fun name' hentry => hnot ?_
      obtain ⟨i, hi, heq⟩ := List.mem_map.mp hentry
      obtain ⟨hobject, -, hdescends⟩ := (Registry.mem_descendants h).mp hi
      rw [hr.object_unique (hr.mem_objects.mp hobject) hchain.isObject (Prod.mk.inj heq).1]
        at hdescends
      exact hchain.mem_iff.mpr hdescends

theorem lookup_descendant (hr : r.WellFormed) (hchain : r.ChainOf o chain) :
    ∀ {members : List HostType} {ms ds : List (HostType × String)},
      unionMembers r members = .ok (ms, ds) → (r.node o).type ∉ members →
      ds.lookup (r.node o).type
        = (r.firstListed? members chain).map fun a => (r.node a).displayName := by
  intro members
  induction members with
  | nil =>
      intro ms ds h _
      cases h
      rfl
  | cons t rest ih =>
      intro ms ds h hnot
      obtain ⟨id, extending, ms', ds', hid, hobject, hextending, hrest, -, rfl⟩ :=
        unionMembers_cons h
      obtain ⟨hhead, htail⟩ := not_or.mp (mt List.mem_cons.mpr hnot)
      obtain rfl : (r.node id).type = t := hr.type_of_getNode hid hobject
      have hne : o ≠ id := fun heq => hhead (heq ▸ rfl)
      rw [List.lookup_append, lookup_extending hr hchain hextending hne, ih hrest htail,
        Registry.firstListed?, Registry.firstListed?, List.findSome?_cons,
        hchain.find?_type hr hobject]
      split
      · rfl
      · rfl

/-- Which object stands for the instances of an object with this chain. -/
theorem objectFor?_union (hr : r.WellFormed) {u : CompiledUnion} (h : union r d = .ok u)
    (hchain : r.ChainOf o chain) : u.dispatch.objectFor? (r.node o).type =
      if (r.node o).type ∈ d.members then some (r.node o).displayName
      else (r.firstListed? d.members chain).map fun a => (r.node a).displayName := by
  obtain ⟨⟨ms, ds⟩, hmembers, rfl⟩ := map_eq_ok.mp h
  rw [Dispatch.objectFor?, List.lookup_append]
  split
  · next hmem => rw [lookup_member hr hmembers hchain.isObject hmem, Option.some_or]
  · next hnot =>
      rw [lookup_not_member hmembers hnot, Option.none_or,
        lookup_descendant hr hchain hmembers hnot]

end Meaning

/-! ## Unions that are asked for -/

/-- The union at the core of a type expression, under all lists and nullables. -/
def TypeExpr.coreUnion? : TypeExpr → Option UnionDef
  | .union d => some d
  | .list item => coreUnion? item
  | .nullable inner => coreUnion? inner
  | .ref _ | .scalar _ | .enum _ => none

def Link.coreUnion? : Link → Option UnionDef
  | .node _ => none
  | .given t => t.coreUnion?

namespace Meaning

theorem require_dispatch? (c : CompiledRef) (nonNull nullable : Bool) :
    (Compile.require c nonNull nullable).dispatch? = c.dispatch? := by
  unfold Compile.require
  split <;> rfl

/-- A reference to a union has the table of the union, also under lists. -/
theorem expr_union {t : TypeExpr} : ∀ {nonNull : Bool} {c : CompiledRef},
    expr r nonNull t = .ok c → t.coreUnion? = some d →
    ∃ u, union r d = .ok u ∧ c.dispatch? = some u.dispatch := by
  induction t with
  | ref _ | scalar _ | enum _ => intro nonNull c h hd; cases hd
  | union d' =>
      intro nonNull c h hd
      cases hd
      obtain ⟨u, hu, h⟩ := bind_eq_ok.mp h
      cases h
      exact ⟨u, hu, require_dispatch? _ _ _⟩
  | list item ih =>
      intro nonNull c h hd
      obtain ⟨c', hitem, h⟩ := bind_eq_ok.mp h
      cases h
      rw [require_dispatch?]
      obtain ⟨u, hu, hdispatch⟩ := ih hitem hd
      exact ⟨u, hu, hdispatch⟩
  | nullable inner ih =>
      intro nonNull c h hd
      obtain ⟨c', hinner, h⟩ := bind_eq_ok.mp h
      cases h
      obtain ⟨u, hu, hdispatch⟩ := ih hinner hd
      exact ⟨u, hu, hdispatch⟩

theorem link_union {l : Link} {nonNull : Bool} {c : CompiledRef}
    (h : link r l nonNull = .ok c) (hd : l.coreUnion? = some d) :
    ∃ u, union r d = .ok u ∧ c.dispatch? = some u.dispatch := by
  cases l with
  | node _ => cases hd
  | given t => exact expr_union h hd

end Meaning

/-- A request for a type is answered with what the type means. -/
theorem Request.link_of_ask {q : Request} {l : Link} {c : CompiledRef} {s s' : CompileState}
    (hs : CompileState.Reaches r {} s) (hq : q.link? = some l)
    (h : q.ask r s = .ok (.ref c) s') : ∃ nonNull, Meaning.link r l nonNull = .ok c := by
  have hmeaning := (Request.ask_ok hs.settled h).2
  cases q with
  | type l' nonNull =>
      cases hq
      obtain ⟨c', hlink, heq⟩ := Meaning.map_eq_ok.mp (hmeaning _ rfl).1
      cases heq
      exact ⟨nonNull, hlink⟩
  | outputType l' nonNull owner field =>
      cases hq
      obtain ⟨c', hlink, heq⟩ := Meaning.map_eq_ok.mp (hmeaning _ rfl).1
      cases heq
      exact ⟨nonNull, (Meaning.output_eq_ok.mp hlink).1⟩
  | inputType l' nonNull owner field =>
      cases hq
      obtain ⟨c', hlink, heq⟩ := Meaning.map_eq_ok.mp (hmeaning _ rfl).1
      cases heq
      exact ⟨nonNull, (Meaning.input_eq_ok.mp hlink).1⟩
  | named l' =>
      obtain ⟨_, -, heq⟩ := Compile.map_eq_ok.mp h
      cases heq
  | object _ | interface _ | inputObject _ | fieldMap _ _ => cases hq

namespace Dispatch

/-- The object stands for every instance of the host type. -/
def Presents (dispatch : Dispatch) (t : HostType) (name : String) : Prop :=
  ∀ i : Instance, i.type = t → dispatch.resolveType (.instance i) = .ok name

theorem presents_iff {dispatch : Dispatch} {t : HostType} {name : String} :
    dispatch.Presents t name ↔ dispatch.objectFor? t = some name := by
  constructor
  · intro h
    have hresolved := h (.sealed ⟨t, .null, []⟩) rfl
    simp only [resolveType] at hresolved
    split at hresolved
    · next hfound =>
        cases hresolved
        exact hfound
    · cases hresolved
  · rintro h i rfl
    simp only [resolveType, h]

/-- For the instances of every object stands the nearest member on its chain. -/
def PicksNearest (dispatch : Dispatch) (r : Registry) (members : List HostType) : Prop :=
  ∀ o chain near, r.chain o = .ok chain → r.nearest? members chain = some near →
    dispatch.Presents (r.node o).type (r.node near).displayName

end Dispatch

namespace Meaning

variable {u : CompiledUnion}

/-- A member stands for itself. -/
theorem presents_member (hr : r.WellFormed) (h : union r d = .ok u) (hchain : r.ChainOf o chain)
    (hmem : (r.node o).type ∈ d.members) :
    u.dispatch.Presents (r.node o).type (r.node o).displayName := by
  rw [Dispatch.presents_iff, objectFor?_union hr h hchain, if_pos hmem]

/-- For any other object stands the member on its chain that is listed first. -/
theorem presents_firstListed (hr : r.WellFormed) (h : union r d = .ok u)
    (hchain : r.ChainOf o chain) (hnot : (r.node o).type ∉ d.members) {first : NodeId}
    (hfirst : r.firstListed? d.members chain = some first) :
    u.dispatch.Presents (r.node o).type (r.node first).displayName := by
  rw [Dispatch.presents_iff, objectFor?_union hr h hchain, if_neg hnot, hfirst,
    Option.map_some]

theorem picksNearest_iff (hr : r.WellFormed) (h : union r d = .ok u) :
    u.dispatch.PicksNearest r d.members ↔
      ∀ o chain near first, r.chain o = .ok chain → (r.node o).type ∉ d.members →
        r.nearest? d.members chain = some near → r.firstListed? d.members chain = some first →
          (r.node near).displayName = (r.node first).displayName := by
  constructor
  · intro hpicks o chain near first hchain hnot hnear hfirst
    have hpicked := Dispatch.presents_iff.mp (hpicks o chain near hchain hnear)
    have hlisted := Dispatch.presents_iff.mp
      (presents_firstListed hr h (Registry.chainOf_of_chain hchain) hnot hfirst)
    exact Option.some.inj (hpicked.symm.trans hlisted)
  · intro hsame o chain near hchain hnear
    have hof := Registry.chainOf_of_chain hchain
    by_cases hmem : (r.node o).type ∈ d.members
    · rw [hof.nearest?_of_mem hmem] at hnear
      obtain rfl := Option.some.inj hnear
      exact presents_member hr h hof hmem
    · obtain ⟨first, hfirst⟩ := Registry.ChainOf.exists_firstListed? hnear
      rw [hsame o chain near first hchain hmem hnear hfirst]
      exact presents_firstListed hr h hof hmem hfirst

end Meaning

/-- In a compiled union a member stands for itself, and for any other object the one of the
members on its chain that is listed first. That is the nearest one, or is called like it,
exactly if the union picks the nearest; as it does where heirs are listed first. -/
theorem Request.picksNearest_exact {q : Request} {l : Link} {c : CompiledRef}
    {s s' : CompileState} (hr : r.Reached) (hs : CompileState.Reaches r {} s)
    (hq : q.link? = some l) (hd : l.coreUnion? = some d) (h : q.ask r s = .ok (.ref c) s') :
    ∃ dispatch, c.dispatch? = some dispatch ∧
      (∀ o chain, r.chain o = .ok chain → (r.node o).type ∈ d.members →
        dispatch.Presents (r.node o).type (r.node o).displayName) ∧
      (∀ o chain first, r.chain o = .ok chain → (r.node o).type ∉ d.members →
        r.firstListed? d.members chain = some first →
          dispatch.Presents (r.node o).type (r.node first).displayName) ∧
      (dispatch.PicksNearest r d.members ↔
        ∀ o chain near first, r.chain o = .ok chain → (r.node o).type ∉ d.members →
          r.nearest? d.members chain = some near →
          r.firstListed? d.members chain = some first →
            (r.node near).displayName = (r.node first).displayName) ∧
      (r.ListsHeirsFirst d.members → dispatch.PicksNearest r d.members) := by
  have hwf := hr.wellFormed
  obtain ⟨nonNull, hlink⟩ := Request.link_of_ask hs hq h
  obtain ⟨u, hu, hdispatch⟩ := Meaning.link_union hlink hd
  refine ⟨u.dispatch, hdispatch, fun o chain hchain hmem => ?_,
    fun o chain first hchain hnot hfirst => ?_, Meaning.picksNearest_iff hwf hu,
    fun hheirs => (Meaning.picksNearest_iff hwf hu).mpr ?_⟩
  · exact Meaning.presents_member hwf hu (Registry.chainOf_of_chain hchain) hmem
  · exact Meaning.presents_firstListed hwf hu (Registry.chainOf_of_chain hchain) hnot hfirst
  · intro o chain near first hchain _ hnear hfirst
    rw [(Registry.chainOf_of_chain hchain).nearest?_eq_firstListed? hwf hheirs hnear hfirst]

/-! ### Accounts

An owner is an admin and an admin is a user. Of the three only user and admin are members. -/

namespace Accounts

def user : HostType := ⟨"User"⟩

def admin : HostType := ⟨"Admin"⟩

def owner : HostType := ⟨"Owner"⟩

/-- The types are nodes 1, 2 and 3. -/
def registry : Registry := .ofDeclarations [
  .field user { name := "name", type? := some .string },
  .object user {},
  .object admin { extends? := some ⟨admin, user⟩ },
  .object owner { extends? := some ⟨owner, admin⟩ }]

/-- The union with these members. -/
def asks (members : List HostType) : Request :=
  .type (.given (.union ⟨"Account", none, members⟩)) true

theorem listsHeirsFirst : registry.ListsHeirsFirst [admin, user] := by
  refine List.pairwise_pair.mpr fun a a' ha ha' hdescends => ?_
  obtain rfl : 2 = a := Except.ok.inj ha
  obtain rfl : 1 = a' := Except.ok.inj ha'
  have hchain : registry.chain 1 = .ok [1] := rfl
  exact absurd ((Registry.mem_chain hchain).mpr hdescends) (by decide)

theorem asks_answered : ∀ members ∈ [[admin, user], [user, admin]],
    (asks members).isAnswered registry {} = true := by decide

/-- Listed before the user, the admin stands for an owner. -/
theorem admin_stands : ∃ c s dispatch,
    (asks [admin, user]).ask registry {} = .ok (.ref c) s ∧ c.dispatch? = some dispatch ∧
      dispatch.PicksNearest registry [admin, user] ∧ dispatch.Presents owner "Admin" := by
  obtain ⟨_, hasked⟩ := Request.ask_of_isAnswered (asks_answered [admin, user] (by simp))
  obtain ⟨c, -, rfl⟩ := Compile.map_eq_ok.mp hasked
  obtain ⟨dispatch, hdispatch, -, hfirst, -, hheirs⟩ := Request.picksNearest_exact
    (Registry.Reached.ofDeclarations _) .refl rfl rfl hasked
  refine ⟨c, _, dispatch, hasked, hdispatch, hheirs listsHeirsFirst, ?_⟩
  exact hfirst 3 [3, 2, 1] 2 rfl (by decide) rfl

/-- Listed after the user it does not, although it is nearer. -/
theorem user_stands : ∃ c s dispatch,
    (asks [user, admin]).ask registry {} = .ok (.ref c) s ∧ c.dispatch? = some dispatch ∧
      (∀ o ∈ registry.objects, ∃ chain, registry.chain o = .ok chain) ∧
      registry.chain 3 = .ok [3, 2, 1] ∧
      registry.nearest? [user, admin] [3, 2, 1] = some 2 ∧
      (registry.node 2).displayName = "Admin" ∧ dispatch.Presents owner "User" ∧
      ¬ dispatch.PicksNearest registry [user, admin] := by
  obtain ⟨_, hasked⟩ := Request.ask_of_isAnswered (asks_answered [user, admin] (by simp))
  obtain ⟨c, -, rfl⟩ := Compile.map_eq_ok.mp hasked
  obtain ⟨_, hlink⟩ := Request.link_of_ask .refl rfl hasked
  obtain ⟨u, hu, hdispatch⟩ := Meaning.link_union hlink rfl
  have hchain : registry.chain 3 = .ok [3, 2, 1] := rfl
  have hnear : registry.nearest? [user, admin] [3, 2, 1] = some 2 := rfl
  have hfirst : registry.firstListed? [user, admin] [3, 2, 1] = some 1 := rfl
  have huser : u.dispatch.Presents owner "User" :=
    Meaning.presents_firstListed (Registry.Reached.ofDeclarations _).wellFormed hu
      (Registry.chainOf_of_chain hchain) (by decide) hfirst
  refine ⟨c, _, u.dispatch, hasked, hdispatch, ?_, hchain, hnear, rfl, huser, fun hpicks => ?_⟩
  · have hobjects : registry.objects = [1, 2, 3] := rfl
    rw [hobjects]
    exact List.forall_mem_cons.mpr ⟨⟨[1], rfl⟩, List.forall_mem_cons.mpr
      ⟨⟨[2, 1], rfl⟩, List.forall_mem_singleton.mpr ⟨_, hchain⟩⟩⟩
  · have hadmin : u.dispatch.Presents owner "Admin" := hpicks 3 _ 2 hchain hnear
    have hsame := (Dispatch.presents_iff.mp huser).symm.trans (Dispatch.presents_iff.mp hadmin)
    exact absurd (Option.some.inj hsame) (by decide)

end Accounts

end SchemaGraph
