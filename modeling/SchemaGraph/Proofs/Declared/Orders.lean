import SchemaGraph.Proofs.Declared.Parts

/-!
# The order of declarations

Of two orders of the same declarations that differ only in how the declarations of
different types are interleaved, one leads to the registry of the other with its nodes
renamed. What the nodes say by themselves is what was declared. Who holds whom is decided
within the part of each type. Between the parts there is nothing but the implements edges,
which lead to the interface that was declared for a type, whenever that was, and the notes
that interfaces make of them.
-/

set_option autoImplicit false

namespace SchemaGraph

/-! ## Assembling a node -/

/-- A node is known by what it says, what it holds, who is noted on it and where it
leads. -/
theorem Node.resembles_of_parts {n n' : Node} {σ : Equiv.Perm NodeId} (hbare : n'.bare = n.bare)
    (hheld : ∀ k, n'.held k = (n.held k).map σ)
    (hnoted : n'.implementers.Perm (n.implementers.map σ))
    (htarget : n'.implement?.map (·.interface) = (n.implement?.map (·.interface)).map σ) :
    (n.rename σ).Resembles n' := by
  cases n with
  | object n =>
      cases n' with
      | object n' =>
          have hfield := hheld .field
          have himplement := hheld .implement
          cases n; cases n'
          simp only [bare, held, object.injEq, ObjectNode.mk.injEq] at hbare hfield himplement
          simp only [rename, hbare, hfield, himplement]
          exact .refl _
      | _ => cases hbare
  | interface n =>
      cases n' with
      | interface n' =>
          have hfields := hheld .field
          cases n; cases n'
          simp only [bare, held, interface.injEq, InterfaceNode.mk.injEq] at hbare hfields
          simp only [rename, hbare, hfields]
          exact .interface hnoted
      | _ => cases hbare
  | inputObject n =>
      cases n' with
      | inputObject n' =>
          have hinputField := hheld .inputField
          cases n; cases n'
          simp only [bare, held, inputObject.injEq, InputObjectNode.mk.injEq] at hbare hinputField
          simp only [rename, hbare, hinputField]
          exact .refl _
      | _ => cases hbare
  | field n =>
      cases n' with
      | field n' =>
          have harg := hheld .arg
          cases n; cases n'
          simp only [bare, held, field.injEq, FieldNode.mk.injEq] at hbare harg
          simp only [rename, hbare, harg]
          exact .refl _
      | _ => cases hbare
  | args n =>
      cases n' with
      | args n' =>
          have hinputField := hheld .inputField
          cases n; cases n'
          simp only [bare, held, args.injEq, ArgsNode.mk.injEq] at hbare hinputField
          simp only [rename, hbare, hinputField]
          exact .refl _
      | _ => cases hbare
  | arg n =>
      cases n' with
      | arg n' =>
          cases hbare
          exact .refl _
      | _ => cases hbare
  | inputField n =>
      cases n' with
      | inputField n' =>
          cases hbare
          exact .refl _
      | _ => cases hbare
  | implement n =>
      cases n' with
      | implement n' =>
          cases n; cases n'
          simp only [bare, implement.injEq, ImplementNode.mk.injEq] at hbare
          simp only [implement?, Option.map_some, Option.some.injEq] at htarget
          simp only [rename, hbare, htarget]
          exact .refl _
      | _ => cases hbare

theorem Node.edges_eq_held (n : Node) : n.edges = n.held .implement := by
  cases n <;> rfl

theorem Node.implement?_eq_none {n : Node} (h : n.kind ≠ .implement) : n.implement? = none := by
  cases n with
  | implement _ => exact absurd rfl h
  | _ => rfl

/-! ## What is found under a host type -/

namespace Registry

variable {r : Registry} {t : HostType} {id : NodeId}

theorem WellFormed.find?_types (h : r.WellFormed) :
    r.types.find? t = some id ↔ (r.node id).isSchemaType = true ∧ (r.node id).type = t := by
  constructor
  · exact h.declared
  · rintro ⟨hid, rfl⟩
    exact h.registered hid

theorem Tidy.find?_args (h : r.Tidy) :
    r.args.find? t = some id ↔ (r.node id).kind = .args ∧ (r.node id).type = t := by
  constructor
  · intro hfind
    obtain ⟨a, ha⟩ := h.wellFormed.bundled hfind
    exact ⟨by rw [ha]; rfl, h.indexed.key hfind⟩
  · rintro ⟨hid, rfl⟩
    exact h.indexed.bundle hid

end Registry

/-! ## Waiting rooms -/

/-- A declaration adds to the waiting room of its type or closes it. -/
theorem Declaration.Accepted.waiting {r r' : Registry} {d : Declaration}
    (hd : d.Accepted r r') :
    r'.waiting = r.waiting.erase d.type ∨
      ∃ n, r'.waiting = r.waiting.insert d.type (r.staged d.type ++ [n]) := by
  have hattached : ∀ t fields args,
      ((r.unstage t).attachArgs fields args).waiting = r.waiting.erase t := fun t fields args =>
    (Registry.attachArgs_alike fields args (r.unstage t)).1.waiting
  cases hd with
  | @object t decl metadata _ _ =>
      exact Or.inl ((Registry.alike_noteImplementers _ _).waiting.trans (hattached t _ _))
  | @interface t _ metadata _ _ _ => exact Or.inl (hattached t _ _)
  | inputObject _ _ | args _ => exact Or.inl rfl
  | field _ | inputField _ | arg _ _ | implement _ _ => exact Or.inr ⟨_, rfl⟩

namespace Registry

variable {r r' : Registry} {t : HostType} {ds a b : List Declaration}
  {σ : Equiv.Perm NodeId}

namespace Accepts

/-- A waiting room that is open is not empty. -/
theorem waiting_ne_nil (h : Accepts ds r) (t : HostType) : r.waiting.find? t ≠ some [] := by
  induction h with
  | nil => simp [Registry.empty, OrderedMap.find?_empty]
  | @concat _ d _ _ _ h hrun ih =>
      rcases (Declaration.accepted_of_run hrun).waiting with hwaiting | ⟨n, hwaiting⟩
      · rw [hwaiting, OrderedMap.find?_erase]
        split
        · simp
        · exact ih
      · rw [hwaiting, OrderedMap.find?_insert]
        split
        · simp
        · exact ih

theorem find?_waiting (h : Accepts ds r) (t : HostType) :
    r.waiting.find? t = if r.staged t = [] then none else some (r.staged t) := by
  have hne := h.waiting_ne_nil t
  unfold Registry.staged
  cases hfind : r.waiting.find? t with
  | none => rfl
  | some ms =>
      rw [hfind] at hne
      rw [Option.getD_some, if_neg fun hnil => hne (by rw [hnil])]

/-! ## Implements edges -/

/-- An implements edge leads to the interface of the type that it names. -/
theorem target (h : Accepts ds r) {e : NodeId} {t i : HostType}
    (he : ds[e]? = some (.implement t i)) :
    ∃ id, r.target? e = some id ∧ (r.node id).isInterface = true ∧ (r.node id).type = i := by
  induction h with
  | nil => cases he
  | @concat ds d _ r r' h hrun ih =>
      have hr := h.tidy.wellFormed
      have hd := Declaration.accepted_of_run hrun
      -- An interface that is there stays.
      have hstays : ∀ {id}, (r.node id).isInterface = true → (r.node id).type = i →
          (r'.node id).isInterface = true ∧ (r'.node id).type = i := by
        intro id hid htype
        have hown := hd.own_old hr (lt_size_of_isInterface hid)
        rw [Node.isInterface_of_own hown, Node.type_of_own hown]
        exact ⟨hid, htype⟩
      rcases h.older_or_last he with ⟨hlt, he⟩ | ⟨rfl, rfl⟩
      · obtain ⟨id, htarget, hid, htype⟩ := ih he
        refine ⟨id, ?_, hstays hid htype⟩
        rw [target?, Node.implement?_of_own (hd.own_old hr hlt)]
        exact htarget
      · cases hd with
        | @implement _ _ id hid hinterface =>
            refine ⟨id, ?_, hstays hinterface (hr.type_of_getNode_schema hid
              (Node.isSchemaType_of_isInterface hinterface))⟩
            rw [target?, node_stage, if_pos rfl]
            rfl

/-! ## Two orders -/

section

variable (ha : Accepts a r) (hb : Accepts b r') (hσ : Shuffles σ a b)

include ha hb hσ

theorem size_eq : r'.size = r.size := by rw [ha.size, hb.size, hσ.length]

theorem bare_shuffled (id : NodeId) : (r'.node (σ id)).bare = (r.node id).bare := by
  by_cases hid : id < r.size
  · exact ha.bare_eq hb (hσ.numbered _) hid rfl
  · have hle := Nat.le_of_not_lt hid
    rw [hσ.fixed (by rwa [← ha.size]), node_of_size_le hle,
      node_of_size_le ((size_eq ha hb hσ).trans_le hle)]

theorem part_shuffled (t : HostType) (p : Place) :
    r'.part t (p.rename σ) = (r.part t p).map σ := ha.part hb (hσ.numbered t) p

theorem held_shuffled (o : NodeId) (k : NodeKind) :
    (r'.node (σ o)).held k = ((r.node o).held k).map σ := by
  have htype := Node.type_of_bare (bare_shuffled ha hb hσ o)
  have hpart := part_shuffled ha hb hσ (r.node o).type (.heldBy o k)
  rw [ha.tidy.part_heldBy, ← htype, Place.rename, hb.tidy.part_heldBy] at hpart
  exact hpart

theorem staged_shuffled (t : HostType) : r'.staged t = (r.staged t).map σ := by
  have hpart := part_shuffled ha hb hσ t (.waiting t)
  rwa [ha.tidy.part_waiting, if_pos rfl, Place.rename, hb.tidy.part_waiting, if_pos rfl] at hpart

theorem mem_stray_shuffled (m : NodeId) : σ m ∈ r'.stray ↔ m ∈ r.stray := by
  have hpart := part_shuffled ha hb hσ (r.node m).type .stray
  have hmem : σ m ∈ r'.part (r.node m).type .stray ↔ m ∈ r.part (r.node m).type .stray := by
    rw [show Place.stray = Place.stray.rename σ from rfl, hpart,
      List.mem_map_of_injective σ.injective]
    rfl
  have htype : (r'.node (σ m)).type = (r.node m).type :=
    Node.type_of_bare (bare_shuffled ha hb hσ m)
  simpa [Registry.part, members, htype] using hmem

theorem target_shuffled (e : NodeId) : r'.target? (σ e) = (r.target? e).map σ := by
  have hbare := bare_shuffled ha hb hσ
  by_cases hkind : (r.node e).kind = .implement
  · have he : e < r.size := lt_size_of_node_ne fun habsent => by
      rw [habsent] at hkind
      cases hkind
    obtain ⟨d, hd⟩ := ha.lt_size_iff.mp he
    have hdeclared : d.kind = .implement := by
      rw [← d.kind_bare, ← hkind]
      exact Node.kind_of_bare (by rw [← ha.bare hd, Node.bare_bare])
    cases d with
    | implement t i =>
        obtain ⟨id, htarget, hid, htype⟩ := ha.target hd
        obtain ⟨id', htarget', hid', htype'⟩ :=
          hb.target (Declaration.getElem?_of_numbered (hσ.numbered t) hd rfl)
        rw [htarget, htarget', Option.map_some]
        -- There is one interface of the type, under either number.
        have hsame : id' = σ id := by
          refine hb.tidy.wellFormed.type_unique (Node.isSchemaType_of_isInterface hid') ?_ ?_
          · rw [Node.isSchemaType_of_bare (hbare id)]
            exact Node.isSchemaType_of_isInterface hid
          · rw [Node.type_of_bare (hbare id), htype, htype']
        rw [hsame]
    | object _ _ | interface _ _ | inputObject _ _ | args _ | field _ _ | inputField _ _
    | arg _ _ _ => cases hdeclared
  · have hkind' : (r'.node (σ e)).kind ≠ .implement := by rwa [Node.kind_of_bare (hbare e)]
    rw [target?, target?, Node.implement?_eq_none hkind, Node.implement?_eq_none hkind']
    rfl

theorem implementers_shuffled (i : NodeId) :
    (r'.implementersOf (σ i)).Perm ((r.implementersOf i).map σ) := by
  have hedges : ∀ o, r'.edgesOf (σ o) = (r.edgesOf o).map σ := by
    intro o
    rw [edgesOf, edgesOf, Node.edges_eq_held, Node.edges_eq_held, held_shuffled ha hb hσ]
  refine List.perm_iff_count.mpr fun o' => ?_
  obtain ⟨o, rfl⟩ := σ.surjective o'
  rw [hb.tidy.wellFormed.implementers, List.count_map_of_injective _ _ σ.injective,
    ha.tidy.wellFormed.implementers, hedges, List.countP_map]
  refine List.countP_congr fun e _ => ?_
  simp [target_shuffled ha hb hσ, Option.map_eq_some_iff]

theorem types_shuffled (t : HostType) : r'.types.find? t = (r.types.find? t).map σ := by
  refine Option.ext fun id' => ?_
  obtain ⟨id, rfl⟩ := σ.surjective id'
  have hbare := bare_shuffled ha hb hσ id
  rw [Option.map_eq_some_iff]
  simp only [σ.injective.eq_iff, exists_eq_right, ha.tidy.wellFormed.find?_types,
    hb.tidy.wellFormed.find?_types, Node.isSchemaType_of_bare hbare, Node.type_of_bare hbare]

theorem args_shuffled (t : HostType) : r'.args.find? t = (r.args.find? t).map σ := by
  refine Option.ext fun id' => ?_
  obtain ⟨id, rfl⟩ := σ.surjective id'
  have hbare := bare_shuffled ha hb hσ id
  rw [Option.map_eq_some_iff]
  simp only [σ.injective.eq_iff, exists_eq_right, ha.tidy.find?_args, hb.tidy.find?_args,
    Node.kind_of_bare hbare, Node.type_of_bare hbare]

/-- One order leads to the registry of the other, renamed. -/
theorem renames : r.Renames σ r' where
  size := size_eq ha hb hσ
  fixed hid := hσ.fixed (by rwa [← ha.size])
  node id := Node.resembles_of_parts (bare_shuffled ha hb hσ id) (held_shuffled ha hb hσ id)
    (implementers_shuffled ha hb hσ id) (target_shuffled ha hb hσ id)
  types := OrderedMap.entries_perm_iff.mpr (types_shuffled ha hb hσ)
  args := OrderedMap.entries_perm_iff.mpr (args_shuffled ha hb hσ)
  waiting := OrderedMap.entries_perm_iff.mpr fun t => by
    rw [ha.find?_waiting, hb.find?_waiting, staged_shuffled ha hb hσ]
    cases r.staged t <;> rfl
  stray := by
    have hnd : (r.stray.map σ).Nodup := (ha.tidy.once.nodup .stray).map σ.injective
    refine (List.perm_ext_iff_of_nodup (hb.tidy.once.nodup .stray) hnd).mpr fun m' => ?_
    obtain ⟨m, rfl⟩ := σ.surjective m'
    rw [List.mem_map_of_injective σ.injective]
    exact mem_stray_shuffled ha hb hσ m

end

end Accepts

end Registry

end SchemaGraph
