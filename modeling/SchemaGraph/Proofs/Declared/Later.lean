import SchemaGraph.Proofs.Declared.Parts

/-!
# What later declarations leave alone

A declaration of a type moves the members that wait for it, once, and whatever is declared
afterwards moves members that wait for other types, or arrived later. So once a type is
declared its fields are what they are, a field that was claimed keeps the arguments it got
or stays without any, and what went astray is not found again.
-/

set_option autoImplicit false

namespace SchemaGraph

namespace Registry

variable {r r' r'' : Registry} {d : Declaration}

/-- The second registry is the first after further declarations: old nodes say what they said,
and old members are where they were, unless they waited. -/
structure Grows (r r' : Registry) : Prop where
  size : r.size ≤ r'.size
  own : ∀ {id}, id < r.size → (r'.node id).own = (r.node id).own
  types : ∀ {t id}, r.types.find? t = some id → r'.types.find? t = some id
  fields : ∀ {o}, o < r.size → r'.members (.heldBy o .field) = r.members (.heldBy o .field)
  /-- The arguments of a field are final when the field has been claimed. -/
  args : ∀ {f o}, f ∈ r.members (.heldBy o .field) →
    r'.members (.heldBy f .arg) = r.members (.heldBy f .arg)
  stray : ∀ {a}, a ∈ r.members .stray → a ∈ r'.members .stray

theorem Grows.refl (r : Registry) : r.Grows r where
  size := Nat.le_refl _
  own _ := rfl
  types h := h
  fields _ := rfl
  args _ := rfl
  stray h := h

theorem Grows.trans (h : r.Grows r') (h' : r'.Grows r'') : r.Grows r'' where
  size := Nat.le_trans h.size h'.size
  own hid := (h'.own (Nat.lt_of_lt_of_le hid h.size)).trans (h.own hid)
  types hfind := h'.types (h.types hfind)
  fields ho := (h'.fields (Nat.lt_of_lt_of_le ho h.size)).trans (h.fields ho)
  args {f o} hf := by
    have hkept : f ∈ r'.members (.heldBy o .field) := by
      rwa [h.fields (lt_size_of_mem_held hf)]
    rw [h'.args hkept, h.args hf]
  stray ha := h'.stray (h.stray ha)

/-- What leaves alone the nodes, the types and all places but a waiting room. -/
theorem Grows.of_unstage (r : Registry) (t : HostType) : r.Grows (r.unstage t) where
  size := Nat.le_refl _
  own _ := rfl
  types h := h
  fields _ := by rw [members_unstage, if_neg (by simp)]
  args _ := by rw [members_unstage, if_neg (by simp)]
  stray h := h

namespace Tidy

/-- No member goes to an older owner, and no argument to a field that was claimed before. -/
theorem destination_ne (h : r.Tidy) {t : HostType} {kind : NodeKind} {m : NodeId} :
    (∀ {o}, o < r.size → r.destination t kind m ≠ some (.heldBy o .field)) ∧
      ∀ {f o}, f ∈ r.members (.heldBy o .field) →
        r.destination t kind m ≠ some (.heldBy f .arg) := by
  refine ⟨fun {o} ho hdest => ?_, fun {f o} hf hdest => ?_⟩
  · rcases destination_eq_some.mp hdest with ⟨-, ⟨-, hplace⟩ | ⟨-, heq⟩⟩
    · cases (argPlace_eq_heldBy hplace).1
    · exact absurd (Place.heldBy.inj heq).1 (Nat.ne_of_lt ho)
  · rcases destination_eq_some.mp hdest with ⟨-, ⟨-, hplace⟩ | ⟨harg, heq⟩⟩
    · have hwaits := mem_staged_of_stagedOf (argPlace_eq_heldBy hplace).2.1
      exact absurd (h.once.apart hf (q := .waiting t) hwaits) (by simp)
    · exact harg (Place.heldBy.inj heq).2.symm

theorem grows_accepted (h : r.Tidy) (hd : d.Accepted r r') (hwf : r'.WellFormed) :
    r.Grows r' := by
  have hown : ∀ {id}, id < r.size → (r'.node id).own = (r.node id).own :=
    hd.own_old h.wellFormed
  have hmembers : ∀ {o k}, (∀ {m t kind}, r.destination t kind m ≠ some (.heldBy o k)) →
      r'.members (.heldBy o k) = r.members (.heldBy o k) := by
    intro o k hnone
    rcases hd.adds h.wellFormed with ⟨n, rfl, -, hheld, -⟩ | ⟨n, hc, -⟩
    · rw [members_stage d.type hheld, if_neg (by simp), List.append_nil]
    · rw [hc.moves, if_neg (by simp), List.filter_eq_nil_iff.mpr, List.append_nil]
      exact fun m _ hdest => hnone (of_decide_eq_true hdest)
  constructor
  case size =>
    rw [hd.size h.wellFormed]
    exact Nat.le_succ _
  case own => exact hown
  case types =>
    intro t id hfind
    obtain ⟨hschema, htype⟩ := h.wellFormed.declared hfind
    have hsame := hown (lt_size_of_isSchemaType hschema)
    rw [← Node.isSchemaType_of_own hsame] at hschema
    rw [← htype, ← Node.type_of_own hsame]
    exact hwf.registered hschema
  case fields => exact fun ho => hmembers (h.destination_ne.1 ho)
  case args => exact fun hf => hmembers (h.destination_ne.2 hf)
  case stray =>
    intro a ha
    rcases hd.adds h.wellFormed with ⟨n, rfl, -⟩ | ⟨n, hc, -⟩
    · exact ha
    · rw [hc.moves, if_neg (by simp)]
      exact List.mem_append_left _ ha

theorem grows_run (h : r.Tidy) (d : Declaration) : r.Grows (d.run.after r) := by
  have hwf := h.wellFormed.run d
  unfold RegistryM.after at hwf ⊢
  rcases d.run_cases r with ⟨e, hrun, -⟩ | ⟨e, hrun, -⟩ | ⟨r', hrun, haccepted⟩
  · rw [hrun]
    exact .refl r
  · rw [hrun]
    exact .of_unstage r d.type
  · rw [hrun] at hwf ⊢
    exact h.grows_accepted haccepted hwf

/-- Whatever is declared afterwards, refused or not. -/
theorem grows (ds : List Declaration) : ∀ {r : Registry}, r.Tidy →
    r.Grows (ds.foldl (fun r d => d.run.after r) r) := by
  induction ds with
  | nil => exact fun _ => .refl _
  | cons d rest ih => exact fun h => (h.grows_run d).trans (ih (h.run d))

end Tidy

end Registry

end SchemaGraph
