import SchemaGraph.Proofs.Declared.Places

/-!
# Tidy registries

What holds of all members after any declarations. Each is in one place at most and
fits it by kind and host type. A field has one argument at most, and the reason lies
in the past: no two arguments that wait for the same type were declared for the same
field, and a field that has an argument has been claimed, so that no further argument
can find it. Both reasons are part of the invariant.

All declarations are moves of members from one place to another. `rearrange` says once
under what conditions a move keeps the invariant, and what remains for each kind of
declaration is to check these.
-/

set_option autoImplicit false

namespace SchemaGraph

namespace Registry

variable {r r' : Registry}

/-! ## The invariant -/

/-- A member fits its place. -/
structure Fits (r : Registry) (p : Place) (m : NodeId) : Prop where
  lt_size : m < r.size
  admits : p.Admits (r.node m).kind
  type : ∀ {t}, r.placeType? p = some t → (r.node m).type = t

/-- No member is in two places, or twice in one. -/
structure Once (r : Registry) : Prop where
  nodup : ∀ p, (r.members p).Nodup
  apart : ∀ {p q m}, m ∈ r.members p → m ∈ r.members q → p = q

/-- Types and argument bundles are found under their host types, in the order of
their declaration. -/
structure Indexed (r : Registry) : Prop where
  types : r.types.values.Pairwise (· < ·)
  args : r.args.values.Pairwise (· < ·)
  key : ∀ {t id}, r.args.find? t = some id → (r.node id).type = t
  bundle : ∀ {id}, (r.node id).kind = .args →
    r.args.find? (r.node id).type = some id

structure Tidy (r : Registry) : Prop where
  wellFormed : r.WellFormed
  indexed : r.Indexed
  once : r.Once
  fits : ∀ {p m}, m ∈ r.members p → r.Fits p m
  /-- A field with an argument has been claimed. -/
  owned : ∀ {f a}, a ∈ r.members (.heldBy f .arg) → ∃ o, f ∈ r.members (.heldBy o .field)
  single : ∀ {f a b}, a ∈ r.members (.heldBy f .arg) →
    b ∈ r.members (.heldBy f .arg) → a = b
  named : ∀ {f a}, a ∈ r.members (.heldBy f .arg) →
    ∃ x, (r.node a).arg? = some x ∧ (r.node f).memberName? = some x.field
  pending : ∀ {t a b x y}, a ∈ r.staged t → b ∈ r.staged t →
    (r.node a).arg? = some x → (r.node b).arg? = some y → x.field = y.field → a = b

theorem members_empty (p : Place) : empty.members p = [] := by
  cases p with
  | heldBy o k => cases k <;> rfl
  | waiting t => rfl
  | stray => rfl

theorem tidy_empty : Tidy empty := by
  have hnone : ∀ {p m}, m ∉ empty.members p := fun {p m} hm => by
    rw [members_empty] at hm
    cases hm
  constructor
  case wellFormed => exact wellFormed_empty
  case indexed => exact ⟨.nil, .nil, (nomatch ·), (nomatch ·)⟩
  case once => exact ⟨fun p => by simp [members_empty], fun hm => absurd hm hnone⟩
  case fits => exact fun hm => absurd hm hnone
  case owned => exact fun hm => absurd hm hnone
  case single => exact fun hm => absurd hm hnone
  case named => exact fun hm => absurd hm hnone
  case pending => exact (nomatch ·)

/-! ## Moving members -/

/-- `moved` are the members that change places, `dest` says where they go. -/
structure Rearranges (r r' : Registry) (moved : List NodeId)
    (dest : NodeId → Option Place) : Prop where
  size : r.size ≤ r'.size
  own : ∀ {id}, id < r.size → (r'.node id).own = (r.node id).own
  nodup : moved.Nodup
  moves : ∀ p, ∃ kept : List NodeId, kept.Sublist (r.members p) ∧ (∀ m ∈ moved, m ∉ kept) ∧
    r'.members p = kept ++ moved.filter fun m => dest m = some p
  /-- What is held stays held. -/
  holds : ∀ {o k m}, m ∈ r.members (.heldBy o k) → m ∈ r'.members (.heldBy o k)

namespace Rearranges

variable {moved : List NodeId} {dest : NodeId → Option Place}

theorem mem (h : r.Rearranges r' moved dest) {p : Place} {m : NodeId}
    (hm : m ∈ r'.members p) : m ∈ r.members p ∧ m ∉ moved ∨ m ∈ moved ∧ dest m = some p := by
  obtain ⟨kept, hkept, hnew, hmoves⟩ := h.moves p
  rw [hmoves, List.mem_append, List.mem_filter] at hm
  rcases hm with hm | ⟨hm, hdest⟩
  · exact Or.inl ⟨hkept.subset hm, fun hmoved => hnew m hmoved hm⟩
  · exact Or.inr ⟨hm, of_decide_eq_true hdest⟩

/-- Since `dest` is a function, no member ends up in two places. -/
theorem once (h : r.Rearranges r' moved dest) (hr : r.Once) : r'.Once := by
  constructor
  · intro p
    obtain ⟨kept, hkept, hnew, hmoves⟩ := h.moves p
    rw [hmoves, List.nodup_append]
    refine ⟨(hr.nodup p).sublist hkept, h.nodup.filter _, ?_⟩
    rintro m hm _ hm' rfl
    exact hnew m (List.mem_filter.mp hm').1 hm
  · intro p q m hp hq
    rcases h.mem hp with ⟨hp, hstays⟩ | ⟨hmoved, hdest⟩
    · rcases h.mem hq with ⟨hq, -⟩ | ⟨hmoved, -⟩
      · exact hr.apart hp hq
      · exact absurd hmoved hstays
    · rcases h.mem hq with ⟨-, hstays⟩ | ⟨-, hdest'⟩
      · exact absurd hmoved hstays
      · exact Option.some.inj (hdest.symm.trans hdest')

end Rearranges

/-- Nothing is held by a node that is not there. -/
theorem lt_size_of_mem_held {o m : NodeId} {k : NodeKind}
    (h : m ∈ r.members (.heldBy o k)) : o < r.size := by
  refine Nat.lt_of_not_le fun hle => ?_
  rw [members, node_of_size_le hle] at h
  cases k <;> cases h

namespace Tidy

variable {moved : List NodeId} {dest : NodeId → Option Place}

/-- A member that stays where it is still fits there. -/
theorem fits_of_rearranges (h : r.Tidy) (hmove : r.Rearranges r' moved dest) {p : Place}
    {m : NodeId} (hm : m ∈ r.members p) : r'.Fits p m := by
  have hfits := h.fits hm
  have hown := hmove.own hfits.lt_size
  refine ⟨Nat.lt_of_lt_of_le hfits.lt_size hmove.size, ?_, ?_⟩
  · rw [Node.kind_of_own hown]
    exact hfits.admits
  · intro t ht
    rw [Node.type_of_own hown]
    refine hfits.type ?_
    cases p with
    | waiting t' => exact ht
    | stray => exact ht
    | heldBy o k =>
        rw [placeType?, Node.type_of_own (hmove.own (lt_size_of_mem_held hm))] at ht
        exact ht

/-- The invariant survives a move if what moves fits where it goes, and an argument
goes to no field but one of its name that waited with it. -/
theorem rearrange (h : r.Tidy) (hmove : r.Rearranges r' moved dest)
    (hwf : r'.WellFormed) (hindexed : r'.Indexed)
    (hfits : ∀ m ∈ moved, ∀ {p}, dest m = some p → r'.Fits p m)
    (hargs : ∀ a ∈ moved, ∀ {f}, dest a = some (.heldBy f .arg) →
      ∃ t, a ∈ r.staged t ∧ f ∈ r.staged t ∧ (∃ o, f ∈ r'.members (.heldBy o .field)) ∧
        ∃ x, (r.node a).arg? = some x ∧ (r.node f).memberName? = some x.field)
    (hpending : ∀ {t a b x y}, a ∈ r'.staged t → b ∈ r'.staged t →
      (r'.node a).arg? = some x → (r'.node b).arg? = some y → x.field = y.field → a = b) :
    r'.Tidy := by
  have hlt : ∀ {p m}, m ∈ r.members p → m < r.size := fun hm => (h.fits hm).lt_size
  constructor
  case wellFormed => exact hwf
  case indexed => exact hindexed
  case once => exact hmove.once h.once
  case fits =>
    intro p m hm
    rcases hmove.mem hm with ⟨hold, -⟩ | ⟨hmoved, hdest⟩
    · exact h.fits_of_rearranges hmove hold
    · exact hfits m hmoved hdest
  case owned =>
    intro f a ha
    rcases hmove.mem ha with ⟨hold, -⟩ | ⟨hmoved, hdest⟩
    · obtain ⟨o, ho⟩ := h.owned hold
      exact ⟨o, hmove.holds ho⟩
    · obtain ⟨_, -, -, howned, -⟩ := hargs a hmoved hdest
      exact howned
  case named =>
    intro f a ha
    rcases hmove.mem ha with ⟨hold, -⟩ | ⟨hmoved, hdest⟩
    · obtain ⟨o, ho⟩ := h.owned hold
      rw [Node.arg?_of_own (hmove.own (hlt hold)), Node.memberName?_of_own (hmove.own (hlt ho))]
      exact h.named hold
    · obtain ⟨t, hat, hft, -, hname⟩ := hargs a hmoved hdest
      rw [Node.arg?_of_own (hmove.own (h.wellFormed.staged hat)),
        Node.memberName?_of_own (hmove.own (h.wellFormed.staged hft))]
      exact hname
  case single =>
    -- A field that had an argument has been claimed before, so it does not wait.
    have hnone : ∀ {f a b}, a ∈ r.members (.heldBy f .arg) → b ∈ moved →
        dest b ≠ some (.heldBy f .arg) := by
      intro f a b ha hb hdest
      obtain ⟨o, ho⟩ := h.owned ha
      obtain ⟨t, -, hft, -⟩ := hargs b hb hdest
      exact absurd (h.once.apart ho (q := .waiting t) hft) (by simp)
    intro f a b ha hb
    rcases hmove.mem ha with ⟨haold, -⟩ | ⟨hamoved, hadest⟩
    · rcases hmove.mem hb with ⟨hbold, -⟩ | ⟨hbmoved, hbdest⟩
      · exact h.single haold hbold
      · exact absurd hbdest (hnone haold hbmoved)
    · rcases hmove.mem hb with ⟨hbold, -⟩ | ⟨hbmoved, hbdest⟩
      · exact absurd hadest (hnone hbold hamoved)
      · obtain ⟨t, hat, hft, -, x, hx, hfx⟩ := hargs a hamoved hadest
        obtain ⟨t', hbt, hft', -, y, hy, hfy⟩ := hargs b hbmoved hbdest
        obtain rfl : t = t' :=
          Place.waiting.inj (h.once.apart (p := .waiting t) (q := .waiting t') hft hft')
        exact h.pending hat hbt hx hy (Option.some.inj (hfx.symm.trans hfy))
  case pending => exact hpending

end Tidy

/-! ## What each change moves -/

theorem rearranges_unstage (r : Registry) (t : HostType) :
    r.Rearranges (r.unstage t) [] fun _ => none where
  size := Nat.le_refl _
  own _ := rfl
  nodup := .nil
  moves p := by
    refine ⟨(r.unstage t).members p, ?_, (fun m hm => nomatch hm),
      (List.append_nil _).symm⟩
    rw [members_unstage]
    split
    · exact List.nil_sublist _
    · exact List.Sublist.refl _
  holds hm := hm

theorem node_stage (r : Registry) (t : HostType) (n : Node) (id : NodeId) :
    (r.stage t n).node id = if id = r.size then n else r.node id := r.node_push n id

theorem members_stage (t : HostType) {n : Node} (hn : ∀ k, n.held k = []) (p : Place) :
    (r.stage t n).members p = r.members p ++ if p = .waiting t then [r.size] else [] := by
  cases p with
  | waiting t' =>
      simp only [members, staged_stage, Place.waiting.injEq]
      split
      · next heq => rw [heq]
      · exact (List.append_nil _).symm
  | stray => exact (List.append_nil _).symm
  | heldBy o k =>
      show ((r.stage t n).node o).held k = (r.node o).held k ++ []
      rw [List.append_nil, node_stage]
      split
      · next heq =>
          rw [hn, heq, node_of_size_le (Nat.le_refl _)]
          cases k <;> rfl
      · rfl

namespace Tidy

variable {t : HostType} {n : Node}

theorem rearranges_stage (h : r.Tidy) (t : HostType) (hn : ∀ k, n.held k = []) :
    r.Rearranges (r.stage t n) [r.size] fun _ => some (.waiting t) where
  size := by
    rw [show (r.stage t n).size = r.size + 1 from r.size_push n]
    exact Nat.le_succ _
  own hid := by rw [node_stage, if_neg (Nat.ne_of_lt hid)]
  nodup := List.pairwise_singleton _ _
  moves p := by
    refine ⟨r.members p, List.Sublist.refl _, ?_, ?_⟩
    · intro m hm hmem
      obtain rfl := List.mem_singleton.mp hm
      exact absurd (h.fits hmem).lt_size (Nat.lt_irrefl _)
    · rw [members_stage t hn]
      congr 1
      by_cases hp : p = .waiting t
      · simp [hp]
      · simp [hp, Ne.symm hp]
  holds hm := by
    rw [members_stage t hn]
    exact List.mem_append_left _ hm

theorem rearranges_claims (h : r.Tidy) (hc : r.Claims r' t n) :
    r.Rearranges r' (r.staged t) (r.destination t n.kind) where
  size := by
    rw [hc.size]
    exact Nat.le_succ _
  own hid := by rw [hc.own, if_neg (Nat.ne_of_lt hid)]
  nodup := h.once.nodup (.waiting t)
  moves p := by
    refine ⟨_, ?_, ?_, hc.moves p⟩
    · split
      · exact List.nil_sublist _
      · exact List.Sublist.refl _
    · intro m hm hmem
      split at hmem
      · cases hmem
      · next hp => exact hp (h.once.apart hmem (q := .waiting t) hm)
  holds hm := by
    rw [hc.moves, if_neg (by simp)]
    exact List.mem_append_left _ hm

/-- Whatever is claimed fits where it goes. -/
theorem fits_destination (h : r.Tidy) (hc : r.Claims r' t n) {m : NodeId}
    (hm : m ∈ r.staged t) {p : Place} (hp : r.destination t n.kind m = some p) :
    r'.Fits p m := by
  have hfits := h.fits (p := .waiting t) hm
  have htype : (r.node m).type = t := hfits.type rfl
  have hown : ∀ {id}, id < r.size → (r'.node id).own = (r.node id).own :=
    (h.rearranges_claims hc).own
  refine ⟨Nat.lt_of_lt_of_le hfits.lt_size (h.rearranges_claims hc).size, ?_, ?_⟩
  · rw [Node.kind_of_own (hown hfits.lt_size)]
    obtain ⟨-, ⟨harg, hplace⟩ | ⟨-, rfl⟩⟩ := destination_eq_some.mp hp
    · cases p with
      | waiting t' => exact absurd hplace argPlace_ne_waiting
      | heldBy f k => exact harg.trans (argPlace_eq_heldBy hplace).1.symm
      | stray => exact harg
    · rfl
  · intro t' ht'
    rw [Node.type_of_own (hown hfits.lt_size), htype]
    obtain ⟨-, ⟨harg, hplace⟩ | ⟨-, rfl⟩⟩ := destination_eq_some.mp hp
    · cases p with
      | waiting t' => exact absurd hplace argPlace_ne_waiting
      | heldBy f k =>
          obtain ⟨-, hf, -⟩ := argPlace_eq_heldBy hplace
          have hwaits := h.fits (p := .waiting t) (mem_staged_of_stagedOf hf)
          rw [placeType?, Node.type_of_own (hown hwaits.lt_size), hwaits.type rfl] at ht'
          exact Option.some.inj ht'
      | stray => cases ht'
    · rw [placeType?, Node.type_of_own hc.own_new, hc.type] at ht'
      exact Option.some.inj ht'

/-- Declaring a type keeps the invariant. -/
theorem claim (h : r.Tidy) (hc : r.Claims r' t n) (hwf : r'.WellFormed)
    (hindexed : r'.Indexed) (hfields : n.kind.claims .arg = true → n.kind.claims .field = true) :
    r'.Tidy := by
  have hmove := h.rearranges_claims hc
  refine h.rearrange hmove hwf hindexed (fun m hm p hp => h.fits_destination hc hm hp)
    ?_ ?_
  · intro a ha f hf
    obtain ⟨hclaims, ⟨harg, hplace⟩ | ⟨harg, heq⟩⟩ := destination_eq_some.mp hf
    · obtain ⟨-, hfield, hname⟩ := argPlace_eq_heldBy hplace
      have hwaits := mem_staged_of_stagedOf hfield
      refine ⟨t, ha, hwaits, ⟨r.size, ?_⟩, hname⟩
      have hkind : (r.node f).kind = .field := of_decide_eq_true (List.mem_filter.mp hfield).2
      rw [hc.moves]
      refine List.mem_append_right _ (List.mem_filter.mpr ⟨hwaits, decide_eq_true ?_⟩)
      rw [destination_eq_some, hkind]
      exact ⟨hfields (harg ▸ hclaims), Or.inr ⟨by simp, rfl⟩⟩
    · exact absurd (Place.heldBy.inj heq).2.symm harg
  · -- What still waits has been waiting before.
    have hold : ∀ {t' m}, m ∈ r'.staged t' → m ∈ r.staged t' := by
      intro t' m hm
      rcases hmove.mem (p := .waiting t') hm with ⟨hold, -⟩ | ⟨-, hdest⟩
      · exact hold
      · obtain ⟨-, ⟨-, hplace⟩ | ⟨-, heq⟩⟩ := destination_eq_some.mp hdest
        · exact absurd hplace argPlace_ne_waiting
        · cases heq
    intro t' a b x y ha hb hx hy
    rw [Node.arg?_of_own (hmove.own (h.wellFormed.staged (hold ha)))] at hx
    rw [Node.arg?_of_own (hmove.own (h.wellFormed.staged (hold hb)))] at hy
    exact h.pending (hold ha) (hold hb) hx hy

/-- Giving members up keeps the invariant. -/
theorem unstage (h : r.Tidy) (t : HostType) : (r.unstage t).Tidy := by
  refine h.rearrange (rearranges_unstage r t) (h.wellFormed.unstage t)
    ⟨h.indexed.types, h.indexed.args, h.indexed.key, h.indexed.bundle⟩
    (fun m hm => nomatch hm) (fun m hm => nomatch hm) ?_
  have hold : ∀ {t' m}, m ∈ (r.unstage t).staged t' → m ∈ r.staged t' := by
    intro t' m hm
    rw [staged_unstage] at hm
    split at hm
    · cases hm
    · exact hm
  intro t' a b x y ha hb
  exact h.pending (hold ha) (hold hb)

theorem field_ne_of_not_argIsStaged {field : String}
    (h : Declare.argIsStaged r t field = false) {a : NodeId} (ha : a ∈ r.staged t)
    {x : ArgNode} (hx : (r.node a).arg? = some x) : x.field ≠ field := by
  intro heq
  have hnone := List.any_eq_false.mp h a ha
  rw [hx] at hnone
  exact hnone (decide_eq_true heq)

/-- Staging a member keeps the invariant, unless it is a second argument for a field. -/
theorem stage (h : r.Tidy) (htype : n.type = t) (hn : ∀ k, n.held k = [])
    (hmember : n.kind.isMember = true)
    (htarget : ∀ m, n.implement? = some m → (r.node m.interface).isInterface = true)
    (hfresh : ∀ x, n.arg? = some x → Declare.argIsStaged r t x.field = false) :
    (r.stage t n).Tidy := by
  have hschema : n.isSchemaType = false := by
    cases n with
    | object _ | interface _ | inputObject _ => cases hmember
    | field _ | args _ | arg _ | inputField _ | implement _ => rfl
  have hnew : (r.stage t n).node r.size = n := by rw [node_stage, if_pos rfl]
  have hold : ∀ {id}, id < r.size → (r.stage t n).node id = r.node id := fun hid => by
    rw [node_stage, if_neg (Nat.ne_of_lt hid)]
  have hindexed : (r.stage t n).Indexed := by
    refine ⟨h.indexed.types, h.indexed.args, ?_, ?_⟩
    · intro t' id hfind
      obtain ⟨a, ha⟩ := h.wellFormed.bundled hfind
      rw [hold (lt_size_of_args ha)]
      exact h.indexed.key hfind
    · intro id hid
      rw [node_stage] at hid ⊢
      split at hid
      · rw [hid] at hmember
        cases hmember
      · next hne =>
          rw [if_neg hne]
          exact h.indexed.bundle hid
  refine h.rearrange (h.rearranges_stage t hn) (h.wellFormed.stage hschema htarget)
    hindexed ?_ (fun _ _ _ hdest => by simp at hdest) ?_
  · intro m hm p hp
    obtain rfl := List.mem_singleton.mp hm
    obtain rfl := Option.some.inj hp
    refine ⟨?_, ?_, ?_⟩
    · rw [show (r.stage t n).size = r.size + 1 from r.size_push n]
      exact Nat.lt_succ_self _
    · rw [hnew]
      exact hmember
    · intro t' ht'
      rw [hnew, htype]
      exact Option.some.inj ht'
  · -- The new member is the last of those that wait.
    have hcases : ∀ {t' m x}, m ∈ (r.stage t n).staged t' →
        ((r.stage t n).node m).arg? = some x →
        m ∈ r.staged t' ∧ (r.node m).arg? = some x ∨
          m = r.size ∧ t' = t ∧ n.arg? = some x := by
      intro t' m x hm hx
      rw [staged_stage] at hm
      have hwaited : m ∈ r.staged t' → (r.node m).arg? = some x := fun hm => by
        rw [← hold (h.wellFormed.staged hm)]
        exact hx
      split at hm
      · next heq =>
          subst heq
          rcases List.mem_append.mp hm with hm | hm
          · exact Or.inl ⟨hm, hwaited hm⟩
          · obtain rfl := List.mem_singleton.mp hm
            rw [hnew] at hx
            exact Or.inr ⟨rfl, rfl, hx⟩
      · exact Or.inl ⟨hm, hwaited hm⟩
    intro t' a b x y ha hb hx hy hfield
    rcases hcases ha hx with ⟨hwait, hx₀⟩ | ⟨rfl, rfl, hx₀⟩
    · rcases hcases hb hy with ⟨hwait', hy₀⟩ | ⟨rfl, rfl, hy₀⟩
      · exact h.pending hwait hwait' hx₀ hy₀ hfield
      · exact absurd hfield (field_ne_of_not_argIsStaged (hfresh y hy₀) hwait hx₀)
    · rcases hcases hb hy with ⟨hwait', hy₀⟩ | ⟨rfl, -, -⟩
      · exact absurd hfield.symm (field_ne_of_not_argIsStaged (hfresh x hx₀) hwait' hy₀)
      · rfl

theorem lt_size_of_mem_types (h : r.Tidy) {id : NodeId} (hid : id ∈ r.types.values) :
    id < r.size := by
  obtain ⟨t, ht⟩ := OrderedMap.mem_values.mp hid
  exact lt_size_of_isSchemaType
    (h.wellFormed.declared (OrderedMap.find?_eq_some_iff.mpr ht)).1

theorem lt_size_of_mem_args (h : r.Tidy) {id : NodeId} (hid : id ∈ r.args.values) :
    id < r.size := by
  obtain ⟨t, ht⟩ := OrderedMap.mem_values.mp hid
  obtain ⟨a, ha⟩ := h.wellFormed.bundled (OrderedMap.find?_eq_some_iff.mpr ht)
  exact lt_size_of_args ha

theorem pairwise_append_new {l : List NodeId} {id : NodeId} (hl : l.Pairwise (· < ·))
    (hid : ∀ m ∈ l, m < id) : (l ++ [id]).Pairwise (· < ·) := by
  refine List.pairwise_append.mpr ⟨hl, List.pairwise_singleton _ _, ?_⟩
  intro m hm _ hid'
  rw [List.mem_singleton.mp hid']
  exact hid m hm

/-- A new type comes last among the types. -/
theorem indexed_type (h : r.Tidy) (hc : r.Claims r' t n) (hn : n.kind ≠ .args)
    (hfresh : r.types.contains t = false) : r'.Indexed := by
  have htypes : r'.types = r.types.insert t r.size := by rw [hc.types, if_neg hn]
  have hargs : r'.args = r.args := by rw [hc.args, if_neg hn]
  constructor
  case types =>
    rw [htypes, OrderedMap.values_insert hfresh]
    exact pairwise_append_new h.indexed.types fun m hm => h.lt_size_of_mem_types hm
  case args =>
    rw [hargs]
    exact h.indexed.args
  case key =>
    intro t' id hfind
    rw [hargs] at hfind
    obtain ⟨a, ha⟩ := h.wellFormed.bundled hfind
    rw [Node.type_of_own ((h.rearranges_claims hc).own (lt_size_of_args ha))]
    exact h.indexed.key hfind
  case bundle =>
    intro id hid
    have hown := hc.own id
    split at hown
    · rw [Node.kind_of_own hown] at hid
      exact absurd hid hn
    · rw [Node.kind_of_own hown] at hid
      rw [hargs, Node.type_of_own hown]
      exact h.indexed.bundle hid

/-- A new argument bundle comes last among the bundles. -/
theorem indexed_args (h : r.Tidy) (hc : r.Claims r' t n) (hn : n.kind = .args)
    (hfresh : r.args.contains t = false) : r'.Indexed := by
  have htypes : r'.types = r.types := by rw [hc.types, if_pos hn]
  have hargs : r'.args = r.args.insert t r.size := by rw [hc.args, if_pos hn]
  constructor
  case types =>
    rw [htypes]
    exact h.indexed.types
  case args =>
    rw [hargs, OrderedMap.values_insert hfresh]
    exact pairwise_append_new h.indexed.args fun m hm => h.lt_size_of_mem_args hm
  case key =>
    intro t' id hfind
    rw [hargs, OrderedMap.find?_insert] at hfind
    split at hfind
    · next heq =>
        obtain rfl := Option.some.inj hfind
        rw [Node.type_of_own hc.own_new, hc.type, heq]
    · obtain ⟨a, ha⟩ := h.wellFormed.bundled hfind
      rw [Node.type_of_own ((h.rearranges_claims hc).own (lt_size_of_args ha))]
      exact h.indexed.key hfind
  case bundle =>
    intro id hid
    rw [hargs, OrderedMap.find?_insert]
    have hown := hc.own id
    split at hown
    · next heq => rw [Node.type_of_own hown, hc.type, if_pos rfl, heq]
    · rw [Node.kind_of_own hown] at hid
      have hfind := h.indexed.bundle hid
      rw [Node.type_of_own hown, if_neg, hfind]
      -- The host type of an older bundle has one already.
      intro htype
      rw [htype] at hfind
      rw [OrderedMap.contains_of_find? hfind] at hfresh
      cases hfresh

/-- Whatever is declared and accepted keeps the invariant. -/
theorem accepted (h : r.Tidy) {d : Declaration} (hd : d.Accepted r r')
    (hwf : r'.WellFormed) : r'.Tidy := by
  cases hd with
  | @object t decl metadata hfresh _ =>
      have hc := h.wellFormed.claims_declareObject t decl metadata
      exact h.claim hc hwf (h.indexed_type hc (by simp [Node.kind]) hfresh) fun _ => rfl
  | @interface t _ metadata hfresh _ _ =>
      have hc := h.wellFormed.claims_declareInterface t metadata
      exact h.claim hc hwf (h.indexed_type hc (by simp [Node.kind]) hfresh) fun _ => rfl
  | @inputObject c _ metadata hfresh _ =>
      have hc := h.wellFormed.claims_declareInputObject c metadata
      refine h.claim hc hwf (h.indexed_type hc (by simp [Node.kind]) hfresh) ?_
      rintro ⟨⟩
  | @args c hfresh =>
      have hc := h.wellFormed.claims_declareArgs c
      refine h.claim hc hwf (h.indexed_args hc rfl hfresh) ?_
      rintro ⟨⟩
  | field _ | inputField _ =>
      refine h.stage rfl (fun k => by cases k <;> rfl) rfl ?_ ?_
      · rintro m ⟨⟩
      · rintro x ⟨⟩
  | arg _ hfresh =>
      refine h.stage rfl (fun k => by cases k <;> rfl) rfl ?_ ?_
      · rintro m ⟨⟩
      · rintro x ⟨⟩
        exact hfresh
  | implement _ hinterface =>
      refine h.stage rfl (fun k => by cases k <;> rfl) rfl ?_ ?_
      · rintro m ⟨⟩
        exact hinterface
      · rintro x ⟨⟩

theorem run (h : r.Tidy) (d : Declaration) : (d.run.after r).Tidy := by
  have hwf := h.wellFormed.run d
  unfold RegistryM.after at hwf ⊢
  rcases d.run_cases r with ⟨e, hrun, -⟩ | ⟨e, hrun, -⟩ | ⟨r', hrun, haccepted⟩
  · rw [hrun]
    exact h
  · rw [hrun]
    exact h.unstage d.type
  · rw [hrun] at hwf ⊢
    exact h.accepted haccepted hwf

end Tidy

theorem Reached.tidy (h : r.Reached) : r.Tidy := by
  induction h with
  | empty => exact tidy_empty
  | declare d _ ih => exact ih.run d

end Registry

end SchemaGraph
