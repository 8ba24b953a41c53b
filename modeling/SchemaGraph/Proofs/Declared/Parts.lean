import SchemaGraph.Proofs.Declared.Failure
import SchemaGraph.Proofs.Declared.Renaming
import SchemaGraph.Proofs.Declared.Shuffles

/-!
# What a host type has of its own

A declaration moves members of its own host type and no others: it adds one to those that
wait, or spreads them over places by what they are. So a registry falls into one part for
each host type, and of two lists of declarations that agree on a type the parts of that
type are the same, whatever was declared in between and however the nodes were numbered.

The induction runs over both lists from the end. A declaration of another type leaves the
part alone and is dropped from its list; when both lists end in a declaration of the type
it is the same one, and takes equal parts to equal parts.
-/

set_option autoImplicit false

namespace SchemaGraph

/-! ## What a declaration adds -/

/-- The node that a declaration makes, without the nodes it refers to. -/
def Declaration.bare : Declaration → Node
  | .object t decl =>
    .object ⟨⟨decl.name?.getD t.shortName, decl.description⟩, t, [], [], decl.extends?⟩
  | .interface t decl =>
    .interface ⟨⟨decl.name?.getD t.shortName, decl.description⟩, t, [], []⟩
  | .inputObject c decl =>
    .inputObject ⟨⟨decl.name?.getD c.type.shortName, decl.description⟩, c.type, [], c⟩
  | .args c => .args ⟨c.type, [], c⟩
  | .field t decl => .field ⟨t, decl, []⟩
  | .inputField t decl => .inputField ⟨t, decl⟩
  | .arg t f decl => .arg ⟨t, f, decl⟩
  | .implement t _ => .implement ⟨t, 0⟩

theorem Declaration.type_bare (d : Declaration) : d.bare.type = d.type := by
  cases d <;> rfl

theorem Declaration.kind_bare (d : Declaration) : d.bare.kind = d.kind := by
  cases d <;> rfl

theorem TypeMetadata.eq_of_ofDecl {t : HostType} {name? description : Option String}
    {metadata : TypeMetadata} (h : ofDecl t name? description = .ok metadata) :
    metadata = ⟨name?.getD t.shortName, description⟩ := by
  unfold ofDecl at h
  dsimp only at h
  split at h
  · exact (Except.ok.inj h).symm
  · cases h

/-- What a declaration adds: a member that waits, or a type that claims what waits for
it. Either is what was declared. -/
theorem Declaration.Accepted.adds {r r' : Registry} {d : Declaration} (hr : r.WellFormed)
    (hd : d.Accepted r r') :
    (∃ n, r' = r.stage d.type n ∧ n.bare = d.bare ∧ (∀ k, n.held k = []) ∧
      d.kind.isMember = true) ∨
    ∃ n, r.Claims r' d.type n ∧ n.bare = d.bare ∧ d.kind.isMember = false := by
  cases hd with
  | @object t decl metadata _ hmetadata =>
      refine Or.inr ⟨_, hr.claims_declareObject t decl metadata, ?_, rfl⟩
      rw [TypeMetadata.eq_of_ofDecl hmetadata]
      rfl
  | @interface t _ metadata _ hmetadata _ =>
      refine Or.inr ⟨_, hr.claims_declareInterface t metadata, ?_, rfl⟩
      rw [TypeMetadata.eq_of_ofDecl hmetadata]
      rfl
  | @inputObject c _ metadata _ hmetadata =>
      refine Or.inr ⟨_, hr.claims_declareInputObject c metadata, ?_, rfl⟩
      rw [TypeMetadata.eq_of_ofDecl hmetadata]
      rfl
  | @args c _ => exact Or.inr ⟨_, hr.claims_declareArgs c, rfl, rfl⟩
  | field _ | inputField _ | arg _ _ | implement _ _ =>
      exact Or.inl ⟨_, rfl, rfl, fun k => by cases k <;> rfl, rfl⟩

namespace Declaration.Accepted

variable {r r' : Registry} {d : Declaration} {id : NodeId}

theorem size (hr : r.WellFormed) (hd : d.Accepted r r') : r'.size = r.size + 1 := by
  rcases hd.adds hr with ⟨n, rfl, -⟩ | ⟨n, hc, -⟩
  · exact r.size_push n
  · exact hc.size

/-- The new node is what was declared. -/
theorem bare_new (hr : r.WellFormed) (hd : d.Accepted r r') :
    (r'.node r.size).bare = d.bare := by
  rcases hd.adds hr with ⟨n, rfl, hn, -⟩ | ⟨n, hc, hn, -⟩
  · rw [Registry.node_stage, if_pos rfl, hn]
  · rw [Node.bare_of_own hc.own_new, hn]

theorem type_new (hr : r.WellFormed) (hd : d.Accepted r r') :
    (r'.node r.size).type = d.type := by
  have hbare : (r'.node r.size).bare = d.bare.bare := by
    rw [← hd.bare_new hr, Node.bare_bare]
  rw [Node.type_of_bare hbare, d.type_bare]

/-- An older node is what it was. -/
theorem own_old (hr : r.WellFormed) (hd : d.Accepted r r') (hid : id < r.size) :
    (r'.node id).own = (r.node id).own := by
  rcases hd.adds hr with ⟨n, rfl, -⟩ | ⟨n, hc, -⟩
  · rw [Registry.node_stage, if_neg (Nat.ne_of_lt hid)]
  · rw [hc.own, if_neg (Nat.ne_of_lt hid)]

end Declaration.Accepted

/-! ## The part of a host type -/

/-- The same place after nodes were renamed. -/
def Place.rename (σ : Equiv.Perm NodeId) : Place → Place
  | .waiting t => .waiting t
  | .heldBy owner kind => .heldBy (σ owner) kind
  | .stray => .stray

theorem Place.rename_injective (σ : Equiv.Perm NodeId) :
    Function.Injective (Place.rename σ) := by
  rintro (t | ⟨o, k⟩ | _) (t' | ⟨o', k'⟩ | _) h
  case heldBy.heldBy =>
    obtain ⟨ho, rfl⟩ := Place.heldBy.inj h
    rw [σ.injective ho]
  all_goals first | exact h | cases h

theorem Place.rename_eq_waiting {σ : Equiv.Perm NodeId} {p : Place} {t : HostType} :
    p.rename σ = .waiting t ↔ p = .waiting t :=
  (Place.rename_injective σ).eq_iff (b := .waiting t)

namespace Registry

variable {r r' r₁ r₁' : Registry} {t : HostType} {d : Declaration} {n n' : Node}
  {σ : Equiv.Perm NodeId} {p : Place}

/-- The members of a host type at a place. -/
def part (r : Registry) (t : HostType) (p : Place) : List NodeId :=
  (r.members p).filter fun m => (r.node m).type = t

/-- Only members of a type wait for it. -/
theorem Tidy.part_waiting (hr : r.Tidy) (t t' : HostType) :
    r.part t (.waiting t') = if t' = t then r.staged t else [] := by
  have htype : ∀ m ∈ r.staged t', (r.node m).type = t' := fun m hm =>
    (hr.fits (p := .waiting t') hm).type rfl
  split
  · next heq =>
      subst heq
      exact List.filter_eq_self.mpr fun m hm => decide_eq_true (htype m hm)
  · next hne =>
      exact List.filter_eq_nil_iff.mpr fun m hm hm' =>
        hne ((htype m hm).symm.trans (of_decide_eq_true hm'))

/-- What a type holds is of that type. -/
theorem Tidy.part_heldBy (hr : r.Tidy) (o : NodeId) (k : NodeKind) :
    r.part (r.node o).type (.heldBy o k) = r.members (.heldBy o k) :=
  List.filter_eq_self.mpr fun _ hm => decide_eq_true ((hr.fits hm).type rfl)

theorem part_empty : Registry.empty.part t p = [] := by
  rw [part, members_empty]
  rfl

/-- What was there before is of the type that it was. -/
theorem Tidy.filter_old (hr : r.Tidy) (hd : d.Accepted r r') (p : Place) :
    (r.members p).filter (fun m => (r'.node m).type = t) = r.part t p :=
  List.filter_congr fun m hm => by
    rw [Node.type_of_own (hd.own_old hr.wellFormed (hr.fits hm).lt_size)]

/-- A new member waits with the others of its type. -/
theorem Tidy.part_stage (hr : r.Tidy) (hd : d.Accepted r (r.stage d.type n))
    (hheld : ∀ k, n.held k = []) (p : Place) :
    (r.stage d.type n).part d.type p =
      r.part d.type p ++ if p = .waiting d.type then [r.size] else [] := by
  rw [part, members_stage d.type hheld, List.filter_append, hr.filter_old hd]
  congr 1
  split
  · exact List.filter_cons_of_pos (decide_eq_true (hd.type_new hr.wellFormed))
  · rfl

/-- What is claimed is of the type that claims it. -/
theorem Tidy.type_claimed (hr : r.Tidy) (hd : d.Accepted r r') {m : NodeId}
    (hm : m ∈ r.staged d.type) : (r'.node m).type = d.type := by
  have hfits := hr.fits (p := .waiting d.type) hm
  rw [Node.type_of_own (hd.own_old hr.wellFormed hfits.lt_size)]
  exact hfits.type rfl

/-- What waited for a type goes to its destinations. -/
theorem Tidy.part_claims (hr : r.Tidy) (hd : d.Accepted r r') (hc : r.Claims r' d.type n)
    (p : Place) : r'.part d.type p =
      (if p = .waiting d.type then [] else r.part d.type p) ++
        (r.staged d.type).filter fun m => r.destination d.type n.kind m = some p := by
  rw [part, hc.moves, List.filter_append]
  congr 1
  · split
    · rfl
    · exact hr.filter_old hd p
  · exact List.filter_eq_self.mpr fun m hm =>
      decide_eq_true (hr.type_claimed hd (List.mem_filter.mp hm).1)

/-- A declaration leaves the parts of other types alone. -/
theorem Tidy.part_of_other (hr : r.Tidy) (hd : d.Accepted r r') (ht : d.type ≠ t)
    (p : Place) : r'.part t p = r.part t p := by
  rcases hd.adds hr.wellFormed with ⟨n, rfl, -, hheld, -⟩ | ⟨n, hc, -⟩
  · rw [part, members_stage d.type hheld, List.filter_append, hr.filter_old hd]
    split
    · have hnew : decide (((r.stage d.type n).node r.size).type = t) = false := by
        rw [hd.type_new hr.wellFormed, decide_eq_false ht]
      rw [List.filter_cons_of_neg (by simp [hnew]), List.filter_nil, List.append_nil]
    · exact List.append_nil _
  · have hmoved : ∀ q : NodeId → Bool, ((r.staged d.type).filter q).filter
        (fun m => (r'.node m).type = t) = [] := fun q =>
      List.filter_eq_nil_iff.mpr fun m hm hm' => ht <|
        (hr.type_claimed hd (List.mem_filter.mp hm).1).symm.trans (of_decide_eq_true hm')
    rw [part, hc.moves, List.filter_append, hmoved, List.append_nil]
    split
    · next hp => rw [hp, hr.part_waiting, if_neg ht, List.filter_nil]
    · exact hr.filter_old hd p

/-! ## Two declarations of the same -/

/-- What waits for a type in the two registries is the same but for its numbers. -/
structure Matches (r r' : Registry) (σ : Equiv.Perm NodeId) (t : HostType) : Prop where
  part : ∀ p, r'.part t (p.rename σ) = (r.part t p).map σ
  bare : ∀ m ∈ r.staged t, (r'.node (σ m)).bare = (r.node m).bare

namespace Matches

theorem staged (h : Matches r r' σ t) (hr : r.Tidy) (hr' : r'.Tidy) :
    r'.staged t = (r.staged t).map σ := by
  have := h.part (.waiting t)
  rwa [Place.rename, hr'.part_waiting, hr.part_waiting, if_pos rfl, if_pos rfl] at this

theorem stagedOf (h : Matches r r' σ t) (hr : r.Tidy) (hr' : r'.Tidy) (k : NodeKind) :
    r'.stagedOf t k = (r.stagedOf t k).map σ := by
  rw [Registry.stagedOf, h.staged hr hr', List.filter_map]
  refine congrArg _ (List.filter_congr fun m hm => ?_)
  rw [Function.comp_apply, Node.kind_of_bare (h.bare m hm)]

theorem argPlace (h : Matches r r' σ t) (hr : r.Tidy) (hr' : r'.Tidy) {a : NodeId}
    (ha : a ∈ r.staged t) : r'.argPlace (r'.stagedOf t .field) (σ a) =
      (r.argPlace (r.stagedOf t .field) a).rename σ := by
  have hfind : ∀ name : String,
      (r'.stagedOf t .field).find? (fun id => (r'.node id).memberName? = some name) =
        ((r.stagedOf t .field).find? fun id => (r.node id).memberName? = some name).map σ := by
    intro name
    rw [h.stagedOf hr hr', List.find?_map, ← List.head?_filter, ← List.head?_filter]
    refine congrArg (fun l : List NodeId => l.head?.map σ) (List.filter_congr fun m hm => ?_)
    rw [Function.comp_apply, Node.memberName?_of_bare (h.bare m (mem_staged_of_stagedOf hm))]
  unfold Registry.argPlace
  rw [Node.arg?_of_bare (h.bare a ha)]
  cases (r.node a).arg? with
  | none => rfl
  | some x =>
      simp only [Option.bind_some, hfind]
      cases (r.stagedOf t .field).find? fun id => (r.node id).memberName? = some x.field <;> rfl

/-- Members go to the same places. -/
theorem destination (h : Matches r r' σ t) (hr : r.Tidy) (hr' : r'.Tidy)
    (hsize : σ r.size = r'.size) (owner : NodeKind) {m : NodeId} (hm : m ∈ r.staged t) :
    r'.destination t owner (σ m) = (r.destination t owner m).map (Place.rename σ) := by
  unfold Registry.destination
  rw [Node.kind_of_bare (h.bare m hm), h.argPlace hr hr' hm, ← hsize]
  dsimp only
  split
  · split <;> rfl
  · rfl

/-- The same declaration takes parts that match to parts that match. -/
theorem accepted (h : Matches r r' σ d.type) (hr : r.Tidy) (hr' : r'.Tidy)
    (hd : d.Accepted r r₁) (hd' : d.Accepted r' r₁') (hsize : σ r.size = r'.size) (p : Place) :
    r₁'.part d.type (p.rename σ) = (r₁.part d.type p).map σ := by
  rcases hd.adds hr.wellFormed with ⟨n, rfl, -, hheld, hkind⟩ | ⟨n, hc, hn, hkind⟩
  · rcases hd'.adds hr'.wellFormed with ⟨n', rfl, -, hheld', -⟩ | ⟨n', -, -, hkind'⟩
    · rw [hr.part_stage hd hheld, hr'.part_stage hd' hheld', h.part, List.map_append]
      simp only [Place.rename_eq_waiting, ← hsize]
      split <;> rfl
    · rw [hkind] at hkind'
      cases hkind'
  · rcases hd'.adds hr'.wellFormed with ⟨n', -, -, -, hkind'⟩ | ⟨n', hc', hn', -⟩
    · rw [hkind] at hkind'
      cases hkind'
    · rw [hr.part_claims hd hc, hr'.part_claims hd' hc', h.part, List.map_append]
      simp only [Place.rename_eq_waiting]
      congr 1
      · split <;> rfl
      · rw [h.staged hr hr', List.filter_map, Node.kind_of_bare (hn'.trans hn.symm)]
        refine congrArg _ (List.filter_congr fun m hm => decide_eq_decide.mpr ?_)
        rw [h.destination hr hr' hsize _ hm, Option.map_eq_some_iff]
        constructor
        · rintro ⟨q, hq, heq⟩
          rw [hq, Place.rename_injective σ heq]
        · intro hp
          exact ⟨p, hp, rfl⟩

end Matches

end Registry

/-! ## Whole lists of declarations -/

/-- Declare in order, up to the first declaration that fails. -/
def Declaration.runAll : List Declaration → RegistryM Unit
  | [] => pure ()
  | d :: rest => do
    let _ ← d.run
    runAll rest

theorem Declaration.accepted_of_run {r r' : Registry} {d : Declaration} {id : NodeId}
    (h : d.run r = .ok id r') : d.Accepted r r' := by
  rcases d.run_cases r with ⟨e, hrun, -⟩ | ⟨e, hrun, -⟩ | ⟨r₁, hrun, haccepted⟩
  · rw [hrun] at h
    cases h
  · rw [hrun] at h
    cases h
  · rw [hrun] at h
    cases h
    exact haccepted

/-- The declarations succeed one after the other and leave the registry behind. -/
inductive Registry.Accepts : List Declaration → Registry → Prop where
  | nil : Accepts [] .empty
  | concat {ds : List Declaration} {d : Declaration} {id : NodeId} {r r' : Registry} :
      Accepts ds r → d.run r = .ok id r' → Accepts (ds ++ [d]) r'

namespace Registry.Accepts

variable {r r' : Registry} {a b ds : List Declaration} {σ : Equiv.Perm NodeId} {t : HostType}

theorem of_runAll_append {before : List Declaration} (h : Accepts before r)
    (hrun : Declaration.runAll ds r = .ok () r') : Accepts (before ++ ds) r' := by
  induction ds generalizing before r with
  | nil =>
      cases hrun
      rwa [List.append_nil]
  | cons d rest ih =>
      simp only [Declaration.runAll, bind, EStateM.bind] at hrun
      cases hd : d.run r with
      | ok id r₁ =>
          simp only [hd] at hrun
          simpa using ih (h.concat hd) hrun
      | error e r₁ =>
          simp only [hd] at hrun
          cases hrun

theorem of_runAll (h : Declaration.runAll ds .empty = .ok () r) : Accepts ds r :=
  of_runAll_append .nil h

theorem tidy (h : Accepts ds r) : r.Tidy := by
  induction h with
  | nil => exact tidy_empty
  | @concat _ d _ _ _ _ hrun ih =>
      have hd := ih.run d
      unfold RegistryM.after at hd
      rwa [hrun] at hd

theorem size (h : Accepts ds r) : r.size = ds.length := by
  induction h with
  | nil => rfl
  | concat h hrun ih =>
      rw [(Declaration.accepted_of_run hrun).size h.tidy.wellFormed, ih, List.length_append]
      rfl

/-- What is declared at a position was declared before, or it comes last. -/
theorem older_or_last (h : Accepts ds r) {d d' : Declaration} {i : Nat}
    (hi : (ds ++ [d])[i]? = some d') : i < r.size ∧ ds[i]? = some d' ∨ i = r.size ∧ d' = d := by
  rw [List.getElem?_append, List.getElem?_singleton, ← h.size] at hi
  split at hi
  · next hlt => exact Or.inl ⟨hlt, hi⟩
  · split at hi
    · exact Or.inr ⟨by omega, (Option.some.inj hi).symm⟩
    · cases hi

/-- Every node is what was declared at its position. -/
theorem bare (h : Accepts ds r) {i : Nat} {d : Declaration} (hi : ds[i]? = some d) :
    (r.node i).bare = d.bare := by
  induction h with
  | nil => cases hi
  | concat h hrun ih =>
      have hr := h.tidy.wellFormed
      have hd := Declaration.accepted_of_run hrun
      rcases h.older_or_last hi with ⟨hlt, hi⟩ | ⟨rfl, rfl⟩
      · rw [Node.bare_of_own (hd.own_old hr hlt), ih hi]
      · exact hd.bare_new hr

theorem lt_size_iff (h : Accepts ds r) {i : Nat} : i < r.size ↔ ∃ d, ds[i]? = some d := by
  rw [h.size]
  constructor
  · exact fun hi => ⟨_, List.getElem?_eq_getElem hi⟩
  · rintro ⟨d, hd⟩
    exact (List.getElem?_eq_some_iff.mp hd).1

/-- A node and its counterpart come from the same declaration. -/
theorem bare_eq (ha : Accepts a r) (hb : Accepts b r')
    (h : Declaration.numbered t b = (Declaration.numbered t a).map (Prod.map id σ)) {i : Nat}
    (hi : i < r.size) (ht : (r.node i).type = t) : (r'.node (σ i)).bare = (r.node i).bare := by
  obtain ⟨d, hd⟩ := ha.lt_size_iff.mp hi
  have hbare := ha.bare hd
  have htype : d.type = t := by
    have hbare' : (r.node i).bare = d.bare.bare := by rw [← hbare, Node.bare_bare]
    rw [← ht, Node.type_of_bare hbare', d.type_bare]
  rw [hbare, hb.bare (Declaration.getElem?_of_numbered h hd htype)]

theorem matches_of_part (ha : Accepts a r) (hb : Accepts b r')
    (h : Declaration.numbered t b = (Declaration.numbered t a).map (Prod.map id σ))
    (hpart : ∀ p, r'.part t (p.rename σ) = (r.part t p).map σ) : Matches r r' σ t where
  part := hpart
  bare m hm := by
    have hfits := ha.tidy.fits (p := .waiting t) hm
    exact ha.bare_eq hb h hfits.lt_size (hfits.type rfl)

/-- Where nothing is declared on behalf of a type it has no members. -/
theorem part_eq_nil (h : Accepts ds r) (ht : Declaration.numbered t ds = []) (p : Place) :
    r.part t p = [] := by
  induction h with
  | nil => exact part_empty
  | @concat _ d _ _ _ h hrun ih =>
      rw [Declaration.numbered_concat, List.append_eq_nil_iff] at ht
      obtain ⟨hrest, hlast⟩ := ht
      have hother : d.type ≠ t := fun heq => by simp [heq] at hlast
      rw [h.tidy.part_of_other (Declaration.accepted_of_run hrun) hother, ih hrest]

/-- Lists that agree on a type leave the same part of it behind. -/
theorem part (ha : Accepts a r) (hb : Accepts b r')
    (h : Declaration.numbered t b = (Declaration.numbered t a).map (Prod.map id σ))
    (p : Place) : r'.part t (p.rename σ) = (r.part t p).map σ := by
  induction ha generalizing b r' p with
  | nil => rw [part_empty, hb.part_eq_nil h, List.map_nil]
  | @concat a d _ r r₁ ha hrun ih =>
      have hd := Declaration.accepted_of_run hrun
      rw [Declaration.numbered_concat] at h
      by_cases ht : d.type = t
      · rw [if_pos ht, List.map_append] at h
        induction hb with
        | nil => simp [Declaration.numbered] at h
        | @concat b e _ r' r₁' hb hrun' ih' =>
            have he := Declaration.accepted_of_run hrun'
            rw [Declaration.numbered_concat] at h
            by_cases ht' : e.type = t
            · rw [if_pos ht'] at h
              obtain ⟨hrest, hlast⟩ := List.append_inj' h rfl
              obtain ⟨rfl, hnumber⟩ := Prod.mk.inj (List.singleton_inj.mp hlast)
              have hmatches := ha.matches_of_part hb hrest (ih hb hrest)
              subst ht
              refine hmatches.accepted ha.tidy hb.tidy hd he ?_ p
              rw [ha.size, hb.size]
              exact hnumber.symm
            · rw [if_neg ht', List.append_nil] at h
              rw [hb.tidy.part_of_other he ht', ih' h]
      · rw [if_neg ht, List.append_nil] at h
        rw [ha.tidy.part_of_other hd ht, ih hb h]

end Registry.Accepts

end SchemaGraph
