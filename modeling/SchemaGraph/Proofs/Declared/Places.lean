import SchemaGraph.Proofs.Declared.Outcomes

/-!
# Where members are

A member waits for its type, is held by the type that claimed it, or went astray;
a single argument is held by its field. Declaring a type empties one waiting room
and spreads what was in it over other places, each member to a place that depends
on the member alone. So what a declaration does to all places at once is said by
one function from members to places, and that no member is ever in two places
follows from its being a function.
-/

set_option autoImplicit false

namespace SchemaGraph

/-- The nodes of one kind that a node holds. -/
def Node.held : Node → NodeKind → List NodeId
  | .object n, .field => n.fields
  | .object n, .implement => n.implementEdges
  | .interface n, .field => n.fields
  | .inputObject n, .inputField => n.inputFields
  | .args n, .inputField => n.inputFields
  | .field n, .arg => n.args
  | _, _ => []

inductive Place where
  | waiting (t : HostType)
  | heldBy (owner : NodeId) (kind : NodeKind)
  | stray
deriving DecidableEq

/-- Whether nodes of this kind are declared for the sake of another. -/
def NodeKind.isMember : NodeKind → Bool
  | .field => true
  | .arg => true
  | .inputField => true
  | .implement => true
  | _ => false

/-- The kinds of members that a type of the first kind claims. -/
def NodeKind.claims : NodeKind → NodeKind → Bool
  | .object, .field => true
  | .object, .arg => true
  | .object, .implement => true
  | .interface, .field => true
  | .interface, .arg => true
  | .inputObject, .inputField => true
  | .args, .inputField => true
  | _, _ => false

/-- The kinds of members that may be at a place. -/
def Place.Admits : Place → NodeKind → Prop
  | .waiting _, kind => kind.isMember = true
  | .heldBy _ kind', kind => kind = kind'
  | .stray, kind => kind = .arg

namespace Registry

variable {r r' : Registry}

/-- The members at a place. -/
def members (r : Registry) : Place → List NodeId
  | .waiting t => r.staged t
  | .heldBy owner kind => (r.node owner).held kind
  | .stray => r.stray

/-- The host type that a place belongs to. -/
def placeType? (r : Registry) : Place → Option HostType
  | .waiting t => some t
  | .heldBy owner _ => some (r.node owner).type
  | .stray => none

end Registry

/-! ## What notes leave alone -/

namespace Node

variable {n n' : Node}

theorem kind_of_own (h : n.own = n'.own) : n.kind = n'.kind :=
  congr_own (by rintro (_ | _) <;> rfl) h

theorem arg?_of_own (h : n.own = n'.own) : n.arg? = n'.arg? :=
  congr_own (by rintro (_ | _) <;> rfl) h

theorem memberName?_of_own (h : n.own = n'.own) : n.memberName? = n'.memberName? :=
  congr_own (by rintro (_ | _) <;> rfl) h

theorem exists_of_kind_field (h : n.kind = .field) : ∃ f, n = .field f := by
  cases n with
  | field f => exact ⟨f, rfl⟩
  | object _ | interface _ | inputObject _ | args _ | arg _ | inputField _ | implement _ =>
      cases h

theorem exists_of_kind_arg (h : n.kind = .arg) : ∃ a, n.arg? = some a := by
  cases n with
  | arg a => exact ⟨a, rfl⟩
  | object _ | interface _ | inputObject _ | field _ | args _ | inputField _ | implement _ =>
      cases h

theorem exists_of_kind_inputField (h : n.kind = .inputField) : ∃ m, n = .inputField m := by
  cases n with
  | inputField m => exact ⟨m, rfl⟩
  | object _ | interface _ | inputObject _ | field _ | args _ | arg _ | implement _ => cases h

theorem eq_arg_of_arg? {a : ArgNode} (h : n.arg? = some a) : n = .arg a := by
  cases n with
  | arg _ => rw [Option.some.inj h]
  | object _ | interface _ | inputObject _ | field _ | args _ | inputField _ | implement _ =>
      cases h

theorem kind_of_isSchemaType (h : n.isSchemaType = true) :
    n.kind = .object ∨ n.kind = .interface ∨ n.kind = .inputObject := by
  cases n with
  | object _ => exact Or.inl rfl
  | interface _ => exact Or.inr (Or.inl rfl)
  | inputObject _ => exact Or.inr (Or.inr rfl)
  | field _ | args _ | arg _ | inputField _ | implement _ => cases h

end Node

namespace Registry

variable {r r' : Registry} {fields : List NodeId}

/-! ## Arguments -/

/-- Where an argument goes when the fields are claimed: to the first field it was
declared for, else astray. -/
def argPlace (r : Registry) (fields : List NodeId) (arg : NodeId) : Place :=
  match (r.node arg).arg?.bind fun a =>
      fields.find? fun id => (r.node id).memberName? = some a.field with
  | some field => .heldBy field .arg
  | none => .stray

theorem Alike.argPlace (h : Alike r r') (fields : List NodeId) (arg : NodeId) :
    r'.argPlace fields arg = r.argPlace fields arg := by
  simp only [Registry.argPlace, Node.arg?_of_own (h.own arg),
    Node.memberName?_of_own (h.own _)]

theorem argPlace_ne_waiting {arg : NodeId} {t : HostType} :
    r.argPlace fields arg ≠ .waiting t := by
  unfold argPlace
  split <;> simp

/-- An argument that goes to a field bears its name. -/
theorem argPlace_eq_heldBy {arg f : NodeId} {k : NodeKind}
    (h : r.argPlace fields arg = .heldBy f k) :
    k = .arg ∧ f ∈ fields ∧ ∃ a, (r.node arg).arg? = some a ∧
      (r.node f).memberName? = some a.field := by
  unfold argPlace at h
  cases hfound : (r.node arg).arg?.bind fun a =>
      fields.find? fun id => (r.node id).memberName? = some a.field with
  | none =>
      rw [hfound] at h
      cases h
  | some f' =>
      rw [hfound] at h
      cases h
      obtain ⟨a, ha, hfind⟩ := Option.bind_eq_some_iff.mp hfound
      exact ⟨rfl, List.mem_of_find?_eq_some hfind, a, ha,
        by simpa using List.find?_some hfind⟩

theorem members_modifyNode {i : NodeId} {f : Node → Node} (hf : f .absent = .absent)
    (hheld : ∀ k, (f (r.node i)).held k = (r.node i).held k) (p : Place) :
    (r.modifyNode i f).members p = r.members p := by
  cases p with
  | waiting t => rfl
  | stray => rfl
  | heldBy o k =>
      rw [members, members, r.node_modifyNode i hf]
      split
      · next heq => rw [heq, hheld]
      · rfl

theorem members_attachArg (hfields : ∀ f ∈ fields, (r.node f).kind = .field)
    {arg : NodeId} (harg : (r.node arg).kind = .arg) (p : Place) :
    (r.attachArg fields arg).members p =
      r.members p ++ if r.argPlace fields arg = p then [arg] else [] := by
  obtain ⟨a, ha⟩ := Node.exists_of_kind_arg harg
  cases hfind : fields.find? fun id => (r.node id).memberName? = some a.field with
  | none =>
      have hplace : r.argPlace fields arg = .stray := by
        simp [argPlace, ha, hfind]
      simp only [attachArg, ha, hfind, hplace]
      cases p with
      | stray => rfl
      | waiting t => exact (List.append_nil _).symm
      | heldBy o k => exact (List.append_nil _).symm
  | some f =>
      have hplace : r.argPlace fields arg = .heldBy f .arg := by
        simp [argPlace, ha, hfind]
      obtain ⟨n, hn⟩ :=
        Node.exists_of_kind_field (hfields f (List.mem_of_find?_eq_some hfind))
      simp only [attachArg, ha, hfind, hplace]
      cases p with
      | stray => exact (List.append_nil _).symm
      | waiting t => exact (List.append_nil _).symm
      | heldBy o k =>
          rw [members, members, r.node_modifyNode f rfl]
          by_cases ho : o = f
          · subst ho
            rw [if_pos rfl, hn]
            cases k <;> simp [Node.held]
          · simp [ho, Ne.symm ho]

/-- Each argument goes to its place, and nothing else moves. -/
theorem members_attachArgs {args : List NodeId} :
    ∀ {r : Registry}, (∀ f ∈ fields, (r.node f).kind = .field) →
      (∀ a ∈ args, (r.node a).kind = .arg) → ∀ p,
      (r.attachArgs fields args).members p =
        r.members p ++ args.filter fun a => r.argPlace fields a = p := by
  induction args with
  | nil => exact fun _ _ p => (List.append_nil _).symm
  | cons arg rest ih =>
      intro r hfields hargs p
      have halike := (r.attachArg_alike fields arg).1
      have hrest := ih (r := r.attachArg fields arg)
        (fun f hf => (Node.kind_of_own (halike.own f)).trans (hfields f hf))
        (fun a ha => (Node.kind_of_own (halike.own a)).trans (hargs a (by simp [ha]))) p
      rw [attachArgs, List.foldl_cons]
      refine hrest.trans ?_
      rw [members_attachArg hfields (hargs arg (by simp)), List.append_assoc]
      congr 1
      simp only [halike.argPlace, List.filter_cons]
      split <;> simp_all

/-! ## Implements edges -/

theorem members_noteImplementer (o e : NodeId) (p : Place) :
    (r.noteImplementer o e).members p = r.members p := by
  unfold noteImplementer
  split
  · rfl
  · next m _ =>
      refine members_modifyNode rfl (fun k => ?_) p
      cases r.node m.interface <;> cases k <;> rfl

/-- Noting implementers moves nothing. -/
theorem members_noteImplementers (o : NodeId) {edges : List NodeId} :
    ∀ {r : Registry} (p : Place),
      (edges.foldl (fun r e => r.noteImplementer o e) r).members p = r.members p := by
  induction edges with
  | nil => exact fun _ => rfl
  | cons e rest ih =>
      intro r p
      rw [List.foldl_cons, ih, members_noteImplementer]

/-! ## Waiting and being claimed -/

theorem members_unstage (t : HostType) (p : Place) :
    (r.unstage t).members p = if p = .waiting t then [] else r.members p := by
  cases p with
  | waiting t' => simp only [members, staged_unstage, Place.waiting.injEq]
  | heldBy o k => rfl
  | stray => rfl

/-- Where a declaration of `t` as a node of the kind `owner` leaves a member. What it
does not claim is left nowhere. -/
def destination (r : Registry) (t : HostType) (owner : NodeKind) (m : NodeId) :
    Option Place :=
  let kind := (r.node m).kind
  if owner.claims kind then
    if kind = .arg then some (r.argPlace (r.stagedOf t .field) m)
    else some (.heldBy r.size kind)
  else none

theorem destination_eq_some {t : HostType} {owner : NodeKind} {m : NodeId}
    {p : Place} : r.destination t owner m = some p ↔
      owner.claims (r.node m).kind = true ∧
        ((r.node m).kind = .arg ∧ r.argPlace (r.stagedOf t .field) m = p ∨
          (r.node m).kind ≠ .arg ∧ p = .heldBy r.size (r.node m).kind) := by
  unfold destination
  by_cases hclaims : owner.claims (r.node m).kind = true
  · by_cases harg : (r.node m).kind = .arg
    · rw [harg] at hclaims
      simp [harg, hclaims]
    · simp [hclaims, harg, eq_comm]
  · simp [hclaims]

/-- A type is declared for `t`, as the node `n`: the members that wait for it go to
their destinations. -/
structure Claims (r r' : Registry) (t : HostType) (n : Node) : Prop where
  type : n.type = t
  size : r'.size = r.size + 1
  own : ∀ id, (r'.node id).own = if id = r.size then n.own else (r.node id).own
  moves : ∀ p, r'.members p = (if p = .waiting t then [] else r.members p) ++
    (r.staged t).filter fun m => r.destination t n.kind m = some p
  types : r'.types = if n.kind = .args then r.types else r.types.insert t r.size
  args : r'.args = if n.kind = .args then r.args.insert t r.size else r.args

theorem Claims.own_new {t : HostType} {n : Node} (h : r.Claims r' t n) :
    (r'.node r.size).own = n.own := by rw [h.own, if_pos rfl]

/-- A new node holds what it claimed, if the arguments have been attached before and
only notes are made afterwards. -/
theorem Claims.of_push {r₁ : Registry} {t : HostType} {n : Node} (hr : r.WellFormed)
    (htype : n.type = t)
    (hheld : ∀ k, n.held k =
      if n.kind.claims k = true ∧ k ≠ .arg then r.stagedOf t k else [])
    (halike : Alike (r.unstage t) r₁)
    (hmembers₁ : ∀ p, r₁.members p = (r.unstage t).members p ++
      (r.staged t).filter fun m => n.kind.claims .arg = true ∧ (r.node m).kind = .arg ∧
        r.argPlace (r.stagedOf t .field) m = p)
    (hsize : r'.size = (r₁.push n).size)
    (hown : ∀ id, (r'.node id).own = ((r₁.push n).node id).own)
    (hmembers : ∀ p, r'.members p = (r₁.push n).members p)
    (htypes : r'.types = if n.kind = .args then r₁.types else r₁.types.insert t r₁.size)
    (hargs : r'.args = if n.kind = .args then r₁.args.insert t r₁.size else r₁.args) :
    r.Claims r' t n := by
  have hsize₁ : r₁.size = r.size := halike.size
  refine ⟨htype, by rw [hsize, size_push, hsize₁], fun id => ?_, fun p => ?_,
    by rw [htypes, halike.types, hsize₁]; rfl, by rw [hargs, halike.args, hsize₁]; rfl⟩
  · rw [hown, node_push, hsize₁]
    split
    · rfl
    · exact halike.own id
  rw [hmembers, ← members_unstage]
  by_cases hnew : ∃ k, p = .heldBy r.size k
  · obtain ⟨k, rfl⟩ := hnew
    -- Nothing was held by the new node before, and no argument goes to it.
    have hbefore : (r.unstage t).members (.heldBy r.size k) = [] := by
      rw [members_unstage, if_neg (by simp), members, node_of_size_le (Nat.le_refl _)]
      cases k <;> rfl
    have hargs : ∀ m, r.argPlace (r.stagedOf t .field) m ≠ .heldBy r.size k := by
      intro m hplace
      obtain ⟨-, hf, -⟩ := argPlace_eq_heldBy hplace
      exact absurd (hr.staged (mem_staged_of_stagedOf hf)) (Nat.lt_irrefl _)
    rw [hbefore, List.nil_append, members, node_push, if_pos hsize₁.symm, hheld]
    simp only [destination_eq_some, hargs, and_false, false_or, Place.heldBy.injEq,
      true_and]
    split
    · next hk =>
        refine List.filter_congr fun m _ => ?_
        by_cases hm : (r.node m).kind = k
        · simp [hm, hk]
        · simp [hm, Ne.symm hm]
    · next hk =>
        refine (List.filter_eq_nil_iff.mpr fun m _ hm => hk ?_).symm
        obtain ⟨hclaims, harg, rfl⟩ := of_decide_eq_true hm
        exact ⟨hclaims, harg⟩
  · have hold : (r₁.push n).members p = r₁.members p := by
      cases p with
      | waiting t' => rfl
      | stray => rfl
      | heldBy o k =>
          have ho : o ≠ r₁.size := fun ho => hnew ⟨k, by rw [ho, hsize₁]⟩
          rw [members, members, node_push, if_neg ho]
    rw [hold, hmembers₁]
    congr 1
    refine List.filter_congr fun m _ => decide_eq_decide.mpr ?_
    rw [destination_eq_some]
    constructor
    · rintro ⟨hclaims, harg, hplace⟩
      exact ⟨harg ▸ hclaims, Or.inl ⟨harg, hplace⟩⟩
    · rintro ⟨hclaims, ⟨harg, hplace⟩ | ⟨-, hplace⟩⟩
      · exact ⟨harg ▸ hclaims, harg, hplace⟩
      · exact absurd ⟨_, hplace⟩ hnew

theorem alike_noteImplementers (o : NodeId) {edges : List NodeId} :
    ∀ r : Registry, Alike r (edges.foldl (fun r e => r.noteImplementer o e) r) := by
  induction edges with
  | nil => exact Alike.refl
  | cons e rest ih => exact fun r => (r.noteImplementer_alike o e).trans (ih _)

theorem stagedOf_filter {t : HostType} {k : NodeKind} {q : NodeId → Prop}
    [DecidablePred q] : (r.stagedOf t k).filter (fun m => q m) =
      (r.staged t).filter fun m => (r.node m).kind = k ∧ q m := by
  rw [stagedOf, List.filter_filter]
  refine List.filter_congr fun m _ => ?_
  rw [Bool.and_comm, Bool.decide_and]

/-- Attaching the arguments that wait, once the waiting room is empty. -/
theorem members_attachStaged (t : HostType) {owner : NodeKind}
    (howner : owner.claims .arg = true) (p : Place) :
    ((r.unstage t).attachArgs (r.stagedOf t .field) (r.stagedOf t .arg)).members p =
      (r.unstage t).members p ++ (r.staged t).filter fun m => owner.claims .arg = true ∧
        (r.node m).kind = .arg ∧ r.argPlace (r.stagedOf t .field) m = p := by
  have hkind : ∀ k, ∀ m ∈ r.stagedOf t k, ((r.unstage t).node m).kind = k :=
    fun k m hm => of_decide_eq_true (List.mem_filter.mp hm).2
  simp only [howner, true_and]
  rw [members_attachArgs (hkind .field) (hkind .arg), ← stagedOf_filter]
  rfl

namespace WellFormed

theorem claims_declareObject (h : r.WellFormed) (t : HostType) (decl : ObjectDecl)
    (metadata : TypeMetadata) :
    r.Claims (r.declareObject t decl metadata) t
      (.object ⟨metadata, t, r.stagedOf t .field, r.stagedOf t .implement,
        decl.extends?⟩) := by
  have halike :=
    (attachArgs_alike (r.stagedOf t .field) (r.stagedOf t .arg) (r.unstage t)).1
  refine Claims.of_push h rfl ?_ halike (members_attachStaged t rfl) ?_ ?_ ?_ ?_ ?_
  · intro k
    cases k <;> rfl
  · exact (alike_noteImplementers _ _).size
  · exact (alike_noteImplementers _ _).own
  · exact members_noteImplementers _
  · rw [if_neg (by simp [Node.kind])]
    exact congrArg (OrderedMap.insert · t _) (alike_noteImplementers _ _).types
  · exact (alike_noteImplementers _ _).args

theorem claims_declareInterface (h : r.WellFormed) (t : HostType)
    (metadata : TypeMetadata) :
    r.Claims (r.declareInterface t metadata) t
      (.interface ⟨metadata, t, r.stagedOf t .field, []⟩) := by
  have halike :=
    (attachArgs_alike (r.stagedOf t .field) (r.stagedOf t .arg) (r.unstage t)).1
  refine Claims.of_push h rfl ?_ halike (members_attachStaged t rfl) rfl (fun _ => rfl)
    (fun p => ?_) rfl rfl
  · intro k
    cases k <;> rfl
  · cases p <;> rfl

theorem claims_declareInputObject (h : r.WellFormed) (c : InputConstructor)
    (metadata : TypeMetadata) :
    r.Claims (r.declareInputObject c metadata) c.type
      (.inputObject ⟨metadata, c.type, r.stagedOf c.type .inputField, c⟩) := by
  refine Claims.of_push h rfl ?_ (Alike.refl _) (fun p => ?_) rfl (fun _ => rfl)
    (fun p => ?_) rfl rfl
  · intro k
    cases k <;> rfl
  · simp [Node.kind, NodeKind.claims]
  · cases p <;> rfl

theorem claims_declareArgs (h : r.WellFormed) (c : InputConstructor) :
    r.Claims (r.declareArgs c) c.type
      (.args ⟨c.type, r.stagedOf c.type .inputField, c⟩) := by
  refine Claims.of_push h rfl ?_ (Alike.refl _) (fun p => ?_) rfl (fun _ => rfl)
    (fun p => ?_) rfl rfl
  · intro k
    cases k <;> rfl
  · simp [Node.kind, NodeKind.claims]
  · cases p <;> rfl

end WellFormed

end Registry

end SchemaGraph
