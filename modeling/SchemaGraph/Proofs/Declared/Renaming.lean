import SchemaGraph.Declared.Metadata
import SchemaGraph.Proofs.Compile.Meaning
import SchemaGraph.Proofs.Declared.Chains
import SchemaGraph.Proofs.RelatedMaps

/-!
# Renaming nodes

The number of a node says when it was declared, and nothing that is read off a registry
depends on it. Two registries are renamings of each other when a permutation of numbers
takes the nodes of one to those of the other. Lists that say in which order things were
declared are free: the types, the bundles, the waiting rooms, the stray arguments, and the
implementers that an interface noted. All other lists are taken over as they are.

Linking and the chain of an object look at nothing that is free, so they answer the same
up to renaming. Descendants and implementers are listed in the order of declaration, and
are the same as sets.
-/

set_option autoImplicit false

namespace SchemaGraph

/-! ## Nodes -/

/-- A node without the nodes it refers to. -/
def Node.bare : Node → Node
  | .object n => .object { n with fields := [], implementEdges := [] }
  | .interface n => .interface { n with fields := [], implementers := [] }
  | .inputObject n => .inputObject { n with inputFields := [] }
  | .field n => .field { n with args := [] }
  | .args n => .args { n with inputFields := [] }
  | .implement n => .implement { n with interface := 0 }
  | n => n

/-- A node with the nodes it refers to renamed. -/
def Node.rename (σ : Equiv.Perm NodeId) : Node → Node
  | .object n => .object
    { n with fields := n.fields.map σ, implementEdges := n.implementEdges.map σ }
  | .interface n => .interface
    { n with fields := n.fields.map σ, implementers := n.implementers.map σ }
  | .inputObject n => .inputObject { n with inputFields := n.inputFields.map σ }
  | .field n => .field { n with args := n.args.map σ }
  | .args n => .args { n with inputFields := n.inputFields.map σ }
  | .implement n => .implement { n with interface := σ n.interface }
  | n => n

/-- Nodes that differ at most in the order of the implementers of an interface. -/
inductive Node.Resembles : Node → Node → Prop where
  | refl (n : Node) : Resembles n n
  | interface {n : InterfaceNode} {implementers : List NodeId} :
      implementers.Perm n.implementers →
      Resembles (.interface n) (.interface { n with implementers })

namespace Node

variable {n n' : Node} {σ : Equiv.Perm NodeId}

theorem bare_of_own (h : n.own = n'.own) : n.bare = n'.bare :=
  congr_own (by rintro (_ | _) <;> rfl) h

theorem bare_bare (n : Node) : n.bare.bare = n.bare := by cases n <;> rfl

theorem bare_rename (n : Node) (σ : Equiv.Perm NodeId) : (n.rename σ).bare = n.bare := by
  cases n <;> rfl

theorem Resembles.bare (h : n.Resembles n') : n'.bare = n.bare := by cases h <;> rfl

/-- Only interfaces have something whose order is free. -/
theorem Resembles.eq (h : n.Resembles n') (hn : n.isInterface = false) : n' = n := by
  cases h with
  | refl => rfl
  | interface _ => cases hn

/-- A reading that does not look at implementers makes the same of both. -/
theorem Resembles.congr {β : Type} {f : Node → β} (h : n.Resembles n')
    (hf : ∀ (i : InterfaceNode) (implementers : List NodeId),
      f (.interface { i with implementers }) = f (.interface i)) : f n' = f n := by
  cases h with
  | refl => rfl
  | interface _ => exact hf _ _

/-- What makes nothing of other nodes is the same for nodes that differ in these. -/
theorem congr_bare {β : Type} {f : Node → β} (hf : ∀ n : Node, f n.bare = f n)
    (h : n.bare = n'.bare) : f n = f n' := by
  rw [← hf n, h, hf n']

theorem type_of_bare (h : n.bare = n'.bare) : n.type = n'.type :=
  congr_bare (by rintro (_ | _) <;> rfl) h

theorem kind_of_bare (h : n.bare = n'.bare) : n.kind = n'.kind :=
  congr_bare (by rintro (_ | _) <;> rfl) h

theorem displayName_of_bare (h : n.bare = n'.bare) : n.displayName = n'.displayName :=
  congr_bare (by rintro (_ | _) <;> rfl) h

theorem isSchemaType_of_bare (h : n.bare = n'.bare) : n.isSchemaType = n'.isSchemaType :=
  congr_bare (by rintro (_ | _) <;> rfl) h

theorem isObject_of_bare (h : n.bare = n'.bare) : n.isObject = n'.isObject :=
  congr_bare (by rintro (_ | _) <;> rfl) h

theorem isInterface_of_bare (h : n.bare = n'.bare) : n.isInterface = n'.isInterface :=
  congr_bare (by rintro (_ | _) <;> rfl) h

theorem isInputObject_of_bare (h : n.bare = n'.bare) : n.isInputObject = n'.isInputObject :=
  congr_bare (by rintro (_ | _) <;> rfl) h

theorem arg?_of_bare (h : n.bare = n'.bare) : n.arg? = n'.arg? :=
  congr_bare (by rintro (_ | _) <;> rfl) h

theorem memberName?_of_bare (h : n.bare = n'.bare) : n.memberName? = n'.memberName? :=
  congr_bare (by rintro (_ | _) <;> rfl) h

theorem constructor?_of_bare (h : n.bare = n'.bare) : n.constructor? = n'.constructor? :=
  congr_bare (by rintro (_ | _) <;> rfl) h

end Node

/-! ## Registries -/

/-- The second registry is the first one with its nodes renamed. -/
structure Registry.Renames (σ : Equiv.Perm NodeId) (r r' : Registry) : Prop where
  size : r'.size = r.size
  fixed : ∀ {id}, r.size ≤ id → σ id = id
  node : ∀ id, ((r.node id).rename σ).Resembles (r'.node (σ id))
  types : r'.types.entries.Perm (r.types.entries.map (Prod.map id σ))
  args : r'.args.entries.Perm (r.args.entries.map (Prod.map id σ))
  waiting : r'.waiting.entries.Perm (r.waiting.entries.map (Prod.map id (List.map σ)))
  stray : r'.stray.Perm (r.stray.map σ)

def Link.rename (σ : Equiv.Perm NodeId) : Link → Link
  | .node id => .node (σ id)
  | .given t => .given t

def LinkedArg.rename (σ : Equiv.Perm NodeId) (a : LinkedArg) : LinkedArg :=
  { a with type := a.type.rename σ }

def LinkedField.rename (σ : Equiv.Perm NodeId) (f : LinkedField) : LinkedField :=
  { f with type := f.type.rename σ, args? := f.args?.map σ, arg? := f.arg?.map (.rename σ) }

def LinkedInput.rename (σ : Equiv.Perm NodeId) (i : LinkedInput) : LinkedInput :=
  { i with type := i.type.rename σ }

/-- Steps that answer the same up to renaming, one after the other. -/
theorem bind_renamed {α α' β β' : Type} {x : Except SchemaError α}
    {x' : Except SchemaError α'} {g : α → Except SchemaError β}
    {g' : α' → Except SchemaError β'} {f : α → α'} {k : β → β'}
    (hx : x' = x.map f) (hg : ∀ a, g' (f a) = (g a).map k) :
    (x' >>= g') = (x >>= g).map k := by
  subst hx
  cases x with
  | error e => rfl
  | ok a => exact hg a

namespace Registry.Renames

variable {σ : Equiv.Perm NodeId} {r r' : Registry} {id : NodeId} {t : HostType}

/-! ### Single nodes -/

theorem bare (h : r.Renames σ r') (id : NodeId) : (r'.node (σ id)).bare = (r.node id).bare := by
  rw [(h.node id).bare, Node.bare_rename]

theorem node_eq (h : r.Renames σ r') {n : Node} (hn : r.node id = n)
    (hkind : n.isInterface = false) : r'.node (σ id) = n.rename σ := by
  subst hn
  refine (h.node id).eq ?_
  rw [Node.isInterface_of_bare (Node.bare_rename _ σ), hkind]

theorem node_interface (h : r.Renames σ r') {n : InterfaceNode}
    (hn : r.node id = .interface n) : ∃ implementers,
      r'.node (σ id) = .interface { n with fields := n.fields.map σ, implementers } ∧
      implementers.Perm (n.implementers.map σ) := by
  have hresembles := h.node id
  rw [hn] at hresembles
  generalize r'.node (σ id) = n' at hresembles
  cases hresembles with
  | refl => exact ⟨_, rfl, .refl _⟩
  | interface hperm => exact ⟨_, rfl, hperm⟩

/-! ### Finding nodes -/

theorem find?_types (h : r.Renames σ r') (t : HostType) :
    r'.types.find? t = (r.types.find? t).map σ := OrderedMap.entries_perm_iff.mp h.types t

theorem find?_args (h : r.Renames σ r') (t : HostType) :
    r'.args.find? t = (r.args.find? t).map σ := OrderedMap.entries_perm_iff.mp h.args t

theorem getNode (h : r.Renames σ r') (t : HostType) :
    r'.getNode t = (r.getNode t).map σ := by
  unfold Registry.getNode find?
  rw [h.find?_types, h.find?_args]
  cases r.types.find? t with
  | some id => rfl
  | none => cases r.args.find? t <;> rfl

theorem getArgsNode (h : r.Renames σ r') (t : HostType) :
    r'.getArgsNode t = (r.getArgsNode t).map σ := by
  unfold Registry.getArgsNode
  rw [h.find?_args]
  cases r.args.find? t <;> rfl

theorem ownerName (h : r.Renames σ r') (t : HostType) : r'.ownerName t = r.ownerName t := by
  unfold Registry.ownerName
  rw [h.find?_types]
  cases r.types.find? t with
  | none => rfl
  | some id => exact Node.displayName_of_bare (h.bare id)

theorem inputFields? (h : r.Renames σ r') (id : NodeId) :
    (r'.node (σ id)).inputFields? = (r.node id).inputFields?.map (List.map σ) := by
  rw [(h.node id).congr (f := Node.inputFields?) fun _ _ => rfl]
  cases r.node id <;> rfl

/-! ### Linking -/

theorem link (h : r.Renames σ r') (e : TypeExpr) :
    r'.link e = (r.link e).map (Link.rename σ) := by
  cases e with
  | ref t =>
      rw [Registry.link, Registry.link, h.getNode]
      cases r.getNode t <;> rfl
  | scalar _ | enum _ | union _ | list _ | nullable _ => rfl

theorem attachedArg? (h : r.Renames σ r') (n : FieldNode) :
    r'.attachedArg? { n with args := n.args.map σ } = r.attachedArg? n := by
  unfold Registry.attachedArg?
  cases n.args with
  | nil => rfl
  | cons a _ => exact Node.arg?_of_bare (h.bare a)

theorem linkArgs (h : r.Renames σ r') (t? : Option HostType) :
    r'.linkArgs t? = (r.linkArgs t?).map (Option.map σ) := by
  cases t? with
  | none => rfl
  | some t =>
      simp only [Registry.linkArgs, h.getArgsNode]
      cases r.getArgsNode t with
      | error e => rfl
      | ok id =>
          show (if ((r'.node (σ id)).inputFields?.getD []).isEmpty then
              Except.error (SchemaError.noArgsFound t.shortName) else .ok (some (σ id))) =
            Except.map (Option.map σ) (if ((r.node id).inputFields?.getD []).isEmpty then
              .error (.noArgsFound t.shortName) else .ok (some id))
          have hempty : ((r'.node (σ id)).inputFields?.getD []).isEmpty =
              ((r.node id).inputFields?.getD []).isEmpty := by
            rw [h.inputFields?]
            cases (r.node id).inputFields? with
            | none => rfl
            | some ids => cases ids <;> rfl
          rw [hempty]
          split <;> rfl

theorem linkArg (h : r.Renames σ r') (owner field : String) (type? : Option TypeExpr)
    (node? : Option ArgNode) : r'.linkArg owner field type? node? =
      (r.linkArg owner field type? node?).map (Option.map (LinkedArg.rename σ)) := by
  cases type? with
  | none => cases node? <;> rfl
  | some e =>
      cases node? with
      | none => rfl
      | some n =>
          rw [Registry.linkArg, Registry.linkArg, h.link]
          cases r.link e <;> rfl

theorem linkField (h : r.Renames σ r') (id : NodeId) :
    r'.linkField (σ id) = (r.linkField id).map (LinkedField.rename σ) := by
  cases hn : r.node id with
  | field n =>
      have hn' : r'.node (σ id) = .field { n with args := n.args.map σ } := h.node_eq hn rfl
      have hargType : ∀ arg?, argType? { n with args := n.args.map σ } arg? = argType? n arg? :=
        fun _ => rfl
      simp only [Registry.linkField, hn, hn', h.ownerName, h.attachedArg?, hargType]
      cases n.decl.type? with
      | none => rfl
      | some e =>
          refine bind_renamed (h.link e) fun type => ?_
          split
          · rfl
          · exact bind_renamed (h.linkArgs _) fun args? =>
              bind_renamed (h.linkArg _ _ _ _) fun arg? => rfl
  | interface n =>
      obtain ⟨_, hn', -⟩ := h.node_interface hn
      simp only [Registry.linkField, hn, hn']
      rfl
  | object _ | inputObject _ | args _ | arg _ | inputField _ | implement _ =>
      have hn' := h.node_eq hn rfl
      simp only [Registry.linkField, hn, hn']
      rfl

theorem linkInput (h : r.Renames σ r') (id : NodeId) :
    r'.linkInput (σ id) = (r.linkInput id).map (LinkedInput.rename σ) := by
  cases hn : r.node id with
  | inputField n =>
      have hn' : r'.node (σ id) = .inputField n := h.node_eq hn rfl
      simp only [Registry.linkInput, hn, hn', h.ownerName, h.link]
      cases n.decl.type? with
      | none => rfl
      | some e =>
          dsimp only
          cases r.link e <;> rfl
  | interface n =>
      obtain ⟨_, hn', -⟩ := h.node_interface hn
      simp only [Registry.linkInput, hn, hn']
      rfl
  | object _ | inputObject _ | field _ | args _ | arg _ | implement _ =>
      have hn' := h.node_eq hn rfl
      simp only [Registry.linkInput, hn, hn']
      rfl

/-! ### Chains -/

theorem contains_map (l : List NodeId) (id : NodeId) :
    (l.map σ).contains (σ id) = l.contains id := by
  rw [Bool.eq_iff_iff, List.contains_iff_mem, List.contains_iff_mem,
    List.mem_map_of_injective σ.injective]

/-- One link of a chain. -/
theorem chainFrom_of_next (h : r.Renames σ r') {steps : Nat} {seen : List NodeId}
    (hnext : ∀ steps', steps = steps' + 1 → ∀ p,
      r'.chainFrom steps' ((p :: seen).map σ) (σ p) =
        (r.chainFrom steps' (p :: seen) p).map (List.map σ)) (id : NodeId) :
    r'.chainFrom steps (seen.map σ) (σ id) =
      (r.chainFrom steps seen id).map (List.map σ) := by
  unfold Registry.chainFrom
  cases hn : r.node id with
  | object n =>
      rw [h.node_eq hn rfl]
      dsimp only [Node.rename]
      cases n.extends? with
      | none => rfl
      | some link =>
          dsimp only
          rw [h.getNode]
          cases r.getNode link.parent with
          | error e => rfl
          | ok p =>
              dsimp only [Except.map]
              rw [contains_map]
              split
              · rfl
              · cases steps with
                | zero => rfl
                | succ steps =>
                    have hrest := hnext steps rfl p
                    rw [List.map_cons] at hrest
                    dsimp only
                    rw [hrest]
                    cases r.chainFrom steps (p :: seen) p <;> rfl
  | interface n =>
      obtain ⟨_, hn', -⟩ := h.node_interface hn
      rw [hn']
      rfl
  | inputObject _ | field _ | args _ | arg _ | inputField _ | implement _ =>
      rw [h.node_eq hn rfl]
      rfl

theorem chainFrom (h : r.Renames σ r') (steps : Nat) : ∀ (seen : List NodeId) (id : NodeId),
    r'.chainFrom steps (seen.map σ) (σ id) =
      (r.chainFrom steps seen id).map (List.map σ) := by
  induction steps with
  | zero => exact fun seen => h.chainFrom_of_next fun _ hsteps => nomatch hsteps
  | succ steps ih =>
      refine fun seen => h.chainFrom_of_next fun steps' hsteps p => ?_
      cases hsteps
      exact ih (p :: seen) p

theorem chain (h : r.Renames σ r') (id : NodeId) :
    r'.chain (σ id) = (r.chain id).map (List.map σ) := by
  have htypes : r'.types.size = r.types.size := by
    simpa [OrderedMap.size] using h.types.length_eq
  have hargs : r'.args.size = r.args.size := by
    simpa [OrderedMap.size] using h.args.length_eq
  rw [Registry.chain, Registry.chain, htypes, hargs]
  exact h.chainFrom _ [id] id

/-! ### Descendants and implementers -/

theorem mem_objects (h : r.Renames σ r') (hr : r.WellFormed) (hr' : r'.WellFormed)
    (o : NodeId) : σ o ∈ r'.objects ↔ o ∈ r.objects := by
  rw [hr'.mem_objects, hr.mem_objects, Node.isObject_of_bare (h.bare o)]

/-- Looking through the chains of all objects finds the same ones. -/
theorem mem_found (h : r.Renames σ r') (hr : r.WellFormed) (hr' : r'.WellFormed)
    {P Q : NodeId → Prop} [DecidablePred P] [DecidablePred Q] {T U : List NodeId → Bool}
    (hP : ∀ o, Q (σ o) ↔ P o) (hT : ∀ chain : List NodeId, U (chain.map σ) = T chain)
    {found found' : List NodeId}
    (hfound : r.objects.filterMapM (fun o =>
      if P o then Except.ok none
      else
        match r.chain o with
        | .error e => .error e
        | .ok chain => .ok (if T chain then some o else none)) = .ok found)
    (hfound' : r'.objects.filterMapM (fun o =>
      if Q o then Except.ok none
      else
        match r'.chain o with
        | .error e => .error e
        | .ok chain => .ok (if U chain then some o else none)) = .ok found')
    (o : NodeId) : σ o ∈ found' ↔ o ∈ found := by
  rw [(filterMapM_chain_eq_ok Q U hfound').2, (filterMapM_chain_eq_ok P T hfound).2,
    h.mem_objects hr hr', hP, h.chain]
  refine and_congr_right fun _ => and_congr_right fun _ => ?_
  constructor
  · rintro ⟨chain', hchain', hpass⟩
    obtain ⟨chain, hchain, rfl⟩ := Meaning.map_eq_ok.mp hchain'
    exact ⟨chain, hchain, hT chain ▸ hpass⟩
  · rintro ⟨chain, hchain, hpass⟩
    refine ⟨chain.map σ, ?_, (hT chain).trans hpass⟩
    rw [hchain]
    rfl

theorem mem_descendants (h : r.Renames σ r') (hr : r.WellFormed) (hr' : r'.WellFormed)
    {found found' : List NodeId} (hfound : r.descendants id = .ok found)
    (hfound' : r'.descendants (σ id) = .ok found') (o : NodeId) :
    σ o ∈ found' ↔ o ∈ found :=
  h.mem_found hr hr' (P := (· = id)) (Q := (· = σ id)) (fun _ => σ.injective.eq_iff)
    (fun chain => contains_map chain id) hfound hfound' o

theorem implementersOf (h : r.Renames σ r') (id : NodeId) :
    (r'.implementersOf (σ id)).Perm ((r.implementersOf id).map σ) := by
  unfold Registry.implementersOf
  cases hn : r.node id with
  | interface n =>
      obtain ⟨_, hn', hperm⟩ := h.node_interface hn
      rw [hn']
      exact hperm
  | object _ | inputObject _ | field _ | args _ | arg _ | inputField _ | implement _ =>
      rw [h.node_eq hn rfl]
      rfl

theorem mem_implementers (h : r.Renames σ r') (hr : r.WellFormed) (hr' : r'.WellFormed)
    {found found' : List NodeId} (hfound : r.implementers id = .ok found)
    (hfound' : r'.implementers (σ id) = .ok found') (o : NodeId) :
    σ o ∈ found' ↔ o ∈ found := by
  obtain ⟨more, hmore, rfl⟩ := implementers_eq_ok hfound
  obtain ⟨more', hmore', rfl⟩ := implementers_eq_ok hfound'
  have hcontains : ∀ i, (r'.implementersOf (σ id)).contains (σ i) =
      (r.implementersOf id).contains i := fun i => by
    rw [(h.implementersOf id).contains_eq, contains_map]
  have hnoted : σ o ∈ r'.implementersOf (σ id) ↔ o ∈ r.implementersOf id := by
    rw [← List.contains_iff_mem, hcontains, List.contains_iff_mem]
  rw [List.mem_append, List.mem_append, hnoted]
  refine or_congr_right (h.mem_found hr hr' (T := fun chain => chain.any _)
    (fun i => by rw [hcontains]) (fun chain => ?_) hmore hmore' o)
  rw [List.any_map]
  exact congrArg chain.any (funext hcontains)

/-! ### The lineage -/

/-- An object extends what it extends. -/
theorem exists_extends_iff (h : r.Renames σ r') (id : NodeId) {link : Extends} :
    (∃ n, r'.node (σ id) = .object n ∧ n.type = t ∧ n.extends? = some link) ↔
      ∃ n, r.node id = .object n ∧ n.type = t ∧ n.extends? = some link := by
  have hreads := (h.node id).congr
    (f := fun n => ∃ o, n = .object o ∧ o.type = t ∧ o.extends? = some link) (by simp)
  rw [iff_iff_eq, hreads]
  cases r.node id <;> simp [Node.rename]

theorem lineage (h : r.Renames σ r') (hr : r.WellFormed) (hr' : r'.WellFormed) :
    r'.lineage.entries.Perm r.lineage.entries := by
  have hfind : ∀ t, r'.lineage.find? t = (r.lineage.find? t).map id := by
    intro t
    rw [Option.map_id_apply]
    refine Option.ext fun link => ?_
    rw [hr'.find?_lineage, hr.find?_lineage, σ.surjective.exists]
    exact exists_congr fun id => h.exists_extends_iff id
  simpa using OrderedMap.entries_perm_iff.mpr hfind

end Registry.Renames

end SchemaGraph
