import SchemaGraph.Proofs.Declared.Changes

/-!
# Registries that declarations lead to

Every registry is the outcome of declarations, some of which may have failed.
Whatever their order, a host type and the type declared for it point to each
other, and so do an object and the interfaces it implements: an implements edge
leads to an interface that was there before, and when an object claims the edge
that interface notes the object. The two directions of implementing never
disagree, which is what lets the compiler take one of them for an object and
the other for an interface.
-/

set_option autoImplicit false

namespace SchemaGraph

namespace Registry

variable {r r' : Registry}

/-- What holds of a registry after any declarations. -/
structure WellFormed (r : Registry) : Prop where
  /-- What a host type stands for is a type declared on its behalf. -/
  declared : ∀ {t id}, r.types.find? t = some id →
    (r.node id).isSchemaType = true ∧ (r.node id).type = t
  /-- A type is what its host type stands for. -/
  registered : ∀ {id}, (r.node id).isSchemaType = true →
    r.types.find? (r.node id).type = some id
  bundled : ∀ {t id}, r.args.find? t = some id → ∃ n, r.node id = .args n
  staged : ∀ {t id}, id ∈ r.staged t → id < r.size
  edges : ∀ {o e}, e ∈ r.edgesOf o → e < r.size
  targets : ∀ {e i}, r.target? e = some i → (r.node i).isInterface = true
  /-- An interface notes an object once for each edge between them. -/
  implementers : ∀ i o, (r.implementersOf i).count o =
    (r.edgesOf o).countP fun e => r.target? e = some i

theorem wellFormed_empty : WellFormed empty where
  declared h := nomatch h
  registered h := nomatch h
  bundled h := nomatch h
  staged h := nomatch h
  edges h := nomatch h
  targets h := nomatch h
  implementers _ _ := rfl

namespace WellFormed

/-- A node that is no type may be added if it leads to an interface at most. -/
theorem add {n : Node} (h : r.WellFormed) (hn : n.isSchemaType = false)
    (htarget : ∀ m, n.implement? = some m → (r.node m.interface).isInterface = true)
    (hsize : r'.size = r.size + 1) (htypes : r'.types = r.types)
    (hargs : ∀ {t id}, r'.args.find? t = some id →
      r.args.find? t = some id ∨ id = r.size ∧ ∃ a, n = .args a)
    (hnode : ∀ id, r'.node id = if id = r.size then n else r.node id)
    (hstaged : ∀ {t id}, id ∈ r'.staged t → id < r'.size) : r'.WellFormed := by
  have hold : ∀ {id}, id < r.size → r'.node id = r.node id := fun hid => by
    rw [hnode, if_neg (Nat.ne_of_lt hid)]
  have hschema : ∀ {id}, (r'.node id).isSchemaType = true → id < r.size := by
    intro id hid
    rw [hnode] at hid
    split at hid
    · rw [hn] at hid
      cases hid
    · exact lt_size_of_isSchemaType hid
  have hinterface : ∀ {i}, (r.node i).isInterface = true → (r'.node i).isInterface = true := by
    intro i hi
    rw [hold (lt_size_of_isInterface hi)]
    exact hi
  have hedges : ∀ o, r'.edgesOf o = r.edgesOf o := by
    intro o
    rw [edgesOf, edgesOf, hnode]
    split
    · next heq =>
        rw [Node.edges_of_not_isSchemaType hn, heq, node_of_size_le (Nat.le_refl _)]
        rfl
    · rfl
  have htargets : ∀ {e}, e < r.size → r'.target? e = r.target? e := fun he => by
    rw [target?, target?, hold he]
  have himpl : ∀ i, r'.implementersOf i = r.implementersOf i := by
    intro i
    rw [implementersOf, implementersOf, hnode]
    split
    · next heq =>
        rw [Node.implementers_of_not_isSchemaType hn, heq, node_of_size_le (Nat.le_refl _)]
        rfl
    · rfl
  constructor
  case declared =>
    intro t id hfind
    rw [htypes] at hfind
    obtain ⟨hid, htype⟩ := h.declared hfind
    rw [hold (lt_size_of_isSchemaType hid)]
    exact ⟨hid, htype⟩
  case registered =>
    intro id hid
    have hlt := hschema hid
    rw [hold hlt] at hid ⊢
    rw [htypes]
    exact h.registered hid
  case bundled =>
    intro t id hfind
    rcases hargs hfind with hfind | ⟨rfl, a, rfl⟩
    · obtain ⟨a, ha⟩ := h.bundled hfind
      exact ⟨a, by rw [hold (lt_size_of_args ha), ha]⟩
    · exact ⟨a, by rw [hnode, if_pos rfl]⟩
  case staged =>
    exact hstaged
  case edges =>
    intro o e he
    rw [hedges] at he
    rw [hsize]
    exact Nat.lt_succ_of_lt (h.edges he)
  case targets =>
    intro e i hi
    by_cases heq : e = r.size
    · rw [target?, hnode, if_pos heq] at hi
      obtain ⟨m, hm, rfl⟩ := Option.map_eq_some_iff.mp hi
      exact hinterface (htarget m hm)
    · rw [target?, hnode, if_neg heq] at hi
      exact hinterface (h.targets hi)
  case implementers =>
    intro i o
    rw [himpl, hedges, h.implementers i o]
    refine List.countP_congr fun e he => ?_
    rw [htargets (h.edges he)]

/-- A type may be added for a host type that has none, if the interfaces at the
end of its edges note it. -/
theorem declare {n : Node} (h : r.WellFormed) (hn : n.isSchemaType = true)
    (hfresh : r.types.contains n.type = false) (hnewEdges : ∀ e ∈ n.edges, e < r.size)
    (hsize : r'.size = r.size + 1) (htypes : r'.types = r.types.insert n.type r.size)
    (hargs : r'.args = r.args)
    (hown : ∀ id, (r'.node id).own = if id = r.size then n.own else (r.node id).own)
    (himpl : ∀ i, r'.implementersOf i = r.implementersOf i ++
      (n.edges.filter fun e => r.target? e = some i).map fun _ => r.size)
    (hstaged : ∀ {t id}, id ∈ r'.staged t → id < r'.size) : r'.WellFormed := by
  have hold : ∀ {id}, id ≠ r.size → (r'.node id).own = (r.node id).own := fun hid => by
    rw [hown, if_neg hid]
  have hnew : (r'.node r.size).own = n.own := by rw [hown, if_pos rfl]
  have hne : ∀ {id}, (r.node id).isSchemaType = true → id ≠ r.size := fun hid =>
    Nat.ne_of_lt (lt_size_of_isSchemaType hid)
  have htarget : ∀ {e}, e < r.size → r'.target? e = r.target? e := fun he => by
    rw [target?, target?, Node.implement?_of_own (hold (Nat.ne_of_lt he))]
  have hedges : ∀ {o}, o ≠ r.size → r'.edgesOf o = r.edgesOf o := fun ho => by
    rw [edgesOf, edgesOf, Node.edges_of_own (hold ho)]
  have hinterface : ∀ {i}, (r.node i).isInterface = true → (r'.node i).isInterface = true := by
    intro i hi
    rw [Node.isInterface_of_own (hold (Nat.ne_of_lt (lt_size_of_isInterface hi)))]
    exact hi
  constructor
  case declared =>
    intro t id hfind
    rw [htypes, OrderedMap.find?_insert] at hfind
    split at hfind
    · next heq =>
        obtain rfl := Option.some.inj hfind
        rw [Node.isSchemaType_of_own hnew, Node.type_of_own hnew]
        exact ⟨hn, heq.symm⟩
    · obtain ⟨hid, htype⟩ := h.declared hfind
      rw [Node.isSchemaType_of_own (hold (hne hid)), Node.type_of_own (hold (hne hid))]
      exact ⟨hid, htype⟩
  case registered =>
    intro id hid
    rw [htypes, OrderedMap.find?_insert]
    by_cases heq : id = r.size
    · rw [heq, Node.type_of_own hnew, if_pos rfl]
    · rw [Node.isSchemaType_of_own (hold heq)] at hid
      rw [Node.type_of_own (hold heq), if_neg, h.registered hid]
      -- The host type of an older type has one already.
      intro htype
      have hfind := h.registered hid
      rw [htype] at hfind
      rw [OrderedMap.contains_of_find? hfind] at hfresh
      cases hfresh
  case bundled =>
    intro t id hfind
    rw [hargs] at hfind
    obtain ⟨a, ha⟩ := h.bundled hfind
    refine ⟨a, Node.eq_args_of_own ?_⟩
    rw [hold (Nat.ne_of_lt (lt_size_of_args ha)), ha]
    rfl
  case staged =>
    exact hstaged
  case edges =>
    intro o e he
    rw [hsize]
    by_cases heq : o = r.size
    · rw [heq, edgesOf, Node.edges_of_own hnew] at he
      exact Nat.lt_succ_of_lt (hnewEdges e he)
    · rw [hedges heq] at he
      exact Nat.lt_succ_of_lt (h.edges he)
  case targets =>
    intro e i hi
    by_cases heq : e = r.size
    · rw [heq, target?, Node.implement?_of_own hnew] at hi
      cases n with
      | object _ | interface _ | inputObject _ => cases hi
      | field _ | args _ | arg _ | inputField _ | implement _ => cases hn
    · rw [target?, Node.implement?_of_own (hold heq)] at hi
      exact hinterface (h.targets hi)
  case implementers =>
    intro i o
    have hfiltered : ∀ es : List NodeId, (∀ e ∈ es, e < r.size) →
        es.countP (fun e => r'.target? e = some i)
          = es.countP fun e => r.target? e = some i := fun es hes =>
      List.countP_congr fun e he => by rw [htarget (hes e he)]
    rw [himpl, List.count_append, h.implementers i o]
    by_cases heq : o = r.size
    · -- Nobody has noted the new object before.
      have hnone : r.edgesOf r.size = [] := by
        rw [edgesOf, node_of_size_le (Nat.le_refl _)]
        rfl
      have hself : r'.edgesOf r.size = n.edges := Node.edges_of_own hnew
      rw [heq, hnone, hself, hfiltered n.edges hnewEdges]
      rw [List.countP_nil, Nat.zero_add, List.map_const', List.count_replicate_self,
        List.countP_eq_length_filter]
    · rw [hedges heq, hfiltered _ fun e he => h.edges he]
      have hzero : (List.map (fun _ => r.size)
          (n.edges.filter fun e => r.target? e = some i)).count o = 0 := by
        refine List.count_eq_zero.mpr fun hmem => ?_
        obtain ⟨_, -, hsize⟩ := List.mem_map.mp hmem
        exact heq hsize.symm
      rw [hzero, Nat.add_zero]

end WellFormed

/-! ## Waiting rooms -/

theorem staged_unstage (r : Registry) (t t' : HostType) :
    (r.unstage t).staged t' = if t' = t then [] else r.staged t' := by
  rw [staged, staged, unstage, OrderedMap.find?_erase]
  split <;> rfl

theorem staged_stage (r : Registry) (t t' : HostType) (n : Node) :
    (r.stage t n).staged t' = if t' = t then r.staged t ++ [r.size] else r.staged t' := by
  show ((r.waiting.insert t (r.staged t ++ [r.size])).find? t').getD [] = _
  rw [OrderedMap.find?_insert]
  split <;> rfl

theorem Alike.staged (h : Alike r r') (t : HostType) : r'.staged t = r.staged t := by
  rw [Registry.staged, Registry.staged, h.waiting]

theorem mem_staged_of_stagedOf {t : HostType} {kind : NodeKind} {id : NodeId}
    (h : id ∈ r.stagedOf t kind) : id ∈ r.staged t := (List.mem_filter.mp h).1

namespace WellFormed

variable {t : HostType}

theorem unstage (h : r.WellFormed) (t : HostType) : (r.unstage t).WellFormed := by
  refine ⟨h.declared, h.registered, h.bundled, ?_, h.edges, h.targets, h.implementers⟩
  intro t' id hid
  rw [staged_unstage] at hid
  split at hid
  · cases hid
  · exact h.staged hid

theorem stage {n : Node} (h : r.WellFormed) (hn : n.isSchemaType = false)
    (htarget : ∀ m, n.implement? = some m → (r.node m.interface).isInterface = true) :
    (r.stage t n).WellFormed := by
  refine h.add hn htarget (r.size_push n) rfl Or.inl (r.node_push n) ?_
  intro t' id hid
  show id < (r.push n).size
  rw [staged_stage] at hid
  rw [size_push]
  split at hid
  · rcases List.mem_append.mp hid with hold | hnew
    · exact Nat.lt_succ_of_lt (h.staged hold)
    · rw [List.mem_singleton.mp hnew]
      exact Nat.lt_succ_self _
  · exact Nat.lt_succ_of_lt (h.staged hid)

/-- A type claims edges that wait for it, and the interfaces at the end of these
note it. -/
theorem claim {r₁ : Registry} {n : Node} (h : r.WellFormed)
    (halike : Alike (r.unstage n.type) r₁)
    (himpl : ∀ i, r₁.implementersOf i = r.implementersOf i) (hn : n.isSchemaType = true)
    (hnone : n.implementers = []) (hfresh : r.types.contains n.type = false)
    (hedges : ∀ e ∈ n.edges, e ∈ r.staged n.type) :
    let r₂ := n.edges.foldl (fun r e => r.noteImplementer r₁.size e) (r₁.push n)
    WellFormed { r₂ with types := r₂.types.insert n.type r₁.size } := by
  intro r₂
  have hsize : r₁.size = r.size := halike.size
  have hlt : ∀ e ∈ n.edges, e < r.size := fun e he => h.staged (hedges e he)
  have hpush : ∀ {id}, id < r.size → ((r₁.push n).node id).own = (r.node id).own := by
    intro id hid
    rw [node_push, hsize, if_neg (Nat.ne_of_lt hid)]
    exact halike.own id
  have htarget : ∀ {e}, e < r.size → (r₁.push n).target? e = r.target? e := fun he => by
    rw [target?, target?, Node.implement?_of_own (hpush he)]
  obtain ⟨hnotes, hnoted⟩ : Alike (r₁.push n) r₂ ∧ ∀ i, r₂.implementersOf i =
      (r₁.push n).implementersOf i ++
        (n.edges.filter fun e => (r₁.push n).target? e = some i).map fun _ => r₁.size := by
    refine implementersOf_noteImplementers r₁.size fun e he i hi => ?_
    rw [htarget (hlt e he)] at hi
    have hinterface := h.targets hi
    rw [Node.isInterface_of_own (hpush (lt_size_of_isInterface hinterface))]
    exact hinterface
  refine h.declare hn hfresh hlt ?_ ?_ ?_ ?_ ?_ ?_
  · show r₂.size = r.size + 1
    rw [hnotes.size, size_push, hsize]
  · show r₂.types.insert n.type r₁.size = _
    rw [hnotes.types, hsize]
    show r₁.types.insert n.type r.size = _
    rw [halike.types]
    rfl
  · show r₂.args = r.args
    rw [hnotes.args]
    exact halike.args
  · intro id
    show (r₂.node id).own = _
    rw [hnotes.own, node_push, hsize]
    split
    · rfl
    · exact halike.own id
  · intro i
    show r₂.implementersOf i = _
    rw [hnoted, hsize]
    congr 1
    · rw [implementersOf, node_push, hsize]
      split
      · next heq =>
          rw [hnone, heq, implementersOf, node_of_size_le (Nat.le_refl _)]
          rfl
      · exact himpl i
    · congr 1
      exact List.filter_congr fun e he => by rw [htarget (hlt e he)]
  · intro t id hid
    have hwaiting : r₂.staged t = (r.unstage n.type).staged t := by
      rw [hnotes.staged]
      exact halike.staged t
    have hid' : id ∈ (r.unstage n.type).staged t := hwaiting ▸ hid
    show id < r₂.size
    rw [hnotes.size, size_push, hsize]
    exact Nat.lt_succ_of_lt ((h.unstage n.type).staged hid')

theorem declareObject (h : r.WellFormed) (hfresh : r.types.contains t = false)
    (decl : ObjectDecl) (metadata : TypeMetadata) :
    (r.declareObject t decl metadata).WellFormed := by
  obtain ⟨halike, himpl⟩ :=
    attachArgs_alike (r.stagedOf t .field) (r.stagedOf t .arg) (r.unstage t)
  exact h.claim (n := .object ⟨metadata, t, _, r.stagedOf t .implement, decl.extends?⟩)
    halike himpl rfl rfl hfresh fun e he => mem_staged_of_stagedOf he

theorem declareInterface (h : r.WellFormed) (hfresh : r.types.contains t = false)
    (metadata : TypeMetadata) : (r.declareInterface t metadata).WellFormed := by
  obtain ⟨halike, himpl⟩ :=
    attachArgs_alike (r.stagedOf t .field) (r.stagedOf t .arg) (r.unstage t)
  exact h.claim (n := .interface ⟨metadata, t, _, []⟩) halike himpl rfl rfl hfresh
    fun _ he => nomatch he

theorem declareInputObject {c : InputConstructor} (h : r.WellFormed)
    (hfresh : r.types.contains c.type = false) (metadata : TypeMetadata) :
    (r.declareInputObject c metadata).WellFormed :=
  h.claim (n := .inputObject ⟨metadata, c.type, _, c⟩) (Alike.refl _) (fun _ => rfl) rfl rfl
    hfresh fun _ he => nomatch he

theorem declareArgs (h : r.WellFormed) (c : InputConstructor) :
    (r.declareArgs c).WellFormed := by
  refine (h.unstage c.type).add (n := .args ⟨c.type, _, c⟩) rfl (fun m hm => nomatch hm)
    (size_push _ _) rfl ?_ (node_push _ _) ?_
  · intro t id hfind
    have hinsert : (r.args.insert c.type r.size).find? t = some id := hfind
    rw [OrderedMap.find?_insert] at hinsert
    split at hinsert
    · cases hinsert
      exact Or.inr ⟨rfl, _, rfl⟩
    · exact Or.inl hinsert
  intro t id hid
  show id < ((r.unstage c.type).push _).size
  rw [size_push]
  exact Nat.lt_succ_of_lt ((h.unstage c.type).staged hid)

end WellFormed

end Registry

/-! ## Declarations -/

/-- The registry that an operation leaves behind, whether it fails or not. -/
def RegistryM.after {α : Type} (x : RegistryM α) (r : Registry) : Registry :=
  match x r with
  | .ok _ r' => r'
  | .error _ r' => r'

/-- What can be declared. Declarations of whole types are made of these. -/
inductive Declaration where
  | object (t : HostType) (decl : ObjectDecl)
  | interface (t : HostType) (decl : TypeDecl)
  | inputObject (c : InputConstructor) (decl : TypeDecl)
  | args (c : InputConstructor)
  | field (t : HostType) (decl : FieldDecl)
  | inputField (t : HostType) (decl : InputDecl)
  | arg (t : HostType) (field : String) (decl : InputDecl)
  | implement (t interface : HostType)

def Declaration.run : Declaration → RegistryM NodeId
  | .object t decl => Declare.object t decl
  | .interface t decl => Declare.interface t decl
  | .inputObject c decl => Declare.inputObject c decl
  | .args c => Declare.args c
  | .field t decl => Declare.field t decl
  | .inputField t decl => Declare.inputField t decl
  | .arg t f decl => Declare.arg t f decl
  | .implement t i => Declare.implement t i

/-- The registry after declarations. -/
def Registry.ofDeclarations (ds : List Declaration) : Registry :=
  ds.foldl (fun r d => d.run.after r) .empty

/-- Registries that declarations lead to, failed ones included. -/
inductive Registry.Reached : Registry → Prop where
  | empty : Reached .empty
  | declare {r : Registry} (d : Declaration) : Reached r → Reached (d.run.after r)

namespace Registry.WellFormed

variable {r : Registry} {α : Type}

/-- A check leaves the registry as it is, and if it fails nothing follows. -/
theorem check_bind {f : Registry → Except SchemaError α} {g : α → RegistryM NodeId}
    (h : r.WellFormed) (hg : ∀ a, f r = .ok a → ((g a).after r).WellFormed) :
    ((Declare.check f >>= g).after r).WellFormed := by
  show WellFormed (RegistryM.after (EStateM.bind (Declare.check f) g) r)
  unfold RegistryM.after EStateM.bind Declare.check
  cases hf : f r with
  | ok a => exact hg a hf
  | error e => exact h

/-- Reading the registry is no change. -/
theorem get_bind {g : Registry → RegistryM NodeId}
    (hg : ((g r).after r).WellFormed) :
    (((get : RegistryM Registry) >>= g).after r).WellFormed := hg

theorem fresh_of_checkUndeclared {t : HostType} {u : Unit}
    (h : r.checkUndeclared t = .ok u) : r.types.contains t = false := by
  unfold checkUndeclared at h
  split at h
  · cases h
  · next hnew => simpa using hnew

theorem run_interface (h : r.WellFormed) (t : HostType) (decl : TypeDecl) :
    ((Declare.interface t decl).after r).WellFormed := by
  refine h.check_bind fun _ hfresh => h.check_bind fun metadata _ => get_bind ?_
  dsimp only
  split
  · exact h.unstage t
  · exact h.declareInterface (fresh_of_checkUndeclared hfresh) metadata

theorem run_args (h : r.WellFormed) (c : InputConstructor) :
    ((Declare.args c).after r).WellFormed := by
  refine get_bind ?_
  dsimp only
  split
  · exact h
  · exact h.declareArgs c

theorem run_arg (h : r.WellFormed) (t : HostType) (field : String) (decl : InputDecl) :
    ((Declare.arg t field decl).after r).WellFormed := by
  refine h.check_bind fun _ _ => get_bind ?_
  dsimp only
  split
  · exact h
  · exact h.stage (n := .arg ⟨t, field, decl⟩) rfl fun m hm => nomatch hm

/-- An implements edge may be declared when there is an interface to lead to. -/
theorem run_implement (h : r.WellFormed) (t i : HostType) :
    ((Declare.implement t i).after r).WellFormed := by
  refine h.check_bind fun id _ => get_bind ?_
  split
  · next hinterface =>
      refine h.stage (n := .implement ⟨t, id⟩) rfl fun m hm => ?_
      cases hm
      exact hinterface
  · exact h

theorem run (h : r.WellFormed) (d : Declaration) : (d.run.after r).WellFormed := by
  cases d with
  | object t decl =>
      exact h.check_bind fun _ hfresh => h.check_bind fun metadata _ =>
        h.declareObject (fresh_of_checkUndeclared hfresh) decl metadata
  | interface t decl => exact h.run_interface t decl
  | inputObject c decl =>
      exact h.check_bind fun _ hfresh => h.check_bind fun metadata _ =>
        h.declareInputObject (fresh_of_checkUndeclared hfresh) metadata
  | args c => exact h.run_args c
  | field t decl =>
      exact h.check_bind fun _ _ =>
        h.stage (n := .field ⟨t, decl, []⟩) rfl fun m hm => nomatch hm
  | inputField t decl =>
      exact h.check_bind fun _ _ =>
        h.stage (n := .inputField ⟨t, decl⟩) rfl fun m hm => nomatch hm
  | arg t f decl => exact h.run_arg t f decl
  | implement t i => exact h.run_implement t i

end Registry.WellFormed

theorem Registry.Reached.ofDeclarations (ds : List Declaration) :
    (Registry.ofDeclarations ds).Reached := by
  have hfold : ∀ {r : Registry}, r.Reached →
      (ds.foldl (fun r d => d.run.after r) r).Reached := by
    induction ds with
    | nil => exact id
    | cons d rest ih => exact fun hr => ih (.declare d hr)
  exact hfold .empty

theorem Registry.Reached.wellFormed {r : Registry} (h : r.Reached) : r.WellFormed := by
  induction h with
  | empty => exact wellFormed_empty
  | declare d _ ih => exact ih.run d

end SchemaGraph
