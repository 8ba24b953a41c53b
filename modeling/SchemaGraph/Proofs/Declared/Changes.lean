import SchemaGraph.Declared.Declare
import SchemaGraph.Proofs.OrderedMap

/-!
# What declaring changes

A declaration adds a node, and that is all it says. The rest are notes made on
older nodes: a field notes the arguments declared for it, an interface notes the
objects that implement it. `own` is what a node says by itself, without such
notes, and no change touches it. The lemmas here say for each change which nodes
it adds and which notes it makes.
-/

set_option autoImplicit false

namespace SchemaGraph

/-! ## Nodes without their notes -/

/-- What a node was declared with, without what was noted on it later. -/
def Node.own : Node → Node
  | .field n => .field { n with args := [] }
  | .interface n => .interface { n with implementers := [] }
  | n => n

namespace Node

variable {n n' : Node}

/-- The implements edges of an object. -/
def edges (n : Node) : List NodeId :=
  match n.object? with
  | some o => o.implementEdges
  | none => []

/-- The objects noted on an interface. -/
def implementers (n : Node) : List NodeId :=
  match n.interface? with
  | some i => i.implementers
  | none => []

/-- What makes nothing of notes is the same for nodes that differ in them. -/
theorem congr_own {β : Type} {f : Node → β} (hf : ∀ n : Node, f n.own = f n)
    (h : n.own = n'.own) : f n = f n' := by
  rw [← hf n, h, hf n']

theorem type_of_own (h : n.own = n'.own) : n.type = n'.type :=
  congr_own (by rintro (_ | _) <;> rfl) h

theorem object?_of_own (h : n.own = n'.own) : n.object? = n'.object? :=
  congr_own (by rintro (_ | _) <;> rfl) h

theorem edges_of_own (h : n.own = n'.own) : n.edges = n'.edges := by
  rw [edges, edges, object?_of_own h]

theorem implement?_of_own (h : n.own = n'.own) : n.implement? = n'.implement? :=
  congr_own (by rintro (_ | _) <;> rfl) h

theorem isSchemaType_of_own (h : n.own = n'.own) : n.isSchemaType = n'.isSchemaType :=
  congr_own (by rintro (_ | _) <;> rfl) h

theorem isInterface_of_own (h : n.own = n'.own) : n.isInterface = n'.isInterface :=
  congr_own (by rintro (_ | _) <;> rfl) h

theorem eq_args_of_own {a : ArgsNode} (h : n.own = .args a) : n = .args a := by
  cases n <;> simp_all [own]

/-! ## Kinds of nodes -/

theorem exists_of_isObject (h : n.isObject = true) : ∃ o, n = .object o := by
  cases n with
  | object o => exact ⟨o, rfl⟩
  | interface _ | inputObject _ | field _ | args _ | arg _ | inputField _ | implement _ =>
      cases h

theorem exists_of_isInterface (h : n.isInterface = true) : ∃ i, n = .interface i := by
  cases n with
  | interface i => exact ⟨i, rfl⟩
  | object _ | inputObject _ | field _ | args _ | arg _ | inputField _ | implement _ =>
      cases h

theorem isSchemaType_of_isObject (h : n.isObject = true) : n.isSchemaType = true := by
  obtain ⟨o, rfl⟩ := exists_of_isObject h
  rfl

theorem isSchemaType_of_isInterface (h : n.isInterface = true) : n.isSchemaType = true := by
  obtain ⟨i, rfl⟩ := exists_of_isInterface h
  rfl

theorem edges_of_not_isSchemaType (h : n.isSchemaType = false) : n.edges = [] := by
  cases n with
  | object _ | interface _ | inputObject _ => cases h
  | field _ | args _ | arg _ | inputField _ | implement _ => rfl

theorem implementers_of_not_isSchemaType (h : n.isSchemaType = false) :
    n.implementers = [] := by
  cases n with
  | object _ | interface _ | inputObject _ => cases h
  | field _ | args _ | arg _ | inputField _ | implement _ => rfl

end Node

namespace Registry

variable {r r' r'' : Registry}

/-- The implements edges that an object owns. -/
def edgesOf (r : Registry) (o : NodeId) : List NodeId := (r.node o).edges

/-- The node at the end of an implements edge. -/
def target? (r : Registry) (e : NodeId) : Option NodeId :=
  (r.node e).implement?.map (·.interface)

/-- The objects noted on an interface. -/
def implementersOf (r : Registry) (i : NodeId) : List NodeId := (r.node i).implementers

/-! ## Adding and changing a node -/

theorem node_eq (r : Registry) (id : NodeId) : r.node id = r.nodes[id]?.getD .absent := by
  rw [node, Array.getD_eq_getD_getElem?]

/-- Beyond the last node there is none. -/
theorem node_of_size_le {id : NodeId} (h : r.size ≤ id) : r.node id = .absent := by
  rw [node_eq, Array.getElem?_eq_none h]
  rfl

theorem lt_size_of_node_ne {id : NodeId} (h : r.node id ≠ .absent) : id < r.size :=
  Nat.lt_of_not_le fun hge => h (node_of_size_le hge)

theorem lt_size_of_isSchemaType {id : NodeId} (h : (r.node id).isSchemaType = true) :
    id < r.size := by
  refine lt_size_of_node_ne fun habsent => ?_
  rw [habsent] at h
  cases h

theorem lt_size_of_isInterface {id : NodeId} (h : (r.node id).isInterface = true) :
    id < r.size := lt_size_of_isSchemaType (Node.isSchemaType_of_isInterface h)

theorem lt_size_of_args {id : NodeId} {a : ArgsNode} (h : r.node id = .args a) :
    id < r.size := by
  refine lt_size_of_node_ne fun habsent => ?_
  rw [habsent] at h
  cases h

theorem size_push (r : Registry) (n : Node) : (r.push n).size = r.size + 1 := by
  simp [push, size]

theorem node_push (r : Registry) (n : Node) (id : NodeId) :
    (r.push n).node id = if id = r.size then n else r.node id := by
  rw [node_eq, node_eq, push, size, Array.getElem?_push]
  split <;> rfl

theorem size_modifyNode (r : Registry) (i : NodeId) (f : Node → Node) :
    (r.modifyNode i f).size = r.size := by
  simp [modifyNode, size]

theorem node_modifyNode (r : Registry) (i : NodeId) {f : Node → Node}
    (hf : f .absent = .absent) (id : NodeId) :
    (r.modifyNode i f).node id = if id = i then f (r.node i) else r.node id := by
  rw [node_eq, node_eq, node_eq, modifyNode, Array.getElem?_modify]
  by_cases h : i = id
  · subst h
    rw [if_pos rfl, if_pos rfl]
    cases r.nodes[i]? with
    | none => exact hf.symm
    | some n => rfl
  · rw [if_neg h, if_neg (Ne.symm h)]

/-! ## Changes that only make notes -/

/-- Two registries that differ in what is noted on their nodes at most. -/
structure Alike (r r' : Registry) : Prop where
  size : r'.size = r.size
  types : r'.types = r.types
  args : r'.args = r.args
  waiting : r'.waiting = r.waiting
  own : ∀ id, (r'.node id).own = (r.node id).own

theorem Alike.refl (r : Registry) : Alike r r := ⟨rfl, rfl, rfl, rfl, fun _ => rfl⟩

theorem Alike.trans (h : Alike r r') (h' : Alike r' r'') : Alike r r'' where
  size := h'.size.trans h.size
  types := h'.types.trans h.types
  args := h'.args.trans h.args
  waiting := h'.waiting.trans h.waiting
  own id := (h'.own id).trans (h.own id)

theorem Alike.target? (h : Alike r r') (e : NodeId) : r'.target? e = r.target? e := by
  rw [Registry.target?, Registry.target?, Node.implement?_of_own (h.own e)]

/-- Changing a node without touching what it says by itself. -/
theorem alike_modifyNode (r : Registry) (i : NodeId) {f : Node → Node}
    (hf : f .absent = .absent) (hown : ∀ n, (f n).own = n.own) :
    Alike r (r.modifyNode i f) := by
  refine ⟨r.size_modifyNode i f, rfl, rfl, rfl, fun id => ?_⟩
  rw [r.node_modifyNode i hf]
  split
  · next heq => rw [hown, heq]
  · rfl

theorem attachArg_alike (r : Registry) (fields : List NodeId) (arg : NodeId) :
    Alike r (r.attachArg fields arg) ∧
      ∀ i, (r.attachArg fields arg).implementersOf i = r.implementersOf i := by
  unfold attachArg
  split
  · exact ⟨Alike.refl r, fun _ => rfl⟩
  · split
    · next field _ =>
        refine ⟨r.alike_modifyNode field rfl fun n => by cases n <;> rfl, fun i => ?_⟩
        rw [implementersOf, implementersOf, r.node_modifyNode field rfl]
        by_cases heq : i = field
        · subst heq
          rw [if_pos rfl]
          cases r.node i <;> rfl
        · rw [if_neg heq]
    · exact ⟨⟨rfl, rfl, rfl, rfl, fun _ => rfl⟩, fun _ => rfl⟩

/-- Attaching arguments is noted on fields, and on nothing else. -/
theorem attachArgs_alike (fields args : List NodeId) :
    ∀ r : Registry, Alike r (r.attachArgs fields args) ∧
      ∀ i, (r.attachArgs fields args).implementersOf i = r.implementersOf i := by
  induction args with
  | nil => exact fun r => ⟨Alike.refl r, fun _ => rfl⟩
  | cons arg rest ih =>
      intro r
      obtain ⟨halike, himpl⟩ := r.attachArg_alike fields arg
      obtain ⟨halike', himpl'⟩ := ih (r.attachArg fields arg)
      exact ⟨halike.trans halike', fun i => (himpl' i).trans (himpl i)⟩

theorem noteImplementer_alike (r : Registry) (o e : NodeId) :
    Alike r (r.noteImplementer o e) := by
  unfold noteImplementer
  split
  · exact Alike.refl r
  · next m _ => exact r.alike_modifyNode m.interface rfl fun n => by cases n <;> rfl

/-- An interface notes the object at the other end of an edge. -/
theorem implementersOf_noteImplementer (r : Registry) (o e i : NodeId)
    (htarget : ∀ i, r.target? e = some i → (r.node i).isInterface = true) :
    (r.noteImplementer o e).implementersOf i =
      r.implementersOf i ++ if r.target? e = some i then [o] else [] := by
  unfold noteImplementer
  cases hm : (r.node e).implement? with
  | none => simp [target?, hm]
  | some m =>
      have hinterface := htarget m.interface (by simp [target?, hm])
      simp only [target?, hm, Option.map_some, Option.some.injEq]
      rw [implementersOf, implementersOf, r.node_modifyNode m.interface rfl]
      by_cases heq : i = m.interface
      · subst heq
        obtain ⟨n, hn⟩ := Node.exists_of_isInterface hinterface
        simp [hn, Node.implementers, Node.interface?]
      · simp [heq, Ne.symm heq]

/-- Every interface at the end of one of the edges notes the object, once for
each edge. -/
theorem implementersOf_noteImplementers (o : NodeId) {edges : List NodeId} :
    ∀ {r : Registry},
      (∀ e ∈ edges, ∀ i, r.target? e = some i → (r.node i).isInterface = true) →
      Alike r (edges.foldl (fun r e => r.noteImplementer o e) r) ∧
      ∀ i, (edges.foldl (fun r e => r.noteImplementer o e) r).implementersOf i =
        r.implementersOf i ++ (edges.filter fun e => r.target? e = some i).map fun _ => o := by
  induction edges with
  | nil => exact fun _ => ⟨Alike.refl _, fun i => by simp⟩
  | cons e rest ih =>
      intro r htargets
      have halike := r.noteImplementer_alike o e
      have hrest : ∀ e' ∈ rest, ∀ i, (r.noteImplementer o e).target? e' = some i →
          ((r.noteImplementer o e).node i).isInterface = true := by
        intro e' he' i hi
        rw [halike.target?] at hi
        rw [Node.isInterface_of_own (halike.own i)]
        exact htargets e' (by simp [he']) i hi
      obtain ⟨halike', himpl⟩ := ih hrest
      refine ⟨halike.trans halike', fun i => ?_⟩
      rw [List.foldl_cons, himpl,
        r.implementersOf_noteImplementer o e i (htargets e (by simp))]
      simp only [halike.target?, List.filter_cons]
      split <;> simp_all

end Registry

end SchemaGraph
