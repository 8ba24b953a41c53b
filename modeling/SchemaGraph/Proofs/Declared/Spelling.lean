import SchemaGraph.Proofs.Declared.Parts

/-!
# Declared names

A type and a member are declared under a name, and the declaration is refused unless that is
a name the schema language knows. Later declarations move members from place to place and
attach arguments, but they never give an old node another name. So every name in a registry
is one that passed the check, whether it was given or taken from the host type.
-/

set_option autoImplicit false

namespace SchemaGraph

/-! ## Names -/

/-- The string matches `[_A-Za-z][_0-9A-Za-z]*`. -/
def Text.IsName (s : String) : Prop :=
  ∃ first rest, s.toList = first :: rest ∧
    (first = '_' ∨ 'A' ≤ first ∧ first ≤ 'Z' ∨ 'a' ≤ first ∧ first ≤ 'z') ∧
    ∀ c ∈ rest, c = '_' ∨ '0' ≤ c ∧ c ≤ '9' ∨ 'A' ≤ c ∧ c ≤ 'Z' ∨ 'a' ≤ c ∧ c ≤ 'z'

namespace Text

theorem isUpper_iff {c : Char} : c.isUpper = true ↔ 'A' ≤ c ∧ c ≤ 'Z' := decide_eq_true_iff

theorem isLower_iff {c : Char} : c.isLower = true ↔ 'a' ≤ c ∧ c ≤ 'z' := by
  show (decide ('a' ≤ c) && decide (c ≤ 'z')) = true ↔ _
  rw [Bool.and_eq_true, decide_eq_true_eq, decide_eq_true_eq]

theorem isDigit_iff {c : Char} : c.isDigit = true ↔ '0' ≤ c ∧ c ≤ '9' := by
  show (decide ('0' ≤ c) && decide (c ≤ '9')) = true ↔ _
  rw [Bool.and_eq_true, decide_eq_true_eq, decide_eq_true_eq]

theorem isNameStart_iff {c : Char} :
    isNameStart c = true ↔ c = '_' ∨ 'A' ≤ c ∧ c ≤ 'Z' ∨ 'a' ≤ c ∧ c ≤ 'z' := by
  show (c.isUpper || c.isLower || decide (c = '_')) = true ↔ _
  rw [Bool.or_eq_true, Bool.or_eq_true, isUpper_iff, isLower_iff, decide_eq_true_eq, or_comm]

theorem isNameContinue_iff {c : Char} : isNameContinue c = true ↔
    c = '_' ∨ '0' ≤ c ∧ c ≤ '9' ∨ 'A' ≤ c ∧ c ≤ 'Z' ∨ 'a' ≤ c ∧ c ≤ 'z' := by
  show (c.isUpper || c.isLower || c.isDigit || decide (c = '_')) = true ↔ _
  simp only [Bool.or_eq_true, isUpper_iff, isLower_iff, isDigit_iff, decide_eq_true_eq]
  tauto

/-- The check for names accepts exactly the names. -/
theorem isName_iff {s : String} : isName s = true ↔ IsName s := by
  unfold isName IsName
  cases s.toList with
  | nil => simp [isNameChars]
  | cons first rest =>
      simp [isNameChars, isNameStart_iff, isNameContinue_iff]

end Text

theorem checkName_eq_ok {name : String} {u : Unit} :
    checkName name = .ok u ↔ Text.IsName name := by
  rw [← Text.isName_iff]
  unfold checkName
  split <;> simp [*]

theorem TypeMetadata.isName_of_ofDecl {t : HostType} {name? description : Option String}
    {metadata : TypeMetadata} (h : ofDecl t name? description = .ok metadata) :
    Text.IsName (name?.getD t.shortName) := by
  unfold ofDecl at h
  dsimp only at h
  split at h
  · next hname => exact checkName_eq_ok.mp hname
  · cases h

/-! ## Nodes -/

/-- The name that a type or a member is declared under. Bundles of arguments and implements
edges have none. -/
def Node.declaredName? (n : Node) : Option String :=
  (n.metadata?.map (·.name)).or n.memberName?

namespace Node

variable {n n' : Node}

theorem declaredName?_of_own (h : n.own = n'.own) : n.declaredName? = n'.declaredName? :=
  congr_own (by rintro (_ | _) <;> rfl) h

theorem declaredName?_of_bare (h : n.bare = n'.bare) : n.declaredName? = n'.declaredName? :=
  congr_bare (by rintro (_ | _) <;> rfl) h

/-- The name of a declared type in messages is the one it is declared under. -/
theorem declaredName?_of_isSchemaType (h : n.isSchemaType = true) :
    n.declaredName? = some n.displayName := by
  cases n with
  | object _ | interface _ | inputObject _ => rfl
  | field _ | args _ | arg _ | inputField _ | implement _ => cases h

end Node

/-- What is accepted has a name that passed the check. -/
theorem Declaration.Accepted.isName {r r' : Registry} {d : Declaration} (hd : d.Accepted r r')
    {name : String} (h : d.bare.declaredName? = some name) : Text.IsName name := by
  cases hd with
  | object _ hmetadata =>
      cases h
      exact TypeMetadata.isName_of_ofDecl hmetadata
  | interface _ hmetadata _ =>
      cases h
      exact TypeMetadata.isName_of_ofDecl hmetadata
  | inputObject _ hmetadata =>
      cases h
      exact TypeMetadata.isName_of_ofDecl hmetadata
  | args _ => cases h
  | field hname =>
      cases h
      exact checkName_eq_ok.mp hname
  | inputField hname =>
      cases h
      exact checkName_eq_ok.mp hname
  | arg hname _ =>
      cases h
      exact checkName_eq_ok.mp hname
  | implement _ _ => cases h

namespace Registry

variable {r r' : Registry} {d : Declaration}

/-- Everything that is declared under a name is declared under a valid one. -/
def Spelled (r : Registry) : Prop :=
  ∀ {id name}, id < r.size → (r.node id).declaredName? = some name → Text.IsName name

theorem spelled_empty : Spelled empty := fun hid => absurd hid (Nat.not_lt_zero _)

theorem Spelled.accepted (h : r.Spelled) (hr : r.WellFormed) (hd : d.Accepted r r') :
    r'.Spelled := by
  intro id name hid hname
  rw [hd.size hr, Nat.lt_succ_iff] at hid
  rcases Nat.lt_or_eq_of_le hid with hlt | rfl
  · rw [Node.declaredName?_of_own (hd.own_old hr hlt)] at hname
    exact h hlt hname
  · have hbare : (r'.node r.size).bare = d.bare.bare := by
      rw [← hd.bare_new hr, Node.bare_bare]
    rw [Node.declaredName?_of_bare hbare] at hname
    exact hd.isName hname

theorem Spelled.run (h : r.Spelled) (hr : r.WellFormed) (d : Declaration) :
    (d.run.after r).Spelled := by
  unfold RegistryM.after
  rcases d.run_cases r with ⟨e, hrun, -⟩ | ⟨e, hrun, -⟩ | ⟨r', hrun, haccepted⟩
  · rw [hrun]
    exact h
  · -- The members are gone from the waiting room, their nodes are not.
    rw [hrun]
    exact h
  · rw [hrun]
    exact h.accepted hr haccepted

/-- Whatever is declared, and whatever is refused on the way, all names are valid. -/
theorem Reached.spelled (h : r.Reached) : r.Spelled := by
  induction h with
  | empty => exact spelled_empty
  | declare d hr ih => exact ih.run hr.wellFormed d

theorem Reached.isName_displayName (h : r.Reached) {id : NodeId}
    (hid : (r.node id).isSchemaType = true) : Text.IsName (r.node id).displayName :=
  h.spelled (lt_size_of_isSchemaType hid) (Node.declaredName?_of_isSchemaType hid)

theorem Reached.isName_field (h : r.Reached) {id : NodeId} {n : FieldNode}
    (hn : r.node id = .field n) : Text.IsName n.decl.name := by
  have hid : id < r.size := lt_size_of_node_ne fun habsent => by cases hn.symm.trans habsent
  exact h.spelled hid (by rw [hn]; rfl)

theorem Reached.isName_inputField (h : r.Reached) {id : NodeId} {n : InputFieldNode}
    (hn : r.node id = .inputField n) : Text.IsName n.decl.name := by
  have hid : id < r.size := lt_size_of_node_ne fun habsent => by cases hn.symm.trans habsent
  exact h.spelled hid (by rw [hn]; rfl)

/-- An argument is read where none is too, so it matters that what is attached to a field was
declared. -/
theorem Reached.isName_attachedArg (h : r.Reached) {id : NodeId} {n : FieldNode}
    {arg : ArgNode} (hn : r.node id = .field n) (harg : r.attachedArg? n = some arg) :
    Text.IsName arg.decl.name := by
  obtain ⟨a, ha, hnode⟩ := Option.bind_eq_some_iff.mp harg
  have hheld : a ∈ r.members (.heldBy id .arg) := by
    rw [Registry.members, hn]
    exact List.mem_of_head? ha
  refine h.spelled (h.tidy.fits hheld).lt_size ?_
  rw [Node.eq_arg_of_arg? hnode]
  rfl

end Registry

end SchemaGraph
