import SchemaGraph.Proofs.Compile.Mention
import SchemaGraph.Proofs.OrderedMap

/-!
# What the members of a compiled type come from

A compiled type is made of compiled fields, and these of compiled arguments.
Each of them was read off a declaration: its reference is what the declared type
expression compiles to, the type at the core of that expression is of a kind
that may stand there, and everything the declaration mentions is something the
type leads to. Duplicates and overridden declarations only ever remove members,
so nothing is a member that was not declared.
-/

set_option autoImplicit false

namespace SchemaGraph

/-! ## Members and their declarations -/

namespace CompiledType

/-- Whether the type is made of a declared node, and not given on the spot. -/
def isDeclared : CompiledType → Bool
  | .object _ => true
  | .interface _ => true
  | .inputObject _ => true
  | _ => false

def outputFields : CompiledType → List CompiledField
  | .object t => t.fields.values
  | .interface t => t.fields.values
  | _ => []

/-- The arguments of all fields, or the input fields. -/
def inputFields : CompiledType → List CompiledInput
  | .object t => t.fields.values.flatMap fun f => f.args.values
  | .interface t => t.fields.values.flatMap fun f => f.args.values
  | .inputObject t => t.fields.values
  | _ => []

/-- What is given on the spot has no members. -/
theorem members_of_not_declared {t : CompiledType} (h : t.isDeclared = false) :
    t.outputFields = [] ∧ t.inputFields = [] := by
  cases t with
  | object _ | interface _ | inputObject _ => cases h
  | union _ | enum _ | scalar _ => exact ⟨rfl, rfl⟩

end CompiledType

/-- Whether a compiled input is what is declared, but for its type. -/
def CompiledInput.Describes (a : CompiledInput) (decl : InputDecl) : Prop :=
  a.name = decl.name ∧ a.description = decl.description ∧ a.default? = decl.default?

namespace Registry

/-- The field was compiled from a declaration of this type. -/
def DeclaresOutput (r : Registry) (f : CompiledField) (e : TypeExpr) : Prop :=
  ∃ i n owner, r.node i = .field n ∧ n.decl.type? = some e ∧
    Meaning.field r owner i = .ok f

/-- The argument or input field is what an input field of this type or a single
argument of this type is declared to be. -/
def DeclaresInput (r : Registry) (a : CompiledInput) (e : TypeExpr) : Prop :=
  (∃ i n, r.node i = .inputField n ∧ n.decl.type? = some e ∧ a.Describes n.decl) ∨
    ∃ i n arg, r.node i = .field n ∧ r.attachedArg? n = some arg ∧
      argType? n (some arg) = some e ∧ a.Describes arg.decl

end Registry

/-- The kind of type that a node becomes. -/
def Node.namedKind? : Node → Option NamedKind
  | .object _ => some .object
  | .interface _ => some .interface
  | .inputObject _ => some .inputObject
  | _ => none

/-- The kind of the type at the core of a type expression, under all lists and
nullables. -/
def TypeExpr.coreKind? (r : Registry) : TypeExpr → Option NamedKind
  | .ref t =>
    match r.getNode t with
    | .ok id => (r.node id).namedKind?
    | .error _ => none
  | .scalar _ => some .scalar
  | .enum _ => some .enum
  | .union _ => some .union
  | .list item => coreKind? r item
  | .nullable inner => coreKind? r inner

namespace Meaning

variable {r : Registry}

theorem require_coreName (c : CompiledRef) (nonNull nullable : Bool) :
    (Compile.require c nonNull nullable).typeRef.coreName = c.typeRef.coreName := by
  unfold Compile.require
  split <;> rfl

theorem require_kind (c : CompiledRef) (nonNull nullable : Bool) :
    (Compile.require c nonNull nullable).kind = c.kind := by
  unfold Compile.require
  split <;> rfl

theorem node_eq_ok {id : NodeId} {c : CompiledRef} (h : node r id = .ok c) :
    c.typeRef = .named (r.node id).displayName ∧ (r.node id).namedKind? = some c.kind := by
  unfold node at h
  cases hn : r.node id with
  | object n =>
      simp only [hn] at h
      cases h
      exact ⟨rfl, rfl⟩
  | interface n =>
      simp only [hn] at h
      obtain ⟨d, -, rfl⟩ := map_eq_ok.mp h
      exact ⟨rfl, rfl⟩
  | inputObject n =>
      simp only [hn] at h
      cases h
      exact ⟨rfl, rfl⟩
  | field _ | args _ | arg _ | inputField _ | implement _ =>
      simp only [hn] at h
      cases h

/-! ## The type at the core -/

/-- What the name at the core of a compiled reference stands for: a declared
type that the expression mentions, a scalar that every schema knows, or what is
mentioned under that name. -/
def Names (r : Registry) (mentions : Mention → Prop) (name : String) : Prop :=
  (∃ id, mentions (.node id) ∧ name = (r.node id).displayName) ∨
    name ∈ builtinScalars ∨ mentions (.given name)

theorem expr_core {t : TypeExpr} :
    ∀ (nonNull : Bool) {c : CompiledRef}, expr r nonNull t = .ok c →
      t.coreKind? r = some c.kind ∧ Names r (t.Mentions r) c.typeRef.coreName := by
  induction t with
  | ref t =>
      intro nonNull c h
      obtain ⟨id, hid, h⟩ := bind_eq_ok.mp h
      obtain ⟨c', hnode, h⟩ := bind_eq_ok.mp h
      cases h
      obtain ⟨href, hkind⟩ := node_eq_ok hnode
      have hname := congrArg TypeRef.coreName href
      rw [require_coreName, require_kind]
      refine ⟨?_, Or.inl ⟨id, ⟨id, hid, rfl⟩, hname⟩⟩
      simp only [TypeExpr.coreKind?, hid, hkind]
  | scalar d =>
      intro nonNull c h
      cases h
      rw [require_coreName, require_kind]
      refine ⟨rfl, ?_⟩
      cases hbuiltin : d.builtin with
      | true => exact Or.inr (Or.inl (d.builtin_name hbuiltin))
      | false => exact Or.inr (Or.inr ⟨hbuiltin, rfl⟩)
  | enum d =>
      intro nonNull c h
      cases h
      rw [require_coreName, require_kind]
      exact ⟨rfl, Or.inr (Or.inr rfl)⟩
  | union d =>
      intro nonNull c h
      obtain ⟨u, -, h⟩ := bind_eq_ok.mp h
      cases h
      rw [require_coreName, require_kind]
      exact ⟨rfl, Or.inr (Or.inr (Or.inl rfl))⟩
  | list item ih =>
      intro nonNull c h
      obtain ⟨c', hitem, h⟩ := bind_eq_ok.mp h
      cases h
      rw [require_coreName, require_kind]
      obtain ⟨hkind, hname⟩ := ih true hitem
      exact ⟨hkind, hname⟩
  | nullable inner ih =>
      intro nonNull c h
      obtain ⟨c', hinner, h⟩ := bind_eq_ok.mp h
      cases h
      obtain ⟨hkind, hname⟩ := ih false hinner
      exact ⟨hkind, hname⟩

/-- A declared type expression, linked and then compiled, is of the kind and has
the name of the type at its core. -/
theorem link_core {e : TypeExpr} {l : Link} {nonNull : Bool} {c : CompiledRef}
    (hl : r.link e = .ok l) (h : link r l nonNull = .ok c) :
    e.coreKind? r = some c.kind ∧ Names r (l.Mentions r) c.typeRef.coreName := by
  cases e with
  | ref t =>
      obtain ⟨id, hid, rfl⟩ := map_eq_ok.mp hl
      obtain ⟨c', hnode, rfl⟩ := map_eq_ok.mp h
      obtain ⟨href, hkind⟩ := node_eq_ok hnode
      have hname := congrArg TypeRef.coreName href
      rw [require_coreName, require_kind]
      refine ⟨?_, Or.inl ⟨id, rfl, hname⟩⟩
      simp only [TypeExpr.coreKind?, hid, hkind]
  | scalar _ | enum _ | union _ | list _ | nullable _ =>
      cases hl
      exact expr_core nonNull h

theorem output_eq_ok {l : Link} {nonNull : Bool} {owner field : String} {c : CompiledRef} :
    output r l nonNull owner field = .ok c ↔
      link r l nonNull = .ok c ∧ c.kind.isOutput = true := by
  unfold output
  rw [bind_eq_ok]
  constructor
  · rintro ⟨c', hlink, h⟩
    split at h
    · next houtput =>
        cases h
        exact ⟨hlink, houtput⟩
    · cases h
  · rintro ⟨hlink, houtput⟩
    exact ⟨c, hlink, if_pos houtput⟩

theorem input_eq_ok {l : Link} {nonNull : Bool} {owner field : String} {c : CompiledRef} :
    input r l nonNull owner field = .ok c ↔
      link r l nonNull = .ok c ∧ c.kind.isInput = true := by
  unfold input
  rw [bind_eq_ok]
  constructor
  · rintro ⟨c', hlink, h⟩
    split at h
    · next hinput =>
        cases h
        exact ⟨hlink, hinput⟩
    · cases h
  · rintro ⟨hlink, hinput⟩
    exact ⟨c, hlink, if_pos hinput⟩

/-! ## Origins -/

/-- A reference is what one of the `declared` type expressions compiles to, the
kind of the type at its core `fits`, and what it mentions is among `mentions`. -/
def ComesFrom (r : Registry) (declared : TypeExpr → Prop) (fits : NamedKind → Bool)
    (mentions : Mention → Prop) (t : TypeRef) : Prop :=
  ∃ e l c, declared e ∧ r.link e = .ok l ∧ link r l true = .ok c ∧ c.typeRef = t ∧
    fits c.kind = true ∧ ∀ m, l.Mentions r m → mentions m

theorem ComesFrom.mono {declared : TypeExpr → Prop} {fits : NamedKind → Bool}
    {M M' : Mention → Prop} {t : TypeRef} (h : ComesFrom r declared fits M t)
    (hM : ∀ m, M m → M' m) : ComesFrom r declared fits M' t := by
  obtain ⟨e, l, c, hdecl, hl, hc, ht, hfits, hm⟩ := h
  exact ⟨e, l, c, hdecl, hl, hc, ht, hfits, fun m hmen => hM m (hm m hmen)⟩

theorem ComesFrom.names {declared : TypeExpr → Prop} {fits : NamedKind → Bool}
    {M : Mention → Prop} {t : TypeRef} (h : ComesFrom r declared fits M t) :
    Names r M t.coreName := by
  obtain ⟨e, l, c, -, hl, hc, rfl, -, hm⟩ := h
  rcases (link_core hl hc).2 with ⟨id, hid, hname⟩ | hname | hname
  · exact Or.inl ⟨id, hm _ hid, hname⟩
  · exact Or.inr (Or.inl hname)
  · exact Or.inr (Or.inr (hm _ hname))

theorem linkInput_eq_ok {i : NodeId} {linked : LinkedInput}
    (h : r.linkInput i = .ok linked) :
    ∃ n e, r.node i = .inputField n ∧ n.decl = linked.decl ∧ n.decl.type? = some e ∧
      r.link e = .ok linked.type := by
  unfold Registry.linkInput at h
  cases hn : r.node i with
  | inputField n =>
      cases htype : n.decl.type? with
      | none =>
          simp only [hn, htype] at h
          cases h
      | some e =>
          simp only [hn, htype, map_eq_ok] at h
          obtain ⟨l, hl, rfl⟩ := h
          exact ⟨n, e, rfl, rfl, htype, hl⟩
  | object _ | interface _ | inputObject _ | field _ | args _ | arg _ | implement _ =>
      simp only [hn] at h
      cases h

theorem linkArg_eq_ok {owner field : String} {type? : Option TypeExpr}
    {node? : Option ArgNode} {arg : LinkedArg}
    (h : r.linkArg owner field type? node? = .ok (some arg)) :
    ∃ e n, type? = some e ∧ node? = some n ∧ n.decl = arg.decl ∧
      r.link e = .ok arg.type := by
  cases type? with
  | none => cases node? <;> cases h
  | some e =>
      cases node? with
      | none => cases h
      | some n =>
          obtain ⟨l, hl, heq⟩ := map_eq_ok.mp h
          cases heq
          exact ⟨e, n, rfl, rfl, rfl, hl⟩

/-- The parts of a linked field: its declaration, its type and its single
argument. -/
theorem linkField_eq_ok {i : NodeId} {linked : LinkedField}
    (h : r.linkField i = .ok linked) :
    ∃ n e, r.node i = .field n ∧ n.decl = linked.decl ∧ n.decl.type? = some e ∧
      r.link e = .ok linked.type ∧
      ∀ arg, linked.arg? = some arg → ∃ e n', r.attachedArg? n = some n' ∧
        n'.decl = arg.decl ∧ Registry.argType? n (some n') = some e ∧
        r.link e = .ok arg.type := by
  unfold Registry.linkField at h
  cases hn : r.node i with
  | field n =>
      cases htype : n.decl.type? with
      | none =>
          simp only [hn, htype] at h
          obtain ⟨_, hlink, -⟩ := bind_eq_ok.mp h
          cases hlink
      | some e =>
          simp only [hn, htype] at h
          obtain ⟨l, hl, h⟩ := bind_eq_ok.mp h
          split at h
          · obtain ⟨_, herror, -⟩ := bind_eq_ok.mp h
            cases herror
          · obtain ⟨args?, hargs, h⟩ := bind_eq_ok.mp h
            obtain ⟨arg?, harg, h⟩ := bind_eq_ok.mp h
            cases h
            refine ⟨n, e, rfl, rfl, htype, hl, ?_⟩
            rintro arg rfl
            obtain ⟨e', n', htype', hnode', hdecl, hl'⟩ := linkArg_eq_ok harg
            rw [hnode'] at htype'
            exact ⟨e', n', hnode', hdecl, htype', hl'⟩
  | object _ | interface _ | inputObject _ | args _ | arg _ | inputField _ | implement _ =>
      simp only [hn] at h
      cases h

/-! ## Arguments and input fields -/

/-- The parts of the shape of an input object or a bundle. -/
theorem shape_eq_ok {j : NodeId} {c : InputObjectShape} (h : shape r j = .ok c) :
    (r.node j).inputFields? = some (bundleFields r j) ∧
      (r.node j).constructor? = some c.constructor ∧ c.name = (r.node j).displayName ∧
      fieldShapes r (bundleFields r j) = .ok c.fields := by
  unfold shape at h
  unfold bundleFields
  cases hinputs : (r.node j).inputFields? with
  | none =>
      simp only [hinputs] at h
      cases h
  | some ids =>
      cases hconstructor : (r.node j).constructor? with
      | none =>
          simp only [hinputs, hconstructor] at h
          cases h
      | some constructor =>
          simp only [hinputs, hconstructor] at h
          obtain ⟨fields, hfields, rfl⟩ := map_eq_ok.mp h
          exact ⟨rfl, rfl, rfl, hfields⟩

/-- A field has a single argument, a bundle or no arguments. -/
theorem arguments_cases {owner : String} {linked : LinkedField}
    {args : OrderedMap String CompiledInput} {mapping : ArgumentMapping}
    (h : arguments r owner linked = .ok (args, mapping)) :
    (∃ arg c, linked.arg? = some arg ∧ input r arg.type true owner arg.decl.name = .ok c ∧
        argMapping r arg = .ok mapping ∧
        args = .ofList [(arg.decl.name,
          ⟨arg.decl.name, arg.decl.description, c.typeRef, arg.decl.default?⟩)]) ∨
      (∃ id, linked.arg? = none ∧ linked.args? = some id ∧
        inputs r (r.node id).type.shortName (bundleFields r id) ∅ = .ok args ∧
        mapping = .bundle id) ∨
      (linked.arg? = none ∧ linked.args? = none ∧ args = ∅ ∧ mapping = .none) := by
  unfold arguments at h
  cases harg : linked.arg? with
  | some arg =>
      cases hargs : linked.args? with
      | some bundle =>
          simp only [harg, hargs] at h
          cases h
      | none =>
          simp only [harg, hargs] at h
          obtain ⟨c, hc, h⟩ := bind_eq_ok.mp h
          obtain ⟨mapping', hmapping, h⟩ := bind_eq_ok.mp h
          cases h
          exact Or.inl ⟨arg, c, rfl, hc, hmapping, rfl⟩
  | none =>
      cases hargs : linked.args? with
      | some bundle =>
          simp only [harg, hargs] at h
          obtain ⟨compiled, hcompiled, h⟩ := bind_eq_ok.mp h
          cases h
          exact Or.inr (Or.inl ⟨bundle, rfl, rfl, hcompiled, rfl⟩)
      | none =>
          simp only [harg, hargs] at h
          cases h
          exact Or.inr (Or.inr ⟨rfl, rfl, rfl, rfl⟩)

/-- Input fields that are stored come from the declarations they are read off,
or were stored before. -/
theorem mem_inputs {owner : String} {ids : List NodeId} {a : CompiledInput} :
    ∀ {before after : OrderedMap String CompiledInput},
      inputs r owner ids before = .ok after → a ∈ after.values →
      a ∈ before.values ∨ ∃ i ∈ ids,
        ComesFrom r (r.DeclaresInput a) NamedKind.isInput (r.InputMentions i)
          a.typeRef := by
  induction ids with
  | nil =>
      intro before after h ha
      cases h
      exact Or.inl ha
  | cons i rest ih =>
      intro before after h ha
      obtain ⟨linked, hlinked, h⟩ := bind_eq_ok.mp h
      obtain ⟨c, hc, h⟩ := bind_eq_ok.mp h
      rcases ih h ha with hstored | ⟨j, hj, hcomes⟩
      · rcases OrderedMap.mem_values_insert hstored with rfl | hbefore
        · obtain ⟨n, e, hn, hdecl, htype, hl⟩ := linkInput_eq_ok hlinked
          obtain ⟨hlink, hkind⟩ := input_eq_ok.mp hc
          refine Or.inr ⟨i, by simp, e, linked.type, c, ?_, hl, hlink, rfl, hkind, ?_⟩
          · refine Or.inl ⟨i, n, hn, htype, ?_⟩
            rw [hdecl]
            exact ⟨rfl, rfl, rfl⟩
          · exact fun m hm => ⟨linked, hlinked, hm⟩
        · exact Or.inl hbefore
      · exact Or.inr ⟨j, by simp [hj], hcomes⟩

/-- The arguments of a field come from what is declared as its arguments, and
the shapes they are materialized by are mentioned. -/
theorem arguments_eq_ok {i : NodeId} {owner : String} {linked : LinkedField}
    {args : OrderedMap String CompiledInput} {mapping : ArgumentMapping}
    (hlinked : r.linkField i = .ok linked)
    (h : arguments r owner linked = .ok (args, mapping)) :
    (∀ a ∈ args.values, ComesFrom r (r.DeclaresInput a) NamedKind.isInput
      (r.ArgumentsMention linked) a.typeRef) ∧
      ∀ j ∈ mapping.inputs, r.ArgumentsMention linked (.shape j) := by
  rcases arguments_cases h with ⟨arg, c, harg, hc, hmapping, rfl⟩ |
    ⟨bundle, -, hargs, hcompiled, rfl⟩ | ⟨-, -, rfl, rfl⟩
  · refine ⟨?_, fun j hj => Or.inl ⟨arg, harg, Or.inr ⟨_, hmapping, j, hj, rfl⟩⟩⟩
    intro a ha
    have hmem : a ∈ (OrderedMap.empty : OrderedMap String CompiledInput).values ∨ a = _ :=
      (OrderedMap.mem_values_insert ha).symm
    rcases hmem with hmem | rfl
    · cases hmem
    · obtain ⟨n, _, hn, -, -, -, hall⟩ := linkField_eq_ok hlinked
      obtain ⟨e, n', hattached, hdecl, htype, hl⟩ := hall arg harg
      obtain ⟨hlink, hkind⟩ := input_eq_ok.mp hc
      refine ⟨e, arg.type, c, ?_, hl, hlink, rfl, hkind, ?_⟩
      · refine Or.inr ⟨i, n, n', hn, hattached, htype, ?_⟩
        rw [hdecl]
        exact ⟨rfl, rfl, rfl⟩
      · exact fun m hm => Or.inl ⟨arg, harg, Or.inl hm⟩
  · refine ⟨?_, ?_⟩
    · intro a ha
      rcases mem_inputs hcompiled ha with hmem | ⟨j, hj, hcomes⟩
      · cases hmem
      · exact hcomes.mono fun m hm => Or.inr ⟨bundle, hargs, Or.inr ⟨j, hj, hm⟩⟩
    · intro j hj
      rw [List.mem_singleton.mp hj]
      exact Or.inr ⟨bundle, hargs, Or.inl rfl⟩
  · exact ⟨fun a ha => absurd ha List.not_mem_nil, fun j hj => absurd hj List.not_mem_nil⟩

/-! ## Fields -/

/-- What a compiled field has to do with the declaration `i`: its type and its
arguments come from it, and it mentions the shapes of the arguments. -/
structure FieldOf (r : Registry) (i : NodeId) (f : CompiledField) : Prop where
  output : ComesFrom r (r.DeclaresOutput f) NamedKind.isOutput (r.FieldMentions i)
    f.typeRef
  args : ∀ a ∈ f.args.values, ComesFrom r (r.DeclaresInput a) NamedKind.isInput
    (r.FieldMentions i) a.typeRef
  shapes : ∀ j ∈ f.resolver.arguments.inputs, r.FieldMentions i (.shape j)

theorem field_eq_ok {owner : String} {i : NodeId} {f : CompiledField}
    (h : field r owner i = .ok f) : FieldOf r i f := by
  have hfield := h
  obtain ⟨linked, hlinked, h⟩ := bind_eq_ok.mp h
  obtain ⟨c, hc, h⟩ := bind_eq_ok.mp h
  obtain ⟨⟨args, mapping⟩, hargs, h⟩ := bind_eq_ok.mp h
  cases h
  obtain ⟨n, e, hn, hdecl, htype, hl, -⟩ := linkField_eq_ok hlinked
  obtain ⟨hlink, hkind⟩ := output_eq_ok.mp hc
  obtain ⟨hcomes, hshapes⟩ := arguments_eq_ok hlinked hargs
  refine ⟨⟨e, linked.type, c, ?_, hl, hlink, rfl, hkind, ?_⟩, ?_, ?_⟩
  · exact ⟨i, n, owner, hn, htype, hfield⟩
  · exact fun m hm => ⟨linked, hlinked, Or.inl hm⟩
  · exact fun a ha => (hcomes a ha).mono fun m hm => ⟨linked, hlinked, Or.inr hm⟩
  · exact fun j hj => ⟨linked, hlinked, Or.inr (hshapes j hj)⟩

/-- The arguments of a field are those of its declaration. -/
theorem arguments_of_field {owner : String} {i : NodeId} {f : CompiledField}
    (h : field r owner i = .ok f) :
    ∃ linked, r.linkField i = .ok linked ∧
      arguments r owner linked = .ok (f.args, f.resolver.arguments) := by
  obtain ⟨linked, hlinked, h⟩ := bind_eq_ok.mp h
  obtain ⟨c, -, h⟩ := bind_eq_ok.mp h
  obtain ⟨⟨args, mapping⟩, hargs, h⟩ := bind_eq_ok.mp h
  cases h
  exact ⟨linked, hlinked, hargs⟩

/-- Fields that are stored were compiled from their declarations, or stored before. -/
theorem field_of_mem_fields {owner : String} {ids : List NodeId} {f : CompiledField} :
    ∀ {before after : OrderedMap String CompiledField},
      fields r owner ids before = .ok after → f ∈ after.values →
      f ∈ before.values ∨ ∃ i ∈ ids, field r owner i = .ok f := by
  induction ids with
  | nil =>
      intro before after h hf
      cases h
      exact Or.inl hf
  | cons i rest ih =>
      intro before after h hf
      obtain ⟨f', hf', h⟩ := bind_eq_ok.mp h
      rcases ih h hf with hstored | ⟨j, hj, hfield⟩
      · rcases OrderedMap.mem_values_insert hstored with rfl | hbefore
        · exact Or.inr ⟨i, List.mem_cons_self, hf'⟩
        · exact Or.inl hbefore
      · exact Or.inr ⟨j, List.mem_cons_of_mem _ hj, hfield⟩

theorem mem_fields {owner : String} {ids : List NodeId} {f : CompiledField}
    {before after : OrderedMap String CompiledField} (h : fields r owner ids before = .ok after)
    (hf : f ∈ after.values) : f ∈ before.values ∨ ∃ i ∈ ids, FieldOf r i f := by
  rcases field_of_mem_fields h hf with hbefore | ⟨i, hi, hfield⟩
  · exact Or.inl hbefore
  · exact Or.inr ⟨i, hi, field_eq_ok hfield⟩

/-! ## Unions -/

/-- A member has an entry of its own, and one for each object that extends it. -/
theorem unionMembers_cons {t : HostType} {rest : List HostType} {ms ds : List (HostType × String)}
    (h : unionMembers r (t :: rest) = .ok (ms, ds)) :
    ∃ id extending ms' ds', r.getNode t = .ok id ∧ (r.node id).isObject = true ∧
      r.descendants id = .ok extending ∧ unionMembers r rest = .ok (ms', ds') ∧
      ms = (t, (r.node id).displayName) :: ms' ∧
      ds = extending.map (fun o => ((r.node o).type, (r.node id).displayName)) ++ ds' := by
  obtain ⟨id, hid, h⟩ := bind_eq_ok.mp h
  dsimp only at h
  split at h
  · next hobject =>
      obtain ⟨extending, hextending, h⟩ := bind_eq_ok.mp h
      obtain ⟨⟨ms', ds'⟩, hrest, h⟩ := bind_eq_ok.mp h
      cases h
      exact ⟨id, extending, ms', ds', hid, hobject, hextending, hrest, rfl, rfl⟩
  · cases h

/-- What the table of a union is made of: an entry for each member, and one for
each object that extends a member. -/
theorem unionMembers_eq_ok {members : List HostType} :
    ∀ {ms ds : List (HostType × String)}, unionMembers r members = .ok (ms, ds) →
      (∀ t ∈ members, ∃ id extending, r.getNode t = .ok id ∧
        (r.node id).isObject = true ∧ r.descendants id = .ok extending) ∧
      (∀ e, e ∈ ms ↔ ∃ t ∈ members, ∃ id, r.getNode t = .ok id ∧
        e = (t, (r.node id).displayName)) ∧
      ∀ e, e ∈ ds ↔ ∃ t ∈ members, ∃ id extending, r.getNode t = .ok id ∧
        r.descendants id = .ok extending ∧
        ∃ o ∈ extending, e = ((r.node o).type, (r.node id).displayName) := by
  induction members with
  | nil =>
      intro ms ds h
      cases h
      simp
  | cons t rest ih =>
      intro ms ds h
      obtain ⟨id, extending, ms', ds', hid, hobject, hextending, hrest, rfl, rfl⟩ :=
        unionMembers_cons h
      obtain ⟨hall, hms, hds⟩ := ih hrest
      refine ⟨?_, fun e => ?_, fun e => ?_⟩
      · intro t' ht'
        rcases List.mem_cons.mp ht' with rfl | ht'
        · exact ⟨id, extending, hid, hobject, hextending⟩
        · exact hall t' ht'
      · simp only [List.mem_cons, hms, exists_eq_or_imp, hid, Except.ok.injEq,
          exists_eq_left']
      · rw [List.mem_append, List.mem_map, hds]
        constructor
        · rintro (⟨o, ho, rfl⟩ | ⟨t', ht', hentry⟩)
          · exact ⟨t, by simp, id, extending, hid, hextending, o, ho, rfl⟩
          · exact ⟨t', by simp [ht'], hentry⟩
        · rintro ⟨t', ht', id', extending', hid', hextending', o, ho, rfl⟩
          rcases List.mem_cons.mp ht' with rfl | ht'
          · obtain rfl : id = id' := Except.ok.inj (hid.symm.trans hid')
            obtain rfl : extending = extending' :=
              Except.ok.inj (hextending.symm.trans hextending')
            exact Or.inl ⟨o, ho, rfl⟩
          · exact Or.inr ⟨t', ht', id', extending', hid', hextending', o, ho, rfl⟩

/-! ## Types -/

theorem object_eq_ok {id : NodeId} {c : CompiledObject} (h : object r id = .ok c) :
    ∃ n chain compiled, r.node id = .object n ∧ r.chain id = .ok chain ∧
      fields r n.metadata.name (objectFieldIds r chain) ∅ = .ok compiled ∧
      c = ⟨n.metadata.name, n.metadata.description,
        (Compile.chainInterfaces r chain).map fun i => (r.node i).displayName, compiled⟩ := by
  unfold object at h
  cases hn : r.node id with
  | object n =>
      simp only [hn] at h
      obtain ⟨⟨interfaces, compiled⟩, hbody, rfl⟩ := map_eq_ok.mp h
      obtain ⟨chain, hchain, hbody⟩ := bind_eq_ok.mp hbody
      obtain ⟨compiled, hfields, hbody⟩ := bind_eq_ok.mp hbody
      cases hbody
      rw [hn] at hfields
      exact ⟨n, chain, compiled, rfl, hchain, hfields, rfl⟩
  | interface _ | inputObject _ | field _ | args _ | arg _ | inputField _ | implement _ =>
      simp only [hn] at h
      cases h

theorem interface_eq_ok {id : NodeId} {c : CompiledInterface}
    (h : interface r id = .ok c) :
    ∃ n compiled implementers, r.node id = .interface n ∧
      fields r n.metadata.name n.fields ∅ = .ok compiled ∧
      r.implementers id = .ok implementers ∧
      c = ⟨n.metadata.name, n.metadata.description, compiled, ⟨n.metadata.name, .interface,
        implementers.map fun o => ((r.node o).type, (r.node o).displayName)⟩⟩ := by
  unfold interface at h
  cases hn : r.node id with
  | interface n =>
      simp only [hn] at h
      obtain ⟨compiled, hfields, h⟩ := bind_eq_ok.mp h
      obtain ⟨d, hd, h⟩ := bind_eq_ok.mp h
      cases h
      obtain ⟨implementers, himpl, rfl⟩ := map_eq_ok.mp hd
      rw [hn]
      exact ⟨n, compiled, implementers, rfl, hfields, himpl, rfl⟩
  | object _ | inputObject _ | field _ | args _ | arg _ | inputField _ | implement _ =>
      simp only [hn] at h
      cases h

theorem inputObject_eq_ok {id : NodeId} {c : CompiledInputObject}
    (h : inputObject r id = .ok c) :
    ∃ n compiled, r.node id = .inputObject n ∧
      inputs r n.metadata.name n.inputFields ∅ = .ok compiled ∧
      c = ⟨n.metadata.name, n.metadata.description, compiled⟩ := by
  unfold inputObject at h
  cases hn : r.node id with
  | inputObject n =>
      simp only [hn] at h
      obtain ⟨compiled, hcompiled, rfl⟩ := map_eq_ok.mp h
      exact ⟨n, compiled, rfl, hcompiled, rfl⟩
  | object _ | interface _ | field _ | args _ | arg _ | inputField _ | implement _ =>
      simp only [hn] at h
      cases h

/-- A compiled type is an object, an interface or an input object. -/
theorem type_cases {id : NodeId} {t : CompiledType} (h : type r id = .ok t) :
    (∃ c, object r id = .ok c ∧ t = .object c) ∨
    (∃ c, interface r id = .ok c ∧ t = .interface c) ∨
    ∃ c, inputObject r id = .ok c ∧ t = .inputObject c := by
  unfold type at h
  cases hn : r.node id with
  | object n =>
      simp only [hn] at h
      obtain ⟨c, hc, rfl⟩ := map_eq_ok.mp h
      exact Or.inl ⟨c, hc, rfl⟩
  | interface n =>
      simp only [hn] at h
      obtain ⟨c, hc, rfl⟩ := map_eq_ok.mp h
      exact Or.inr (Or.inl ⟨c, hc, rfl⟩)
  | inputObject n =>
      simp only [hn] at h
      obtain ⟨c, hc, rfl⟩ := map_eq_ok.mp h
      exact Or.inr (Or.inr ⟨c, hc, rfl⟩)
  | field _ | args _ | arg _ | inputField _ | implement _ =>
      simp only [hn] at h
      cases h

theorem type_of_object {id : NodeId} {c : CompiledObject} (h : object r id = .ok c) :
    type r id = .ok (.object c) := by
  obtain ⟨n, _, _, hn, -⟩ := object_eq_ok h
  simp only [type, hn]
  exact map_eq_ok.mpr ⟨c, h, rfl⟩

theorem type_of_interface {id : NodeId} {c : CompiledInterface}
    (h : interface r id = .ok c) : type r id = .ok (.interface c) := by
  obtain ⟨n, _, _, hn, -⟩ := interface_eq_ok h
  simp only [type, hn]
  exact map_eq_ok.mpr ⟨c, h, rfl⟩

theorem type_of_inputObject {id : NodeId} {c : CompiledInputObject}
    (h : inputObject r id = .ok c) : type r id = .ok (.inputObject c) := by
  obtain ⟨n, _, hn, -⟩ := inputObject_eq_ok h
  simp only [type, hn]
  exact map_eq_ok.mpr ⟨c, h, rfl⟩

theorem object_of_type {id : NodeId} {c : CompiledObject}
    (h : type r id = .ok (.object c)) : object r id = .ok c := by
  rcases type_cases h with ⟨_, hc, heq⟩ | ⟨_, -, heq⟩ | ⟨_, -, heq⟩
  · cases heq
    exact hc
  · cases heq
  · cases heq

theorem interface_of_type {id : NodeId} {c : CompiledInterface}
    (h : type r id = .ok (.interface c)) : interface r id = .ok c := by
  rcases type_cases h with ⟨_, -, heq⟩ | ⟨_, hc, heq⟩ | ⟨_, -, heq⟩
  · cases heq
  · cases heq
    exact hc
  · cases heq

theorem type_isDeclared {id : NodeId} {t : CompiledType} (h : type r id = .ok t) :
    t.isDeclared = true := by
  rcases type_cases h with ⟨_, -, rfl⟩ | ⟨_, -, rfl⟩ | ⟨_, -, rfl⟩ <;> rfl

/-- A compiled type has the name of its node. -/
theorem type_name {id : NodeId} {t : CompiledType} (h : type r id = .ok t) :
    t.name = (r.node id).displayName := by
  rcases type_cases h with ⟨c, hc, rfl⟩ | ⟨c, hc, rfl⟩ | ⟨c, hc, rfl⟩
  · obtain ⟨n, _, _, hn, -, -, rfl⟩ := object_eq_ok hc
    rw [hn]
    rfl
  · obtain ⟨n, _, _, hn, -, -, rfl⟩ := interface_eq_ok hc
    rw [hn]
    rfl
  · obtain ⟨n, _, hn, -, rfl⟩ := inputObject_eq_ok hc
    rw [hn]
    rfl

/-- Every output field of a compiled type was compiled from a declaration, and what that
mentions the type leads to. -/
theorem field_of_mem_outputFields {id : NodeId} {t : CompiledType} (h : type r id = .ok t)
    {f : CompiledField} (hf : f ∈ t.outputFields) :
    ∃ i owner, field r owner i = .ok f ∧ ∀ m, r.FieldMentions i m → r.Leads id m := by
  rcases type_cases h with ⟨c, hc, rfl⟩ | ⟨c, hc, rfl⟩ | ⟨c, -, rfl⟩
  · obtain ⟨n, chain, compiled, hn, hchain, hfields, rfl⟩ := object_eq_ok hc
    rcases field_of_mem_fields hfields hf with hmem | ⟨i, hi, hfield⟩
    · cases hmem
    · refine ⟨i, _, hfield, fun m hm => ?_⟩
      simp only [Registry.Leads, hn]
      exact ⟨chain, hchain, Or.inr ⟨i, hi, hm⟩⟩
  · obtain ⟨n, compiled, _, hn, hfields, -, rfl⟩ := interface_eq_ok hc
    rcases field_of_mem_fields hfields hf with hmem | ⟨i, hi, hfield⟩
    · cases hmem
    · refine ⟨i, _, hfield, fun m hm => ?_⟩
      simp only [Registry.Leads, hn]
      exact Or.inl ⟨i, hi, hm⟩
  · cases hf

/-- Every output field of a compiled type comes from a field declaration, and
what that mentions the type leads to. -/
theorem mem_outputFields {id : NodeId} {t : CompiledType} (h : type r id = .ok t)
    {f : CompiledField} (hf : f ∈ t.outputFields) :
    ∃ i, FieldOf r i f ∧ ∀ m, r.FieldMentions i m → r.Leads id m := by
  obtain ⟨i, owner, hfield, hleads⟩ := field_of_mem_outputFields h hf
  exact ⟨i, field_eq_ok hfield, hleads⟩

/-- Every argument and input field of a compiled type comes from a declaration,
and what that mentions the type leads to. -/
theorem mem_inputFields {id : NodeId} {t : CompiledType} (h : type r id = .ok t)
    {a : CompiledInput} (ha : a ∈ t.inputFields) :
    ComesFrom r (r.DeclaresInput a) NamedKind.isInput (r.Leads id) a.typeRef := by
  -- The arguments belong to the output fields.
  have hargs : ∀ f ∈ t.outputFields, a ∈ f.args.values →
      ComesFrom r (r.DeclaresInput a) NamedKind.isInput (r.Leads id) a.typeRef := by
    intro f hf ha
    obtain ⟨i, hof, hleads⟩ := mem_outputFields h hf
    exact (hof.args a ha).mono hleads
  rcases type_cases h with ⟨c, -, rfl⟩ | ⟨c, -, rfl⟩ | ⟨c, hc, rfl⟩
  · obtain ⟨f, hf, ha⟩ := List.mem_flatMap.mp ha
    exact hargs f hf ha
  · obtain ⟨f, hf, ha⟩ := List.mem_flatMap.mp ha
    exact hargs f hf ha
  · obtain ⟨n, compiled, hn, hcompiled, rfl⟩ := inputObject_eq_ok hc
    rcases mem_inputs hcompiled ha with hmem | ⟨i, hi, hcomes⟩
    · cases hmem
    · refine hcomes.mono fun m hm => ?_
      simp only [Registry.Leads, hn]
      exact ⟨i, hi, hm⟩

end Meaning

end SchemaGraph
