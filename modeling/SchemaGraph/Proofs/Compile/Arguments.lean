import Mathlib.Data.List.Find
import SchemaGraph.Proofs.Compile.Inheritance
import SchemaGraph.Proofs.Compile.Instances
import SchemaGraph.Proofs.Declared.Later
import SchemaGraph.Proofs.Declared.References

/-!
# Arguments and the fields they are declared for

An argument is declared apart from its field, and the two find each other by name when their
type is declared. The argument goes to the first declaration of the field, or astray if there
is none, and then it is reported. What is compiled is the last declaration. So an argument is
a field's in the end where these two are one declaration, which is so if the field is declared
once. If it is declared again the argument stays with a declaration that nobody looks at, and
is not reported, because it did not go astray.
-/

set_option autoImplicit false

namespace SchemaGraph

open Compile

variable {r r' : Registry}

/-! ## Where an argument goes -/

namespace Registry

/-- The declarations of fields that a type owns. -/
def ownFields (r : Registry) (id : NodeId) : List NodeId := r.members (.heldBy id .field)

theorem firstNamed?_congr {ids : List NodeId} (name : String)
    (h : ∀ i ∈ ids, (r'.node i).memberName? = (r.node i).memberName?) :
    r'.firstNamed? name ids = r.firstNamed? name ids :=
  List.find?_congr fun i hi => by rw [h i hi]

theorem names_congr {ids : List NodeId}
    (h : ∀ i ∈ ids, (r'.node i).memberName? = (r.node i).memberName?) :
    r'.names ids = r.names ids := List.filterMap_congr h

/-- What is declared once is declared first and last. -/
theorem lastNamed?_eq_firstNamed? {name : String} {ids : List NodeId}
    (h : (r.names ids).count name = 1) : r.lastNamed? name ids = r.firstNamed? name ids := by
  induction ids with
  | nil => rfl
  | cons i rest ih =>
      rw [lastNamed?_cons, firstNamed?, List.find?_cons]
      rw [names, List.filterMap_cons] at h
      by_cases hi : (r.node i).memberName? = some name
      · rw [hi, List.count_cons_self, Nat.succ.injEq] at h
        rw [lastNamed?_eq_none.mpr (List.count_eq_zero.mp h), if_pos hi, decide_eq_true hi]
        rfl
      · have hrest : (r.names rest).count name = 1 := by
          cases hname : (r.node i).memberName? with
          | none => rwa [hname] at h
          | some other =>
              rw [hname] at h hi
              rwa [List.count_cons_of_ne fun heq => hi (congrArg some heq)] at h
        rw [ih hrest, if_neg hi, Option.or_none, decide_eq_false hi]
        rfl

/-- The argument `a` was declared for the type that is the node `id`, and attached: to the first
declaration of its field, so that the others have none, or it went astray. -/
structure Attached (r : Registry) (id a : NodeId) (x : ArgNode) : Prop where
  lt_size : id < r.size
  arg : a < r.size ∧ (r.node a).arg? = some x
  type : r.types.find? x.type = some id
  first : ∀ {f b}, f ∈ r.ownFields id → (r.node f).memberName? = some x.field →
    (b ∈ r.members (.heldBy f .arg) ↔
      b = a ∧ r.firstNamed? x.field (r.ownFields id) = some f)
  stray : x.field ∉ r.names (r.ownFields id) → a ∈ r.members .stray

section

variable {fields : List NodeId} {a : NodeId} {x : ArgNode}

theorem argPlace_eq_heldBy_iff (hx : (r.node a).arg? = some x) {f : NodeId} :
    r.argPlace fields a = .heldBy f .arg ↔ r.firstNamed? x.field fields = some f := by
  rw [argPlace, hx, Option.bind_some, ← firstNamed?]
  cases r.firstNamed? x.field fields <;> simp

theorem argPlace_eq_stray_iff (hx : (r.node a).arg? = some x) :
    r.argPlace fields a = .stray ↔ x.field ∉ r.names fields := by
  rw [argPlace, hx, Option.bind_some, ← firstNamed?, ← firstNamed?_eq_none]
  cases r.firstNamed? x.field fields <;> simp

end

namespace Claims

variable {t : HostType} {n : Node} {a : NodeId} {x : ArgNode}

/-- A new type owns the fields that waited for it. -/
theorem ownFields (hc : r.Claims r' t n) (hclaims : n.kind.claims .field = true) :
    r'.ownFields r.size = r.stagedOf t .field := by
  have hbefore : r.members (.heldBy r.size .field) = [] := by
    rw [members, node_of_size_le (Nat.le_refl _)]
    rfl
  rw [Registry.ownFields, hc.moves, if_neg (by simp), hbefore, List.nil_append, stagedOf]
  refine List.filter_congr fun m _ => decide_eq_decide.mpr ?_
  rw [destination_eq_some]
  constructor
  · rintro ⟨-, ⟨-, hplace⟩ | ⟨-, heq⟩⟩
    · cases (argPlace_eq_heldBy hplace).1
    · exact (Place.heldBy.inj heq).2.symm
  · intro hkind
    rw [hkind]
    exact ⟨hclaims, Or.inr ⟨by simp, rfl⟩⟩

/-- An argument goes to its place when its type is declared. -/
theorem mem_argPlace (hc : r.Claims r' t n) (hclaims : n.kind.claims .arg = true)
    (ha : a ∈ r.staged t) (hx : (r.node a).arg? = some x) :
    a ∈ r'.members (r.argPlace (r.stagedOf t .field) a) := by
  have harg : (r.node a).kind = .arg := by
    rw [Node.eq_arg_of_arg? hx]
    rfl
  rw [hc.moves]
  refine List.mem_append_right _ (List.mem_filter.mpr ⟨ha, decide_eq_true ?_⟩)
  exact destination_eq_some.mpr ⟨harg ▸ hclaims, Or.inl ⟨harg, rfl⟩⟩

end Claims

/-- A field that was claimed just now has the argument that waited for it, if any. -/
theorem Tidy.waited_of_mem_args (h : r.Tidy) {t : HostType} {n : Node} (hc : r.Claims r' t n)
    {f b : NodeId} (hf : f ∈ r.stagedOf t .field) (hb : b ∈ r'.members (.heldBy f .arg)) :
    b ∈ r.staged t ∧ r.argPlace (r.stagedOf t .field) b = .heldBy f .arg := by
  rcases (h.rearranges_claims hc).mem hb with ⟨hold, -⟩ | ⟨hwaits, hdest⟩
  · -- A field that waits has not been claimed, so it had no arguments before.
    obtain ⟨o, ho⟩ := h.owned hold
    exact absurd (h.once.apart ho (q := .waiting t) (mem_staged_of_stagedOf hf)) (by simp)
  · rcases destination_eq_some.mp hdest with ⟨-, ⟨-, hplace⟩ | ⟨hne, heq⟩⟩
    · exact ⟨hwaits, hplace⟩
    · exact absurd (Place.heldBy.inj heq).2.symm hne

/-- An argument that waits is attached when its type is declared. -/
theorem Tidy.attached (h : r.Tidy) {t : HostType} {n : Node} (hc : r.Claims r' t n)
    (hclaims : n.kind.claims .arg = true) {a : NodeId} {x : ArgNode} (ha : a ∈ r.staged t)
    (hx : (r.node a).arg? = some x) : r'.Attached r.size a x := by
  have hmove := h.rearranges_claims hc
  have hlt : ∀ {m}, m ∈ r.staged t → m < r.size := h.wellFormed.staged
  have hfields := hc.ownFields (NodeKind.claims_field hclaims)
  have hnames : ∀ f ∈ r.stagedOf t .field, (r'.node f).memberName? = (r.node f).memberName? :=
    fun f hf => Node.memberName?_of_own (hmove.own (hlt (mem_staged_of_stagedOf hf)))
  have hplace := hc.mem_argPlace hclaims ha hx
  constructor
  case lt_size =>
    rw [hc.size]
    exact Nat.lt_succ_self _
  case arg =>
    rw [Node.arg?_of_own (hmove.own (hlt ha))]
    exact ⟨Nat.lt_of_lt_of_le (hlt ha) hmove.size, hx⟩
  case type =>
    have htype : (r.node a).type = t := (h.fits (p := .waiting t) ha).type rfl
    rw [Node.eq_arg_of_arg? hx] at htype
    rw [hc.types, if_neg, OrderedMap.find?_insert, if_pos (show x.type = t from htype)]
    intro heq
    rw [heq] at hclaims
    cases hclaims
  case first =>
    intro f b hf hname
    rw [hfields] at hf ⊢
    rw [hnames f hf] at hname
    rw [firstNamed?_congr x.field hnames, ← argPlace_eq_heldBy_iff hx]
    constructor
    · intro hb
      obtain ⟨hwaits, hdest⟩ := h.waited_of_mem_args hc hf hb
      obtain ⟨-, -, y, hy, hfield⟩ := argPlace_eq_heldBy hdest
      obtain rfl : b = a :=
        h.pending hwaits ha hy hx (Option.some.inj (hfield.symm.trans hname))
      exact ⟨rfl, hdest⟩
    · rintro ⟨rfl, hfirst⟩
      exact hfirst ▸ hplace
  case stray =>
    rw [hfields, names_congr hnames, ← argPlace_eq_stray_iff hx]
    exact fun hstray => hstray ▸ hplace

namespace Attached

variable {id a : NodeId} {x : ArgNode}

/-- Later declarations do not move it. -/
theorem grows (h : r.Attached id a x) (hr : r.Tidy) (hgrows : r.Grows r') :
    r'.Attached id a x := by
  have hfields : r'.ownFields id = r.ownFields id := hgrows.fields h.lt_size
  have hnames : ∀ f ∈ r.ownFields id, (r'.node f).memberName? = (r.node f).memberName? :=
    fun f hf => Node.memberName?_of_own (hgrows.own (hr.fits hf).lt_size)
  constructor
  case lt_size => exact Nat.lt_of_lt_of_le h.lt_size hgrows.size
  case arg =>
    rw [Node.arg?_of_own (hgrows.own h.arg.1)]
    exact ⟨Nat.lt_of_lt_of_le h.arg.1 hgrows.size, h.arg.2⟩
  case type => exact hgrows.types h.type
  case first =>
    intro f b hf hname
    rw [hfields] at hf ⊢
    rw [hnames f hf] at hname
    rw [hgrows.args hf, firstNamed?_congr x.field hnames]
    exact h.first hf hname
  case stray =>
    rw [hfields, names_congr hnames]
    exact fun hnone => hgrows.stray (h.stray hnone)

/-- An argument whose field its type does not declare is reported. -/
theorem orphaned (h : r.Attached id a x) (hnone : x.field ∉ r.names (r.ownFields id)) :
    (r.node id).displayName ++ "." ++ x.field ∈ r.orphanedArgs := by
  refine List.mem_filterMap.mpr ⟨a, h.stray hnone, ?_⟩
  rw [h.arg.2, Option.map_some, ownerName, h.type]

/-- The first declaration of its field has it, and the others have none. -/
theorem attachedArg? (h : r.Attached id a x) {i : NodeId} {n : FieldNode}
    (hn : r.node i = .field n) (hi : i ∈ r.ownFields id) (hname : n.decl.name = x.field) :
    r.attachedArg? n =
      if r.firstNamed? x.field (r.ownFields id) = some i then some x else none := by
  have hheld : ∀ {b}, b ∈ n.args ↔
      b = a ∧ r.firstNamed? x.field (r.ownFields id) = some i := by
    intro b
    have hfirst := h.first (b := b) hi (by rw [hn, ← hname]; rfl)
    rwa [members, hn] at hfirst
  unfold Registry.attachedArg?
  split
  · next hfirst =>
      obtain ⟨b, rest, hargs⟩ := List.exists_cons_of_ne_nil
        (List.ne_nil_of_mem (hheld.mpr ⟨rfl, hfirst⟩))
      obtain ⟨rfl, -⟩ := hheld.mp (hargs ▸ List.mem_cons_self : b ∈ n.args)
      rw [hargs, List.head?_cons, Option.bind_some, h.arg.2]
  · next hfirst =>
      rw [List.eq_nil_iff_forall_not_mem.mpr fun b hb => hfirst (hheld.mp hb).2]
      rfl

end Attached

end Registry

/-! ## What is compiled -/

/-- The field has the argument that was declared like this. -/
def CompiledField.Takes (f : CompiledField) (decl : InputDecl) : Prop :=
  ∃ arg, f.args.find? decl.name = some arg ∧ arg.Describes decl

/-- The field of this name. -/
def CompiledType.field? (t : CompiledType) (name : String) : Option CompiledField :=
  match t with
  | .object c => c.fields.find? name
  | .interface c => c.fields.find? name
  | .inputObject _ | .union _ | .enum _ | .scalar _ => none

namespace Meaning

variable {owner name : String} {i id : NodeId} {n : FieldNode} {f : CompiledField}

/-- A field takes the argument that is attached to its declaration. -/
theorem takes_of_attached {x : ArgNode} (h : field r owner i = .ok f) (hn : r.node i = .field n)
    (hattached : r.attachedArg? n = some x) : f.Takes x.decl := by
  obtain ⟨linked, hlinked, hargs⟩ := arguments_of_field h
  have harg := linkField_arg hn hlinked
  rw [hattached] at harg
  rcases arguments_cases hargs with ⟨arg, c, hsome, -, -, heq⟩ | ⟨_, hnone, -⟩ | ⟨hnone, -⟩
  · rw [hsome] at harg
    obtain ⟨_, _, -, hsame, hdecl, -⟩ := linkArg_eq_ok harg
    obtain rfl := Option.some.inj hsame
    rw [hdecl, CompiledField.Takes, heq]
    refine ⟨⟨arg.decl.name, arg.decl.description, c.typeRef, arg.decl.default?⟩, ?_,
      rfl, rfl, rfl⟩
    exact (OrderedMap.find?_insert ∅ _ _ _).trans (if_pos rfl)
  all_goals
    rw [hnone] at harg
    rcases Registry.linkArg_parts harg with ⟨htype, -⟩ | ⟨_, _, -, hsome, -⟩
    · rw [htype] at harg
      cases harg
    · cases hsome

/-- Where none is attached a field has the arguments of the bundle it is declared with, if
any. -/
theorem args_of_unattached (h : field r owner i = .ok f) (hn : r.node i = .field n)
    (hattached : r.attachedArg? n = none) :
    f.args = ∅ ∨ ∃ b, n.decl.args? = some b ∧ ∃ id, f.resolver.arguments = .bundle id := by
  obtain ⟨linked, hlinked, hargs⟩ := arguments_of_field h
  have harg := linkField_arg hn hlinked
  rw [hattached] at harg
  rcases arguments_cases hargs with ⟨arg, _, hsome, -⟩ | ⟨id, -, hid, -, hbundle⟩ |
    ⟨-, -, hempty, -⟩
  · rw [hsome] at harg
    obtain ⟨_, _, -, hnone, -⟩ := linkArg_eq_ok harg
    cases hnone
  · rcases (Registry.linkField_parts hn hlinked).2.2 with ⟨-, hnone⟩ | ⟨b, _, hb, -⟩
    · cases hid.symm.trans hnone
    · exact Or.inr ⟨b, hb, id, hbundle⟩
  · exact Or.inl hempty

/-- Of several declarations of a field that an object owns the last is compiled, whatever is
above the object. -/
theorem field?_of_object {c : CompiledObject} (h : object r id = .ok c)
    (hname : name ∈ r.names (r.ownFields id)) :
    ∃ last f, r.lastNamed? name (r.ownFields id) = some last ∧
      c.fields.find? name = some f ∧ field r c.name last = .ok f := by
  obtain ⟨n, chain, _, hn, hchain, -⟩ := object_eq_ok h
  have hown : r.ownFields id = objectFields r id := by
    rw [Registry.ownFields, Registry.members, objectFields, hn]
    rfl
  rw [hown] at hname ⊢
  obtain ⟨above, rfl⟩ : ∃ above, chain = id :: above := by
    cases Registry.chainOf_of_chain hchain with
    | root _ _ => exact ⟨_, rfl⟩
    | child _ _ _ _ => exact ⟨_, rfl⟩
  obtain ⟨last, hlast⟩ := Option.ne_none_iff_exists'.mp
    fun hnone => Registry.lastNamed?_eq_none.mp hnone hname
  have hkey : name ∈ c.fields.keys :=
    ((flattens_of_object h hchain).names name).mpr (Or.inl ⟨id, List.mem_cons_self, hname⟩)
  obtain ⟨f, hf⟩ := OrderedMap.contains_iff.mp (OrderedMap.mem_keys_iff.mp hkey)
  obtain ⟨i, hi, hfield⟩ := (find?_object h hchain).mp hf
  rw [Registry.flattened?, List.findSome?_cons, hlast, Option.some_or] at hi
  obtain rfl := Option.some.inj hi
  exact ⟨last, f, hlast, hf, hfield⟩

theorem field?_of_interface {c : CompiledInterface} (h : interface r id = .ok c)
    (hname : name ∈ r.names (r.ownFields id)) :
    ∃ last f, r.lastNamed? name (r.ownFields id) = some last ∧
      c.fields.find? name = some f ∧ field r c.name last = .ok f := by
  obtain ⟨n, _, _, hn, -⟩ := interface_eq_ok h
  have hown : r.ownFields id = interfaceFields r id := by
    rw [Registry.ownFields, Registry.members, interfaceFields, hn]
    rfl
  rw [hown] at hname ⊢
  obtain ⟨f, hf⟩ := OrderedMap.contains_iff.mp
    (OrderedMap.mem_keys_iff.mp ((names_interfaceFields h).mpr hname))
  obtain ⟨last, hlast, hfield⟩ := (find?_interface h).mp hf
  exact ⟨last, f, hlast, hf, hfield⟩

theorem field?_of_type {t : CompiledType} (h : type r id = .ok t)
    (hname : name ∈ r.names (r.ownFields id)) :
    ∃ last f, r.lastNamed? name (r.ownFields id) = some last ∧ t.field? name = some f ∧
      field r t.name last = .ok f := by
  rcases type_cases h with ⟨c, hc, rfl⟩ | ⟨c, hc, rfl⟩ | ⟨c, hc, rfl⟩
  · exact field?_of_object hc hname
  · exact field?_of_interface hc hname
  · obtain ⟨n, _, hn, -⟩ := inputObject_eq_ok hc
    rw [Registry.ownFields, Registry.members, hn] at hname
    cases hname

end Meaning

/-- A field takes the argument if the declaration that it was attached to is the one that is
compiled. Otherwise the argument is lost, though the field may have a bundle. -/
theorem Registry.Attached.takes {id a : NodeId} {x : ArgNode} (h : r.Attached id a x)
    {t : CompiledType} (ht : Meaning.type r id = .ok t)
    (hname : x.field ∈ r.names (r.ownFields id)) :
    ∃ first last f, r.firstNamed? x.field (r.ownFields id) = some first ∧
      r.lastNamed? x.field (r.ownFields id) = some last ∧ t.field? x.field = some f ∧
      (first = last → f.Takes x.decl) ∧
      (first ≠ last → f.args = ∅ ∨ ∃ n b, r.node last = .field n ∧ n.decl.args? = some b ∧
        ∃ id, f.resolver.arguments = .bundle id) := by
  obtain ⟨first, hfirst⟩ := Option.ne_none_iff_exists'.mp
    fun hnone => firstNamed?_eq_none.mp hnone hname
  obtain ⟨last, f, hlast, hf, hfield⟩ := Meaning.field?_of_type ht hname
  obtain ⟨hmem, hlastName⟩ := lastNamed?_eq_some hlast
  obtain ⟨⟨n, hn, -⟩, -⟩ := Meaning.isOf_of_field hfield
  rw [hn] at hlastName
  have hattached := h.attachedArg? hn hmem (Option.some.inj hlastName)
  refine ⟨first, last, f, hfirst, hlast, hf, fun heq => ?_, fun hne => ?_⟩
  · rw [hfirst, heq, if_pos rfl] at hattached
    exact Meaning.takes_of_attached hfield hn hattached
  · rw [hfirst, if_neg fun heq => hne (Option.some.inj heq)] at hattached
    exact (Meaning.args_of_unattached hfield hn hattached).imp_right
      fun ⟨b, hb, hbundle⟩ => ⟨n, b, hn, hb, hbundle⟩

theorem CompiledField.not_takes {f : CompiledField} (h : f.args = ∅) (decl : InputDecl) :
    ¬ f.Takes decl := by
  rintro ⟨arg, hfind, -⟩
  rw [h] at hfind
  cases hfind

/-! ## Any type, declared at any time -/

/-- The requests for the type that is declared as a node. -/
inductive Request.AsksFor (id : NodeId) : Request → Prop where
  | object : AsksFor id (.object id)
  | interface : AsksFor id (.interface id)
  | named : AsksFor id (.named (.node id))

/-- However a declared type is asked for, the answer is what it means. -/
theorem Request.AsksFor.meaning {id : NodeId} {q : Request} (hq : q.AsksFor id) {t : CompiledType}
    {s s' : CompileState} (hs : CompileState.Reaches r {} s)
    (h : q.ask r s = .ok (.type t) s') : Meaning.type r id = .ok t := by
  have hmeaning := (Request.ask_ok hs.settled h).2
  cases hq with
  | object =>
      obtain ⟨c, hc, heq⟩ := Meaning.map_eq_ok.mp (hmeaning _ rfl).1
      cases heq
      exact Meaning.type_of_object hc
  | interface =>
      obtain ⟨c, hc, heq⟩ := Meaning.map_eq_ok.mp (hmeaning _ rfl).1
      cases heq
      exact Meaning.type_of_interface hc
  | named =>
      obtain ⟨c, hc, heq⟩ := Meaning.map_eq_ok.mp (hmeaning _ rfl).1
      cases heq
      exact hc

/-- An argument that waits is attached when its type is declared, for good. -/
theorem Registry.Reached.attached {d : Declaration} {id a : NodeId} {x : ArgNode}
    (hr : r.Reached) (hkind : d.kind = .object ∨ d.kind = .interface)
    (hrun : d.run r = .ok id r') (ha : a ∈ r.staged d.type) (hx : (r.node a).arg? = some x)
    (ds : List Declaration) :
    Attached (ds.foldl (fun r d => d.run.after r) r') id a x := by
  have hclaims : d.kind.claims .arg = true := by
    rcases hkind with hkind | hkind
    · rw [hkind]
      rfl
    · rw [hkind]
      rfl
  have htidy' : r'.Tidy := by
    have hafter := hr.tidy.run d
    rwa [RegistryM.after, hrun] at hafter
  rcases d.run_cases r with ⟨_, hfails, -⟩ | ⟨_, hfails, -⟩ | ⟨_, hok, hd⟩
  · cases hrun.symm.trans hfails
  · cases hrun.symm.trans hfails
  · cases hrun.symm.trans hok
    rcases hd.stages_or_claims hr.wellFormed with ⟨_, -, hmember⟩ | ⟨n, hc, hn, -⟩
    · rw [NodeKind.not_claims_of_isMember hmember] at hclaims
      cases hclaims
    · exact (hr.tidy.attached hc (hn ▸ hclaims) ha hx).grows htidy' (htidy'.grows ds)

/-- An argument that waited when its type was declared is reported if the type has no field of
that name. If it has, and compiles, the compiled field takes the argument if its first and its
last declaration are one, as they are if there is one only. A field whose declarations differ
has no arguments, or those of a bundle. -/
theorem Registry.Reached.argument_taken {d : Declaration} {id a : NodeId} {x : ArgNode}
    (hr : r.Reached) (hkind : d.kind = .object ∨ d.kind = .interface)
    (hrun : d.run r = .ok id r') (ha : a ∈ r.staged d.type) (hx : (r.node a).arg? = some x)
    (ds : List Declaration) :
    let later := ds.foldl (fun r d => d.run.after r) r'
    (x.field ∉ later.names (later.ownFields id) →
      (later.node id).displayName ++ "." ++ x.field ∈ later.orphanedArgs) ∧
    ∀ {q : Request} {t : CompiledType} {s s' : CompileState}, q.AsksFor id →
      CompileState.Reaches later {} s → q.ask later s = .ok (.type t) s' →
      x.field ∈ later.names (later.ownFields id) →
      ∃ first last f, later.firstNamed? x.field (later.ownFields id) = some first ∧
        later.lastNamed? x.field (later.ownFields id) = some last ∧
        t.field? x.field = some f ∧
        ((later.names (later.ownFields id)).count x.field = 1 → f.Takes x.decl) ∧
        (first = last → f.Takes x.decl) ∧
        (first ≠ last → f.args = ∅ ∨ ∃ n b, later.node last = .field n ∧
          n.decl.args? = some b ∧ ∃ id, f.resolver.arguments = .bundle id) := by
  intro later
  have hattached : later.Attached id a x := hr.attached hkind hrun ha hx ds
  refine ⟨hattached.orphaned, fun hq hs h hname => ?_⟩
  obtain ⟨first, last, f, hfirst, hlast, hf, htakes, hlost⟩ :=
    hattached.takes (hq.meaning hs h) hname
  refine ⟨first, last, f, hfirst, hlast, hf, fun honce => htakes ?_, htakes, hlost⟩
  exact Option.some.inj (hfirst.symm.trans ((lastNamed?_eq_firstNamed? honce).symm.trans hlast))

/-! ### Listings

A query lists items, with a limit, and another argument is declared for a field that it does
not have. -/

namespace Listing

def query : HostType := ⟨"Query"⟩

def items : FieldDecl := { name := "items", type? := some .string }

def limit : InputDecl := { name := "limit", type? := some .int, default? := some (.num (.int 10)) }

def key : InputDecl := { name := "id", type? := some .id }

/-- The limit waits as node 1, the other argument as node 2. -/
def waiting : Registry := .ofDeclarations [
  .field query items,
  .arg query "items" limit,
  .arg query "item" key]

def listing : Registry := .ofDeclarations [
  .field query items,
  .arg query "items" limit,
  .arg query "item" key,
  .object query {}]

theorem listing_takes : ∃ c s f,
    (Declaration.object query {}).run waiting = .ok 3 listing ∧
      (Request.object 3).ask listing {} = .ok (.type (.object c)) s ∧
      c.fields.find? "items" = some f ∧ f.Takes limit ∧ "Query.item" ∈ listing.orphanedArgs := by
  have hrun : (Declaration.object query {}).run waiting = .ok 3 listing := rfl
  obtain ⟨_, hasked⟩ := Request.ask_of_isAnswered
    (show (Request.object 3).isAnswered listing {} = true by decide)
  obtain ⟨c, -, rfl⟩ := Compile.map_eq_ok.mp hasked
  have hreached : waiting.Reached := .ofDeclarations _
  have hlimit : (waiting.node 1).arg? = some ⟨query, "items", limit⟩ := rfl
  have hother : (waiting.node 2).arg? = some ⟨query, "item", key⟩ := rfl
  have hname : (listing.node 3).displayName ++ "." ++ "item" = "Query.item" := by decide
  have hitems := hreached.argument_taken (Or.inl rfl) hrun (by decide) hlimit []
  have hitem := hreached.argument_taken (Or.inl rfl) hrun (by decide) hother []
  simp only [List.foldl_nil] at hitems hitem
  obtain ⟨_, _, f, -, -, hf, honce, -⟩ := hitems.2 .object .refl hasked (by decide)
  exact ⟨c, _, f, hrun, hasked, hf, honce (by decide),
    hname ▸ hitem.1 (by decide)⟩

/-- The items are declared twice, and the limit waits as node 2. -/
def waitingTwice : Registry := .ofDeclarations [
  .field query items,
  .field query items,
  .arg query "items" limit]

def listingTwice : Registry := .ofDeclarations [
  .field query items,
  .field query items,
  .arg query "items" limit,
  .object query {}]

/-- The limit is gone, and nothing is reported. -/
theorem listingTwice_loses : ∃ c s f,
    (Declaration.object query {}).run waitingTwice = .ok 3 listingTwice ∧
      2 ∈ waitingTwice.staged query ∧
      (waitingTwice.node 2).arg? = some ⟨query, "items", limit⟩ ∧
      "items" ∈ listingTwice.names (listingTwice.ownFields 3) ∧
      (Request.object 3).ask listingTwice {} = .ok (.type (.object c)) s ∧
      c.fields.find? "items" = some f ∧ ¬ f.Takes limit ∧ listingTwice.orphanedArgs = [] := by
  have hrun : (Declaration.object query {}).run waitingTwice = .ok 3 listingTwice := rfl
  have hwaits : 2 ∈ waitingTwice.staged query := by decide
  have hname : "items" ∈ listingTwice.names (listingTwice.ownFields 3) := by decide
  obtain ⟨_, hasked⟩ := Request.ask_of_isAnswered
    (show (Request.object 3).isAnswered listingTwice {} = true by decide)
  obtain ⟨c, -, rfl⟩ := Compile.map_eq_ok.mp hasked
  have hreached : waitingTwice.Reached := .ofDeclarations _
  have hlimit : (waitingTwice.node 2).arg? = some ⟨query, "items", limit⟩ := rfl
  have hattached := hreached.attached (Or.inl rfl) hrun hwaits hlimit []
  rw [List.foldl_nil] at hattached
  obtain ⟨first, last, f, hfirst, hlast, hf, -, hlost⟩ :=
    hattached.takes (Request.AsksFor.object.meaning .refl hasked) hname
  obtain rfl : first = 0 := Option.some.inj (hfirst.symm.trans (by decide))
  obtain rfl : last = 1 := Option.some.inj (hlast.symm.trans (by decide))
  refine ⟨c, _, f, hrun, hwaits, hlimit, hname, hasked, hf, ?_, by decide⟩
  rcases hlost (by decide) with hempty | ⟨_, _, hn, hb, -⟩
  · exact CompiledField.not_takes hempty limit
  · cases hn
    cases hb

end Listing

end SchemaGraph
