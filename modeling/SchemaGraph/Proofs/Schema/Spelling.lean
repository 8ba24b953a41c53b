import SchemaGraph.Proofs.Compile.Flattening
import SchemaGraph.Proofs.Compile.Spelling
import SchemaGraph.Proofs.Schema.Closed
import SchemaGraph.Proofs.Schema.Names

/-!
# All names in a schema are names

A name gets into a schema by one of many ways: it is given for a type or a member, taken from
a host type, made of a key by a change of case, or written where another type is referred to.
The first are checked when they are declared, those of scalars, enums and unions when they are
compiled, and a reference is spelled like what it refers to. No way leads around the checks.
-/

set_option autoImplicit false

namespace SchemaGraph

open CompileState

/-! ## The names that occur -/

namespace CompiledType

/-- Arguments or input fields under their names, and what they refer to. -/
def inputNames (m : OrderedMap String CompiledInput) : List String :=
  m.keys ++ m.values.flatMap fun a => [a.name, a.typeRef.coreName]

/-- Output fields under their names, what they refer to, and their arguments. -/
def fieldNames (m : OrderedMap String CompiledField) : List String :=
  m.keys ++ m.values.flatMap fun f => f.name :: f.typeRef.coreName :: inputNames f.args

/-- Every name that occurs in a compiled type. -/
def names : CompiledType → List String
  | .object t => t.name :: t.interfaces ++ fieldNames t.fields
  | .interface t => t.name :: t.dispatch.name :: t.dispatch.table.map (·.2) ++ fieldNames t.fields
  | .inputObject t => t.name :: inputNames t.fields
  | .union t => t.name :: t.dispatch.name :: t.dispatch.table.map (·.2) ++ t.possibleTypes
  | .enum d => d.name :: d.values.map (·.name)
  | .scalar d => [d.name]

end CompiledType

/-- Everything stands in the map under its own name. -/
def OrderedMap.Keyed {α : Type} (name : α → String) (m : OrderedMap String α) : Prop :=
  ∀ k a, m.find? k = some a → name a = k

namespace OrderedMap

variable {α : Type} {name : α → String} {m : OrderedMap String α}

theorem keyed_empty : (∅ : OrderedMap String α).Keyed name := fun _ _ h => by cases h

theorem Keyed.insert (h : m.Keyed name) (a : α) : (m.insert (name a) a).Keyed name := fun _ _ =>
  forall_find?_insert (P := fun k a => name a = k) (h _ _) rfl

theorem Keyed.mem_keys (h : m.Keyed name) {k : String} (hk : k ∈ m.keys) :
    ∃ a ∈ m.values, name a = k := by
  obtain ⟨a, ha⟩ := contains_iff.mp (mem_keys_iff.mp hk)
  exact ⟨a, mem_values.mpr ⟨k, mem_of_find? ha⟩, h k a ha⟩

end OrderedMap

namespace Meaning

variable {r : Registry}

theorem inputs_keyed {owner : String} {ids : List NodeId} :
    ∀ {before after : OrderedMap String CompiledInput}, inputs r owner ids before = .ok after →
      before.Keyed (·.name) → after.Keyed (·.name) := by
  induction ids with
  | nil =>
      rintro before _ ⟨⟩ hbefore
      exact hbefore
  | cons i rest ih =>
      intro before after h hbefore
      obtain ⟨linked, -, h⟩ := bind_eq_ok.mp h
      obtain ⟨c, -, h⟩ := bind_eq_ok.mp h
      exact ih h (hbefore.insert ⟨linked.decl.name, _, _, _⟩)

theorem arguments_keyed {owner : String} {linked : LinkedField}
    {args : OrderedMap String CompiledInput} {mapping : ArgumentMapping}
    (h : arguments r owner linked = .ok (args, mapping)) : args.Keyed (·.name) := by
  have hempty : (∅ : OrderedMap String CompiledInput).Keyed (·.name) := OrderedMap.keyed_empty
  rcases arguments_cases h with ⟨arg, c, -, -, -, rfl⟩ | ⟨id, -, -, hinputs, -⟩ | ⟨-, -, rfl, -⟩
  · exact hempty.insert ⟨arg.decl.name, _, _, _⟩
  · exact inputs_keyed hinputs hempty
  · exact hempty

theorem fields_keyed {owner : String} {ids : List NodeId} :
    ∀ {before after : OrderedMap String CompiledField}, fields r owner ids before = .ok after →
      before.Keyed (·.name) → after.Keyed (·.name) := by
  induction ids with
  | nil =>
      rintro before _ ⟨⟩ hbefore
      exact hbefore
  | cons i rest ih =>
      intro before after h hbefore
      obtain ⟨f, -, h⟩ := bind_eq_ok.mp h
      exact ih h (hbefore.insert f)

theorem isSchemaType_of_type {id : NodeId} {t : CompiledType} (h : type r id = .ok t) :
    (r.node id).isSchemaType = true := by
  rcases type_cases h with ⟨c, hc, -⟩ | ⟨c, hc, -⟩ | ⟨c, hc, -⟩
  · obtain ⟨n, _, _, hn, -⟩ := object_eq_ok hc
    rw [hn]
    rfl
  · obtain ⟨n, _, _, hn, -⟩ := interface_eq_ok hc
    rw [hn]
    rfl
  · obtain ⟨n, _, hn, -⟩ := inputObject_eq_ok hc
    rw [hn]
    rfl

end Meaning

/-! ## Members -/

section

variable {r : Registry}

theorem Registry.Reached.isName_output (hr : r.Reached) {f : CompiledField} {e : TypeExpr}
    (h : r.DeclaresOutput f e) : Text.IsName f.name := by
  obtain ⟨i, n, owner, hn, -, hfield⟩ := h
  obtain ⟨n', hn', hname, -⟩ := (Meaning.isOf_of_field hfield).texts
  rw [hname]
  exact hr.isName_field hn'

theorem Registry.Reached.isName_input (hr : r.Reached) {a : CompiledInput} {e : TypeExpr}
    (h : r.DeclaresInput a e) : Text.IsName a.name := by
  rcases h with ⟨i, n, hn, -, hname, -⟩ | ⟨i, n, arg, hn, hattached, -, hname, -⟩
  · rw [hname]
    exact hr.isName_inputField hn
  · rw [hname]
    exact hr.isName_attachedArg hn hattached

theorem Text.isName_of_mem_builtinScalars {name : String} (h : name ∈ builtinScalars) :
    IsName name := by
  have hall : ∀ name ∈ builtinScalars, isName name = true := by decide
  exact isName_iff.mp (hall name h)

end

/-! ## Definitions -/

section

variable {r : Registry} {roots : SchemaRoots} {starts : List NodeId} {b : SchemaBundle}
  {s : CompileState}

/-- The name of a definition was checked when it was declared, or when it was kept. -/
theorem CompileState.Settled.isName_name {A : NodeId → Prop} (hs : s.Settled r A)
    (hr : r.Reached) (hspelled : s.Spelled) {t : CompiledType} (ht : t ∈ s.definitions) :
    Text.IsName t.name := by
  rcases hs.of_mem_definitions ht with ⟨id, -, hmeaning⟩ | ⟨hdecl, name, hname⟩
  · rw [Meaning.type_name hmeaning]
    exact hr.isName_displayName (Meaning.isSchemaType_of_type hmeaning)
  · have hchecked := hspelled name t hname
    cases t with
    | scalar d => exact hchecked
    | enum d => exact hchecked.1
    | union u => exact hchecked
    | object _ | interface _ | inputObject _ => cases hdecl

/-- What stands for something in a bundle is spelled like it. -/
theorem SchemaBundle.Defines.isName {name : String} (h : b.Defines name)
    (hb : ∀ t ∈ b.definitions, Text.IsName t.name) : Text.IsName name := by
  rcases h with hbuiltin | ⟨t, ht, rfl⟩
  · exact Text.isName_of_mem_builtinScalars hbuiltin
  · exact hb t ht

/-- The table of an interface names its implementers. -/
theorem CompileState.Settled.isName_table {A : NodeId → Prop} (hs : s.Settled r A)
    (hr : r.Reached) {t : CompiledInterface} (ht : .interface t ∈ s.definitions) :
    Text.IsName t.dispatch.name ∧ ∀ e ∈ t.dispatch.table, Text.IsName e.2 := by
  rcases hs.of_mem_definitions ht with ⟨id, hid, hmeaning⟩ | ⟨hdecl, -⟩
  · obtain ⟨n, _, implementers, hn, -, himpl, rfl⟩ :=
      Meaning.interface_eq_ok (Meaning.interface_of_type hmeaning)
    have hname := hr.isName_displayName (Meaning.isSchemaType_of_type hmeaning)
    rw [hn] at hname
    refine ⟨hname, fun e he => ?_⟩
    obtain ⟨o, ho, rfl⟩ := List.mem_map.mp he
    have hkept : s.Keeps o :=
      hs.keeps (hs.leads hid ((Registry.leads_interface hn himpl).mpr (Or.inr ⟨o, ho, rfl⟩)))
    obtain ⟨_, -, hmeaning'⟩ := hs.mem_definitions hkept
    exact hr.isName_displayName (Meaning.isSchemaType_of_type hmeaning')
  · cases hdecl

/-- The table of a union names its members. -/
theorem CompileState.Settled.isName_unionTable {A : NodeId → Prop} (hs : s.Settled r A)
    (hr : r.Reached) {u : CompiledUnion} (hu : .union u ∈ s.definitions) :
    u.dispatch.name = u.name ∧ ∀ e ∈ u.dispatch.table, Text.IsName e.2 := by
  obtain ⟨d, hmeaning, -⟩ := hs.of_union_mem hu
  obtain ⟨⟨ms, ds⟩, hmembers, rfl⟩ := Meaning.map_eq_ok.mp hmeaning
  obtain ⟨hall, hms, hds⟩ := Meaning.unionMembers_eq_ok hmembers
  have hmember : ∀ {t id}, t ∈ d.members → r.getNode t = .ok id →
      Text.IsName (r.node id).displayName := by
    intro t id ht hid
    obtain ⟨id', _, hid', hobject, -⟩ := hall t ht
    obtain rfl : id = id' := Except.ok.inj (hid.symm.trans hid')
    exact hr.isName_displayName (Node.isSchemaType_of_isObject hobject)
  refine ⟨rfl, fun e he => ?_⟩
  rcases List.mem_append.mp he with he | he
  · obtain ⟨t, ht, id, hid, rfl⟩ := (hms e).mp he
    exact hmember ht hid
  · obtain ⟨t, ht, id, _, hid, -, o, -, rfl⟩ := (hds e).mp he
    exact hmember ht hid

theorem SchemaBundle.Closed.isName_inputNames (hclosed : b.Closed r) (hr : r.Reached)
    (hb : ∀ t ∈ b.definitions, Text.IsName t.name) {t : CompiledType} (ht : t ∈ b.definitions)
    {m : OrderedMap String CompiledInput} (hm : m.Keyed (·.name))
    (hmem : ∀ a ∈ m.values, a ∈ t.inputFields) :
    ∀ name ∈ CompiledType.inputNames m, Text.IsName name := by
  have hinput : ∀ a ∈ m.values, Text.IsName a.name ∧ Text.IsName a.typeRef.coreName := by
    intro a ha
    obtain ⟨hdefines, e, _, hdeclares, -⟩ := hclosed.inputs t ht a (hmem a ha)
    exact ⟨hr.isName_input hdeclares, hdefines.isName hb⟩
  intro name hname
  rcases List.mem_append.mp hname with hkey | hname
  · obtain ⟨a, ha, rfl⟩ := hm.mem_keys hkey
    exact (hinput a ha).1
  · obtain ⟨a, ha, hname⟩ := List.mem_flatMap.mp hname
    simp only [List.mem_cons, List.not_mem_nil, or_false] at hname
    rcases hname with rfl | rfl
    · exact (hinput a ha).1
    · exact (hinput a ha).2

theorem SchemaBundle.Closed.isName_fieldNames (hclosed : b.Closed r) (hr : r.Reached)
    (hb : ∀ t ∈ b.definitions, Text.IsName t.name) {t : CompiledType} (ht : t ∈ b.definitions)
    {m : OrderedMap String CompiledField} (hm : m.Keyed (·.name))
    (hmem : ∀ f ∈ m.values, f ∈ t.outputFields)
    (hargs : ∀ f ∈ m.values, ∀ a ∈ f.args.values, a ∈ t.inputFields) :
    ∀ name ∈ CompiledType.fieldNames m, Text.IsName name := by
  have houtput : ∀ f ∈ m.values, Text.IsName f.name ∧ Text.IsName f.typeRef.coreName ∧
      f.args.Keyed (·.name) := by
    intro f hf
    obtain ⟨hdefines, e, _, hdeclares, -⟩ := hclosed.outputs t ht f (hmem f hf)
    have hself := hr.isName_output hdeclares
    obtain ⟨i, n, owner, -, -, hfield⟩ := hdeclares
    obtain ⟨linked, -, harguments⟩ := Meaning.arguments_of_field hfield
    exact ⟨hself, hdefines.isName hb, Meaning.arguments_keyed harguments⟩
  intro name hname
  rcases List.mem_append.mp hname with hkey | hname
  · obtain ⟨f, hf, rfl⟩ := hm.mem_keys hkey
    exact (houtput f hf).1
  · obtain ⟨f, hf, hname⟩ := List.mem_flatMap.mp hname
    obtain ⟨hself, href, hkeyed⟩ := houtput f hf
    rcases List.mem_cons.mp hname with rfl | hname
    · exact hself
    rcases List.mem_cons.mp hname with rfl | hname
    · exact href
    · exact hclosed.isName_inputNames hr hb ht hkeyed (hargs f hf) name hname

/-- Members of a definition stand under their own names. -/
theorem CompileState.Settled.keyed {A : NodeId → Prop} (hs : s.Settled r A) {t : CompiledType}
    (ht : t ∈ s.definitions) :
    (∀ c, t = .object c → c.fields.Keyed (·.name)) ∧
      (∀ c, t = .interface c → c.fields.Keyed (·.name)) ∧
      ∀ c, t = .inputObject c → c.fields.Keyed (·.name) := by
  rcases hs.of_mem_definitions ht with ⟨id, -, hmeaning⟩ | ⟨hdecl, -⟩
  · rcases Meaning.type_cases hmeaning with ⟨c, hc, rfl⟩ | ⟨c, hc, rfl⟩ | ⟨c, hc, rfl⟩
    · obtain ⟨n, chain, compiled, -, -, hfields, rfl⟩ := Meaning.object_eq_ok hc
      refine ⟨?_, by simp, by simp⟩
      rintro _ ⟨⟩
      exact Meaning.fields_keyed hfields OrderedMap.keyed_empty
    · obtain ⟨n, compiled, _, -, hfields, -, rfl⟩ := Meaning.interface_eq_ok hc
      refine ⟨by simp, ?_, by simp⟩
      rintro _ ⟨⟩
      exact Meaning.fields_keyed hfields OrderedMap.keyed_empty
    · obtain ⟨n, compiled, -, hinputs, rfl⟩ := Meaning.inputObject_eq_ok hc
      refine ⟨by simp, by simp, ?_⟩
      rintro _ ⟨⟩
      exact Meaning.inputs_keyed hinputs OrderedMap.keyed_empty
  · cases t with
    | object _ | interface _ | inputObject _ => cases hdecl
    | union _ | enum _ | scalar _ => exact ⟨by simp, by simp, by simp⟩

/-- The values of an enum were checked when it was kept. -/
theorem CompileState.Settled.isName_value {A : NodeId → Prop} (hs : s.Settled r A)
    (hspelled : s.Spelled) {d : EnumDef} (hd : .enum d ∈ s.definitions) {v : EnumValue}
    (hv : v ∈ d.values) : Text.IsName v.name := by
  rcases hs.of_mem_definitions hd with ⟨id, -, hmeaning⟩ | ⟨-, name, hname⟩
  · cases Meaning.type_isDeclared hmeaning
  · exact (hspelled name _ hname).2 v hv

theorem SchemaBundle.Assembled.isName (h : b.Assembled r roots starts s) (hr : r.Reached)
    (hspelled : s.Spelled) {t : CompiledType} (ht : t ∈ b.definitions) :
    ∀ name ∈ t.names, Text.IsName name := by
  have hs := h.settled
  have hclosed := h.closed
  have hkept : t ∈ s.definitions := h.definitions ▸ ht
  have hb : ∀ t ∈ b.definitions, Text.IsName t.name := fun t ht =>
    hs.isName_name hr hspelled (h.definitions ▸ ht)
  have hname : Text.IsName t.name := hb t ht
  obtain ⟨hobject, hinterface, hinput⟩ := hs.keyed hkept
  cases t with
  | object c =>
      have hinterfaces : ∀ name ∈ c.interfaces, Text.IsName name := fun name hname =>
        (hclosed.interfaces c ht name hname).isName hb
      have hfields := hclosed.isName_fieldNames hr hb ht (hobject c rfl) (fun f hf => hf)
        fun f hf a ha => List.mem_flatMap.mpr ⟨f, hf, ha⟩
      exact List.forall_mem_append.mpr
        ⟨List.forall_mem_cons.mpr ⟨hname, hinterfaces⟩, hfields⟩
  | interface c =>
      obtain ⟨hdispatch, htable⟩ := hs.isName_table hr hkept
      have hfields := hclosed.isName_fieldNames hr hb ht (hinterface c rfl) (fun f hf => hf)
        fun f hf a ha => List.mem_flatMap.mpr ⟨f, hf, ha⟩
      exact List.forall_mem_append.mpr ⟨List.forall_mem_cons.mpr ⟨hname,
        List.forall_mem_cons.mpr ⟨hdispatch, List.forall_mem_map.mpr htable⟩⟩, hfields⟩
  | inputObject c =>
      exact List.forall_mem_cons.mpr
        ⟨hname, hclosed.isName_inputNames hr hb ht (hinput c rfl) fun a ha => ha⟩
  | union u =>
      obtain ⟨hdispatch, htable⟩ := hs.isName_unionTable hr hkept
      have hpossible : ∀ name ∈ u.possibleTypes, Text.IsName name := fun name hname =>
        (hclosed.possibleTypes u ht name hname).isName hb
      exact List.forall_mem_append.mpr ⟨List.forall_mem_cons.mpr ⟨hname,
        List.forall_mem_cons.mpr ⟨hdispatch ▸ hname, List.forall_mem_map.mpr htable⟩⟩, hpossible⟩
  | enum d =>
      exact List.forall_mem_cons.mpr
        ⟨hname, List.forall_mem_map.mpr fun v hv => hs.isName_value hspelled hkept hv⟩
  | scalar d => exact List.forall_mem_singleton.mpr hname

/-- Every name that occurs in an assembled schema is a name of the schema language. -/
theorem SchemaBundle.names_valid {roots : SchemaRoots} {config : SchemaConfig}
    {b : SchemaBundle} (hr : r.Reached) (h : ofRegistry r roots config = .ok b) :
    ∀ t ∈ b.definitions, ∀ name ∈ t.names, Text.IsName name := by
  obtain ⟨s, hrun⟩ := ofRegistry_eq_ok h
  obtain ⟨starts, hassembled⟩ := assembled_of_assemble hrun
  obtain ⟨_, _, -, hanswered, -⟩ := answered_of_assemble hrun
  exact fun t ht => hassembled.isName hr hanswered.reaches.spelled ht

end

/-! ### A lending library

A name of each kind: given, taken from the host type, and made of a key. -/

namespace Lending

def item : HostType := ⟨"Item"⟩

def book : HostType := ⟨"lending::Book"⟩

def filter : HostType := ⟨"Filter"⟩

def query : HostType := ⟨"Query"⟩

def status : EnumDef := .build "Status" none (some .constant)
  [("onLoan", .num (.int 1)), ("inStock", .num (.int 2))] []

def registry : Registry := .ofDeclarations [
  .field item { name := "status", type? := some (.enum status) },
  .interface item { name? := some "LibraryItem" },
  .inputField filter { name := "status", type? := some (.nullable (.enum status)) },
  .inputObject ⟨filter, fun j => .ok ⟨filter, j, []⟩⟩ {},
  .implement book item,
  .field book { name := "title", type? := some .string },
  .object book {},
  .field query
    { name := "found", type? := some (.list (.union ⟨"Found", none, [book]⟩))
      arg? := some (.ref filter) },
  .arg query "found" { name := "filter" },
  .object query {}]

theorem names_valid_query : ∃ b,
    SchemaBundle.ofRegistry registry ⟨query, none⟩ {} = .ok b ∧
      ∀ t ∈ b.definitions, ∀ name ∈ t.names, Text.IsName name := by
  obtain ⟨b, hb⟩ := exists_ok_of_isOk
    (show (SchemaBundle.ofRegistry registry ⟨query, none⟩ {}).isOk = true by decide +kernel)
  exact ⟨b, hb, SchemaBundle.names_valid (.ofDeclarations _) hb⟩

end Lending

end SchemaGraph
