import SchemaGraph.Proofs.Compile.Instances
import SchemaGraph.Proofs.Host.Runtime
import SchemaGraph.Proofs.Schema.Mirrors

/-!
# Inputs of an accepted schema

The shape of an input is entered into the table before it is known what it contains, and
inputs may contain each other. The table of an accepted schema has no entry left to fill:
whatever can be met from the arguments of a field, through lists and nested inputs, is there,
in the form that the schema advertises. So materializing never comes to a gap, and all that
can go wrong when a field is resolved goes wrong because of what the query or the host gives.
-/

set_option autoImplicit false

namespace SchemaGraph

open CompileState

variable {r : Registry} {A : NodeId → Prop} {s : CompileState} {table : ShapeTable}

/-! ## Arguments of fields -/

/-- The only argument in `args` is the one that the field was declared with, under this name,
and it is advertised as it is converted. -/
def CompiledField.MirrorsArgument (r : Registry) (f : CompiledField) (name : String)
    (shape : ValueShape) : Prop :=
  ∃ c decl e, f.args = .ofList [(name, c)] ∧ r.DeclaresArgument f decl e ∧ decl.name = name ∧
    c.Describes decl ∧ shape.Mirrors r c.typeRef e

/-- The arguments of a field are materialized as they are advertised. -/
def CompiledField.MirrorsArguments (r : Registry) (table : ShapeTable) (f : CompiledField) :
    Prop :=
  match f.resolver.arguments with
  | .none => f.args = ∅
  | .raw name shape => f.MirrorsArgument r name shape
  | .instance name id => f.MirrorsArgument r name (.input id)
  | .bundle id => ∃ shape, table.filled? id = some shape ∧ shape.Mirrors r id f.args

/-- A field in the shape of `i` contains the input `j`. -/
def ShapeTable.Refers (table : ShapeTable) (i j : NodeId) : Prop :=
  ∃ shape f, table.filled? i = some shape ∧ f ∈ shape.fields ∧ j ∈ f.shape.inputs

/-- What the bundle says of the fields of `j`, an input object or the arguments of `f`. -/
def SchemaBundle.AdvertisesInput (r : Registry) (b : SchemaBundle) (f : CompiledField)
    (j : NodeId) (compiled : OrderedMap String CompiledInput) : Prop :=
  (f.resolver.arguments = .bundle j ∧ compiled = f.args) ∨
    ∃ t, .inputObject t ∈ b.definitions ∧ t.name = (r.node j).displayName ∧
      compiled = t.fields

/-! ## What the compiler knows of an input -/

namespace Meaning

/-- A single argument is converted by the shape of its type. -/
theorem argMapping_cases {arg : LinkedArg} {mapping : ArgumentMapping}
    (h : argMapping r arg = .ok mapping) : ∃ shape, linkShape r arg.type = .ok shape ∧
      (mapping = .raw arg.decl.name shape ∨
        ∃ id, mapping = .instance arg.decl.name id ∧ shape = .input id) := by
  unfold argMapping at h
  cases htype : arg.type with
  | node id =>
      simp only [htype, Except.ok.injEq] at h
      refine ⟨nodeShape r id, rfl, ?_⟩
      unfold nodeShape
      split at h
      · next hinput =>
          rw [if_pos hinput]
          exact Or.inr ⟨id, h.symm, rfl⟩
      · next hinput =>
          rw [if_neg hinput]
          exact Or.inl h.symm
  | given e =>
      simp only [htype] at h
      obtain ⟨shape, hshape, rfl⟩ := map_eq_ok.mp h
      exact ⟨shape, hshape, Or.inl rfl⟩

theorem argMapping_inputs {arg : LinkedArg} {mapping : ArgumentMapping}
    (h : argMapping r arg = .ok mapping) {j : NodeId} (hj : j ∈ mapping.inputs) :
    arg.type.Mentions r (.node j) ∧ (r.node j).isInputObject = true := by
  obtain ⟨shape, hshape, hmapping⟩ := argMapping_cases h
  refine linkShape_inputs hshape ?_
  rcases hmapping with rfl | ⟨id, rfl, rfl⟩
  · exact hj
  · exact hj

end Meaning

/-- The compiler knows the input `j` in full: it has an entry for its shape, and it knows
whatever its input fields mention. -/
structure CompileState.KnowsInput (r : Registry) (s : CompileState) (j : NodeId) : Prop where
  entered : s.shapes.contains j = true
  mentions : ∀ i ∈ Meaning.bundleFields r j, ∀ m, r.InputMentions i m → s.Knows m

namespace CompileState.Settled

/-- A kept input object leads to what its input fields mention. -/
theorem knowsInput_of_keeps (hs : s.Settled r A) {j : NodeId} (hj : s.Keeps j)
    (hinput : (r.node j).isInputObject = true) (hentered : s.shapes.contains j = true) :
    s.KnowsInput r j := by
  refine ⟨hentered, fun i hi m hm => ?_⟩
  cases hn : r.node j with
  | inputObject n =>
      rw [Meaning.bundleFields, hn] at hi
      exact hs.leads hj ((Registry.leads_inputObject hn).mpr ⟨i, hi, hm⟩)
  | object _ | interface _ | field _ | args _ | arg _ | inputField _ | implement _ =>
      rw [hn] at hinput
      cases hinput

/-- An input that a known input refers to is a kept input object, and known. -/
theorem knowsInput_of_refers (hs : s.Settled r A) {i j : NodeId} (hi : s.KnowsInput r i)
    (hj : s.shapes.Refers i j) :
    s.KnowsInput r j ∧ s.Keeps j ∧ (r.node j).isInputObject = true := by
  obtain ⟨shape, f, hfilled, hf, hmem⟩ := hj
  have hcomplete : s.shapes.Complete r := hs.sound.shapes
  have hfind := ShapeTable.find?_of_filled hfilled
  obtain ⟨-, -, -, hfields⟩ := Meaning.shape_eq_ok (hcomplete.meaning hfind)
  obtain ⟨⟨k, hk, hmentions⟩, hinput⟩ := Meaning.fieldShapes_inputs hfields hf hmem
  have hkept : s.Keeps j := hs.keeps (hi.mentions k hk _ hmentions)
  exact ⟨hs.knowsInput_of_keeps hkept hinput (hcomplete.closed hfind f hf j hmem), hkept,
    hinput⟩

/-- What a kept input object is advertised as is what it is converted by. -/
theorem mirrors_of_keeps (hs : s.Settled r A) {j : NodeId} (hj : s.Keeps j)
    (hinput : (r.node j).isInputObject = true) {shape : InputObjectShape}
    (hshape : Meaning.shape r j = .ok shape) :
    ∃ t, .inputObject t ∈ s.definitions ∧ t.name = (r.node j).displayName ∧
      shape.Mirrors r j t.fields := by
  obtain ⟨d, hd, hmeaning⟩ := hs.mem_definitions hj
  cases hn : r.node j with
  | inputObject n =>
      simp only [Meaning.type, hn] at hmeaning
      obtain ⟨t, ht, rfl⟩ := Meaning.map_eq_ok.mp hmeaning
      refine ⟨t, hd, ?_, ?_⟩
      · rw [← hn]
        exact Meaning.type_name (Meaning.type_of_inputObject ht)
      · obtain ⟨n', compiled, hn', hcompiled, rfl⟩ := Meaning.inputObject_eq_ok ht
        have hids : Meaning.bundleFields r j = n'.inputFields := by
          rw [Meaning.bundleFields, hn']
          rfl
        exact Meaning.shape_mirrors hshape (hids ▸ hcompiled)
  | object _ | interface _ | field _ | args _ | arg _ | inputField _ | implement _ =>
      rw [hn] at hinput
      cases hinput

/-- The inputs that a field is materialized by: they are known, and each is either the bundle
that holds all arguments or a kept input object. -/
theorem knowsInput_of_field (hs : s.Settled r A) {id : NodeId} (hid : s.Keeps id)
    {d : CompiledType} (hd : Meaning.type r id = .ok d) {f : CompiledField}
    (hf : f ∈ d.outputFields) {j : NodeId} (hj : j ∈ f.resolver.arguments.inputs) :
    s.KnowsInput r j ∧
      ((f.resolver.arguments = .bundle j ∧
          ∃ owner, Meaning.inputs r owner (Meaning.bundleFields r j) ∅ = .ok f.args) ∨
        s.Keeps j ∧ (r.node j).isInputObject = true) := by
  have hentered : s.shapes.contains j = true := hs.materializes hid hd f hf j hj
  obtain ⟨i, owner, hfield, hleads⟩ := Meaning.field_of_mem_outputFields hd hf
  obtain ⟨linked, hlinked, hargs⟩ := Meaning.arguments_of_field hfield
  have hknows : ∀ m, r.ArgumentsMention linked m → s.Knows m := fun m hm =>
    hs.leads hid (hleads m ⟨linked, hlinked, Or.inr hm⟩)
  rcases Meaning.arguments_cases hargs with ⟨arg, c, harg, -, hmapping, -⟩ |
    ⟨bundle, -, hbundle, hinputs, hmapping⟩ | ⟨-, -, -, hmapping⟩
  · obtain ⟨hmentions, hinput⟩ := Meaning.argMapping_inputs hmapping hj
    have hkept : s.Keeps j := hs.keeps (hknows _ (Or.inl ⟨arg, harg, Or.inl hmentions⟩))
    exact ⟨hs.knowsInput_of_keeps hkept hinput hentered, Or.inr ⟨hkept, hinput⟩⟩
  · rw [hmapping] at hj
    obtain rfl := List.mem_singleton.mp hj
    refine ⟨⟨hentered, fun k hk m hm => ?_⟩, Or.inl ⟨hmapping, _, hinputs⟩⟩
    exact hknows m (Or.inr ⟨j, hbundle, Or.inr ⟨k, hk, hm⟩⟩)
  · rw [hmapping] at hj
    cases hj

/-- Whatever can be met from the arguments of a field is filled and advertised. -/
theorem advertises_of_refers (hs : s.Settled r A) {b : SchemaBundle}
    (hb : b.definitions = s.definitions) {id : NodeId} (hid : s.Keeps id) {d : CompiledType}
    (hd : Meaning.type r id = .ok d) {f : CompiledField} (hf : f ∈ d.outputFields)
    {i : NodeId} (hi : i ∈ f.resolver.arguments.inputs) {j : NodeId}
    (hj : Relation.ReflTransGen s.shapes.Refers i j) :
    ∃ shape compiled, s.shapes.filled? j = some shape ∧ shape.Mirrors r j compiled ∧
      b.AdvertisesInput r f j compiled := by
  have hcomplete : s.shapes.Complete r := hs.sound.shapes
  -- What is reached by a step is a kept input object; the start may be a bundle.
  have hreached : s.KnowsInput r j ∧
      ((f.resolver.arguments = .bundle j ∧
          ∃ owner, Meaning.inputs r owner (Meaning.bundleFields r j) ∅ = .ok f.args) ∨
        s.Keeps j ∧ (r.node j).isInputObject = true) := by
    induction hj with
    | refl => exact hs.knowsInput_of_field hid hd hf hi
    | tail _ hstep ih =>
        obtain ⟨hknows, hkept⟩ := hs.knowsInput_of_refers ih.1 hstep
        exact ⟨hknows, Or.inr hkept⟩
  obtain ⟨hknows, horigin⟩ := hreached
  obtain ⟨shape, hfilled, hshape, -⟩ := hcomplete.filled hknows.entered
  rcases horigin with ⟨hbundle, owner, hinputs⟩ | ⟨hkept, hinput⟩
  · exact ⟨shape, f.args, hfilled, Meaning.shape_mirrors hshape hinputs,
      Or.inl ⟨hbundle, rfl⟩⟩
  · obtain ⟨t, ht, hname, hmirrors⟩ := hs.mirrors_of_keeps hkept hinput hshape
    exact ⟨shape, t.fields, hfilled, hmirrors, Or.inr ⟨t, hb ▸ ht, hname, rfl⟩⟩

/-- The arguments of a field are materialized as they are advertised. -/
theorem mirrorsArguments (hs : s.Settled r A) {id : NodeId} (hid : s.Keeps id)
    {d : CompiledType} (hd : Meaning.type r id = .ok d) {f : CompiledField}
    (hf : f ∈ d.outputFields) : f.MirrorsArguments r s.shapes := by
  obtain ⟨i, owner, hfield, -⟩ := Meaning.field_of_mem_outputFields hd hf
  obtain ⟨linked, hlinked, hargs⟩ := Meaning.arguments_of_field hfield
  unfold CompiledField.MirrorsArguments
  rcases Meaning.arguments_cases hargs with ⟨arg, c, harg, hc, hmapping, hcompiled⟩ |
    ⟨bundle, -, -, hinputs, hmapping⟩ | ⟨-, -, hempty, hmapping⟩
  · obtain ⟨n, _, hn, -, -, -, hall⟩ := Meaning.linkField_eq_ok hlinked
    obtain ⟨e, n', hattached, hdecl, htype, hl⟩ := hall arg harg
    have hargument : ∀ {shape}, Meaning.linkShape r arg.type = .ok shape →
        f.MirrorsArgument r arg.decl.name shape := fun hshape =>
      ⟨_, arg.decl, e, hcompiled, ⟨i, n, n', owner, hn, hattached, hdecl, htype, hfield⟩, rfl,
        ⟨rfl, rfl, rfl⟩, Meaning.mirrors hl (Meaning.input_eq_ok.mp hc).1 hshape⟩
    obtain ⟨shape, hshape, hraw | ⟨id, hinstance, rfl⟩⟩ := Meaning.argMapping_cases hmapping
    · rw [hraw]
      exact hargument hshape
    · rw [hinstance]
      exact hargument hshape
  · rw [hmapping]
    have hentered : s.shapes.contains bundle = true := by
      refine hs.materializes hid hd f hf bundle ?_
      rw [hmapping]
      exact List.mem_singleton.mpr rfl
    have hcomplete : s.shapes.Complete r := hs.sound.shapes
    obtain ⟨shape, hfilled, hshape, -⟩ := hcomplete.filled hentered
    exact ⟨shape, hfilled, Meaning.shape_mirrors hshape hinputs⟩
  · rw [hmapping]
    exact hempty

end CompileState.Settled

/-! ## Accepted schemas -/

/-- What an accepted schema guarantees for the inputs of a field: everything that can be met
from its arguments is filled and converted as it is advertised, so that materializing fails
only where a constructor refuses, and what is raised while the field is resolved is raised
for what the query or the host gave. -/
structure SchemaBundle.KnowsInputs (r : Registry) (b : SchemaBundle) (f : CompiledField) :
    Prop where
  arguments : f.MirrorsArguments r b.shapes
  inputs : ∀ i ∈ f.resolver.arguments.inputs, ∀ j,
    Relation.ReflTransGen b.shapes.Refers i j →
      ∃ shape compiled, b.shapes.filled? j = some shape ∧ shape.Mirrors r j compiled ∧
        b.AdvertisesInput r f j compiled
  built : ∀ raw e, f.resolver.arguments.materialize b.shapes raw = .error e →
    ∃ type cause, e = .inputConstruction type cause
  runtime : ∀ e, f.resolver.Raises b.shapes e → e.isEndless = false → e.isRuntime = true
  resolved : ∀ parent raw context? e,
    f.resolver.resolve b.shapes parent raw context? = .error (.schema e) →
      e.isRuntime = true ∨ ∃ resolver call, f.resolver.explicit? = some resolver ∧
        resolver call = .error (.schema e)

theorem CompileState.Settled.knowsInputs (hs : s.Settled r A) {b : SchemaBundle}
    (hb : b.definitions = s.definitions) (hshapes : b.shapes = s.shapes) {d : CompiledType}
    (hd : d ∈ b.definitions) {f : CompiledField} (hf : f ∈ d.outputFields) :
    b.KnowsInputs r f := by
  rw [hb] at hd
  rcases hs.of_mem_definitions hd with ⟨id, hid, hmeaning⟩ | ⟨hdecl, -⟩
  · have hcomplete : s.shapes.Complete r := hs.sound.shapes
    have hbuilt : ∀ raw e, f.resolver.arguments.materialize s.shapes raw = .error e →
        ∃ type cause, e = .inputConstruction type cause := fun raw e he =>
      hcomplete.materialize_error (hs.materializes hid hmeaning f hf) he
    constructor
    case arguments =>
      rw [hshapes]
      exact hs.mirrorsArguments hid hmeaning hf
    case inputs =>
      rw [hshapes]
      exact fun i hi j hj => hs.advertises_of_refers hb hid hmeaning hf hi hj
    case built =>
      rw [hshapes]
      exact hbuilt
    case runtime =>
      rw [hshapes]
      exact fun e he hends => he.isRuntime hbuilt hends
    case resolved =>
      intro parent raw context? e he
      rw [hshapes] at he
      rcases FieldResolver.resolve_error he with hargs | hhost
      · obtain ⟨type, cause, rfl⟩ := hbuilt raw e hargs
        exact Or.inl rfl
      · exact Or.inr hhost
  · rw [(CompiledType.members_of_not_declared hdecl).1] at hf
    cases hf

/-- Whatever schema is accepted, its fields can materialize their arguments. -/
theorem SchemaBundle.knowsInputs_of_ofRegistry {roots : SchemaRoots} {config : SchemaConfig}
    {b : SchemaBundle} (h : ofRegistry r roots config = .ok b) :
    ∀ d ∈ b.definitions, ∀ f ∈ d.outputFields, b.KnowsInputs r f := by
  obtain ⟨starts, s, hassembled⟩ := ofRegistry_ok h
  exact fun d hd f hf =>
    hassembled.settled.knowsInputs hassembled.definitions hassembled.shapes hd hf

/-- The friends of a person are found by a filter that contains filters. -/
theorem People.knowsInputs_query : ∃ b,
    SchemaBundle.ofRegistry registry ⟨query, none⟩ {} = .ok b ∧
      (∃ d ∈ b.definitions, ∃ f ∈ d.outputFields, 4 ∈ f.resolver.arguments.inputs) ∧
      ∀ d ∈ b.definitions, ∀ f ∈ d.outputFields, b.KnowsInputs registry f := by
  have hfriends : (SchemaBundle.ofRegistry registry ⟨query, none⟩ {}).toOption.map
      (fun b => b.definitions.any fun d => d.outputFields.any fun f =>
        f.resolver.arguments.inputs.contains 4) = some true := by decide +kernel
  obtain ⟨b, hb, hany⟩ := exists_ok_of_map hfriends
  refine ⟨b, hb, ?_, SchemaBundle.knowsInputs_of_ofRegistry hb⟩
  simpa using hany

end SchemaGraph
