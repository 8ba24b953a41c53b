import SchemaGraph.Proofs.Compile.Requests

/-!
# Single arguments as instances

A single argument of an input object type is built into a host value, which the resolver
asks for by its type. Whether it is built is decided when the field is compiled, by the
outermost form of the declared type; how it is converted is decided by the shape, which looks
through nullables. The two part where an input object is nullable: the argument is converted
as one, defaults and all, and then passed by value, so a resolver that asks for the host
value is refused.
-/

set_option autoImplicit false

namespace SchemaGraph

open CompileState

variable {r : Registry} {s s' t u : CompileState}

/-! ## Types under nullables -/

/-- The type under all the nullables around it. -/
def TypeExpr.bare : TypeExpr → TypeExpr
  | .nullable inner => bare inner
  | t => t

theorem TypeExpr.bare_of_not_isNullable {e : TypeExpr} (h : e.isNullable = false) :
    e.bare = e := by
  cases e with
  | nullable inner => cases h
  | ref _ | scalar _ | enum _ | union _ | list _ => rfl

theorem Registry.link_of_isNullable {e : TypeExpr} (h : e.isNullable = true) :
    r.link e = .ok (.given e) := by
  cases e with
  | nullable inner => rfl
  | ref _ | scalar _ | enum _ | union _ | list _ => cases h

theorem Meaning.exprShape_bare (e : TypeExpr) : exprShape r e.bare = exprShape r e := by
  induction e with
  | nullable inner ih => exact ih
  | ref _ | scalar _ | enum _ | union _ | list _ => rfl

theorem Meaning.exprShape_inputObject {e : TypeExpr} {T : HostType} {id : NodeId}
    {n : InputObjectNode} (hbare : e.bare = .ref T) (hid : r.getNode T = .ok id)
    (hn : r.node id = .inputObject n) : exprShape r e = .ok (.input id) := by
  rw [← exprShape_bare, hbare, exprShape, hid]
  simp only [Except.map, nodeShape, hn]
  rfl

/-! ## Fields with a single argument -/

/-- The field was compiled from a declaration with a single argument, declared as `decl` and
of this type. -/
def Registry.DeclaresArgument (r : Registry) (f : CompiledField) (decl : InputDecl)
    (e : TypeExpr) : Prop :=
  ∃ i n arg owner, r.node i = .field n ∧ r.attachedArg? n = some arg ∧ arg.decl = decl ∧
    argType? n (some arg) = some e ∧ Meaning.field r owner i = .ok f

/-- The single argument of a linked field is the one attached to its node. -/
theorem Meaning.linkField_arg {i : NodeId} {n : FieldNode} {linked : LinkedField}
    (hn : r.node i = .field n) (h : r.linkField i = .ok linked) :
    r.linkArg (r.ownerName n.type) n.decl.name (Registry.argType? n (r.attachedArg? n))
      (r.attachedArg? n) = .ok linked.arg? := by
  simp only [Registry.linkField, hn] at h
  cases htype : n.decl.type? with
  | none =>
      simp only [htype] at h
      obtain ⟨_, herror, -⟩ := bind_eq_ok.mp h
      cases herror
  | some e =>
      simp only [htype] at h
      obtain ⟨l, -, h⟩ := bind_eq_ok.mp h
      split at h
      · obtain ⟨_, herror, -⟩ := bind_eq_ok.mp h
        cases herror
      · obtain ⟨args?, -, h⟩ := bind_eq_ok.mp h
        obtain ⟨arg?, harg, h⟩ := bind_eq_ok.mp h
        cases h
        exact harg

/-- How a field materializes a single argument depends on the declaration of the argument
alone. -/
theorem Registry.DeclaresArgument.argMapping {f : CompiledField} {decl : InputDecl}
    {e : TypeExpr} (h : r.DeclaresArgument f decl e) :
    ∃ l, r.link e = .ok l ∧ Meaning.argMapping r ⟨decl, l⟩ = .ok f.resolver.arguments := by
  obtain ⟨i, n, arg, owner, hn, hattached, rfl, htype, h⟩ := h
  obtain ⟨linked, hlinked, hargs⟩ := Meaning.arguments_of_field h
  have harg := Meaning.linkField_arg hn hlinked
  rw [hattached, htype] at harg
  obtain ⟨l, hl, harg⟩ := Meaning.map_eq_ok.mp harg
  refine ⟨l, hl, ?_⟩
  rcases Meaning.arguments_cases hargs with ⟨arg', _, harg', -, hmapping, -⟩ | ⟨_, hnone, -⟩ |
    ⟨hnone, -⟩
  · rw [← harg, Option.some.injEq] at harg'
    rw [harg']
    exact hmapping
  · rw [hnone] at harg
    cases harg
  · rw [hnone] at harg
    cases harg

/-- An argument of an input object type is built; one that is nullable as well is passed by
value, converted by the same shape. -/
theorem Registry.DeclaresArgument.mapping_eq {f : CompiledField} {decl : InputDecl}
    {e : TypeExpr} (h : r.DeclaresArgument f decl e) {T : HostType} {id : NodeId}
    {n : InputObjectNode} (hbare : e.bare = .ref T) (hid : r.getNode T = .ok id)
    (hn : r.node id = .inputObject n) :
    f.resolver.arguments =
      if e.isNullable then .raw decl.name (.input id) else .instance decl.name id := by
  obtain ⟨l, hl, hmapping⟩ := h.argMapping
  cases he : e.isNullable with
  | true =>
      rw [Registry.link_of_isNullable he, Except.ok.injEq] at hl
      subst hl
      simp only [Meaning.argMapping, Meaning.exprShape_inputObject hbare hid hn] at hmapping
      exact (Except.ok.inj hmapping).symm
  | false =>
      rw [TypeExpr.bare_of_not_isNullable he] at hbare
      rw [hbare, Registry.link, hid] at hl
      cases hl
      have hinput : (r.node id).isInputObject = true := by rw [hn]; rfl
      simp only [Meaning.argMapping, if_pos hinput] at hmapping
      exact (Except.ok.inj hmapping).symm

/-! ## What a resolver is handed -/

/-- For these raw arguments the resolver of the field is handed the value `v`, and gets it
when it asks for a `T`. -/
structure FieldResolver.HandsOver (f : FieldResolver) (table : ShapeTable) (raw : Value)
    (T : HostType) (v : HostValue) : Prop where
  built : f.arguments.materialize table raw = .ok (.instance v)
  asked : ∀ call : FieldCall, call.args = .instance v → call.argsAs T = .ok v

/-- For these raw arguments the resolver of the field is handed the plain value `v`, and
nothing when it asks for a `T`. -/
structure FieldResolver.PassesByValue (f : FieldResolver) (table : ShapeTable) (raw : Value)
    (T : HostType) (v : Value) : Prop where
  passed : f.arguments.materialize table raw = .ok (.raw v)
  refused : ∀ call : FieldCall, call.args = .raw v →
    call.argsAs T = .error (.unexpectedArguments call.field T.shortName)

theorem argumentOf_of_get? {raw v : Value} {name : String} (h : raw.get? name = some v) :
    argumentOf raw name = v := by
  rw [argumentOf, h]
  rfl

/-- A value of the asked type is handed over where the argument is built. -/
theorem FieldResolver.handsOver_of_instance {f : FieldResolver} {table : ShapeTable}
    {name : String} {id : NodeId} {shape : InputObjectShape} {raw : Value}
    {entries : List (String × Value)} {v : HostValue}
    (hmapping : f.arguments = .instance name id) (hfilled : table.filled? id = some shape)
    (hraw : raw.get? name = some (.obj entries))
    (hv : shape.constructor.construct ((Value.obj entries).toJsonAs table (.input id)) = .ok v) :
    f.HandsOver table raw v.type v := by
  refine ⟨?_, ?_⟩
  · rw [hmapping, ArgumentMapping.materialize, argumentOf_of_get? hraw]
    simp only [hfilled, InputObjectShape.build, hv]
    rfl
  · intro call hcall
    rw [FieldCall.argsAs, hcall]
    exact if_pos rfl

theorem FieldResolver.passesByValue_of_raw {f : FieldResolver} {table : ShapeTable}
    {name : String} {shape : ValueShape} {raw v : Value} (T : HostType)
    (hmapping : f.arguments = .raw name shape) (hraw : raw.get? name = some v) :
    f.PassesByValue table raw T (.ofJson (v.toJsonAs table shape)) := by
  refine ⟨?_, ?_⟩
  · rw [hmapping, ArgumentMapping.materialize, argumentOf_of_get? hraw]
  · intro call hcall
    rw [FieldCall.argsAs, hcall]

theorem FieldResolver.PassesByValue.not_handsOver {f : FieldResolver} {table : ShapeTable}
    {raw v : Value} {T : HostType} {w : HostValue} (h : f.PassesByValue table raw T v) :
    ¬ f.HandsOver table raw T w := by
  intro hw
  cases h.passed.symm.trans hw.built

/-! ## Requests -/

/-- What is found under the name of a reference has members only if it was declared. -/
theorem Compile.outputFields_of_keptDefinition_given (hs : s.Settled r fun _ => True)
    {e : TypeExpr} {name : String} {c : CompiledType}
    (h : Compile.keptDefinition r (.given e) name s = some c) : c.outputFields = [] := by
  have hgiven : ∀ {c}, s.given.find? name = some c → c.outputFields = [] := fun hc =>
    (CompiledType.members_of_not_declared (hs.sound.given hc).2).1
  cases e with
  | scalar d =>
      simp only [Compile.keptDefinition] at h
      split at h
      · cases h
        rfl
      · exact hgiven h
  | ref _ | enum _ | union _ | list _ | nullable _ => exact hgiven h

/-- The shapes of the arguments of whatever is answered are known. -/
theorem Request.materializes_of_ask {q : Request} {a : Answer} (hs : s.Settled r fun _ => True)
    (h : q.ask r s = .ok a t) : a.Materializes t := by
  by_cases hq : ∃ e, q = .named (.given e)
  · obtain ⟨e, rfl⟩ := hq
    obtain ⟨c, hrun, rfl⟩ := Compile.map_eq_ok.mp h
    obtain ⟨hadv, ⟨name, hkept⟩, -⟩ :=
      Compile.namedType_ok (closed_true r) (fun _ _ => trivial) hs hrun
    exact Answer.materializes_of_no_fields
      (Compile.outputFields_of_keptDefinition_given (hs.advance hadv) hkept)
  · obtain ⟨x, hx⟩ := exists_meaning r fun e he => hq ⟨e, he⟩
    exact ((ask_ok hs h).2 x hx).2

/-- The table of a compiler knows an input object as it was declared. -/
theorem ShapeTable.Complete.filled_inputObject {table : ShapeTable} (h : table.Complete r)
    {id : NodeId} {n : InputObjectNode} (hn : r.node id = .inputObject n)
    (hid : table.contains id = true) :
    ∃ shape, table.filled? id = some shape ∧ shape.constructor = n.constructor := by
  obtain ⟨shape, hfilled, hmeaning, -⟩ := h.filled hid
  obtain ⟨-, hconstructor, -⟩ := Meaning.shape_eq_ok hmeaning
  rw [hn] at hconstructor
  exact ⟨shape, hfilled, (Option.some.inj hconstructor).symm⟩

/-- A field takes a single argument, an input object `T` under any number of nullables, and
the raw arguments give an object for it that the constructor of `T` accepts once it is
converted. The resolver is handed what the constructor made of it exactly when there is no
nullable; otherwise it is passed the converted object as a plain value, and asking for a `T`
fails. -/
theorem Request.handsOver_iff {q : Request} {a : Answer} (hs : Reaches r {} s)
    (h : q.ask r s = .ok a t) (hu : Reaches r t u) {f : CompiledField}
    (hf : f ∈ a.outputFields) {decl : InputDecl} {e : TypeExpr}
    (hdecl : r.DeclaresArgument f decl e) {T : HostType} {id : NodeId} {n : InputObjectNode}
    (hbare : e.bare = .ref T) (hid : r.getNode T = .ok id) (hn : r.node id = .inputObject n)
    {raw : Value} {entries : List (String × Value)} {v : HostValue}
    (hraw : raw.get? decl.name = some (.obj entries))
    (hv : n.constructor.construct ((Value.obj entries).toJsonAs u.shapes (.input id)) = .ok v)
    (htype : v.type = T) :
    (f.resolver.HandsOver u.shapes raw T v ↔ e.isNullable = false) ∧
      (e.isNullable = true → f.resolver.PassesByValue u.shapes raw T
        (.ofJson ((Value.obj entries).toJsonAs u.shapes (.input id)))) := by
  have hadv := (ask_ok hs.settled h).1
  have hlater := hu.advance (hs.settled.advance hadv)
  have hmapping := hdecl.mapping_eq hbare hid hn
  cases he : e.isNullable with
  | true =>
      rw [he, if_pos rfl] at hmapping
      have hpassed : f.resolver.PassesByValue u.shapes raw T
          (.ofJson ((Value.obj entries).toJsonAs u.shapes (.input id))) :=
        FieldResolver.passesByValue_of_raw T hmapping hraw
      refine ⟨⟨fun hover => absurd hover hpassed.not_handsOver, fun h => ?_⟩, fun _ => hpassed⟩
      cases h
  | false =>
      rw [he, if_neg (by simp)] at hmapping
      have hknown : u.shapes.contains id = true := by
        refine hlater.grows.shapes (materializes_of_ask hs.settled h f hf id ?_)
        rw [hmapping]
        exact List.mem_singleton.mpr rfl
      obtain ⟨shape, hfilled, hconstructor⟩ :=
        ShapeTable.Complete.filled_inputObject hlater.sound.shapes hn hknown
      have hover : f.resolver.HandsOver u.shapes raw T v := by
        rw [← htype]
        exact FieldResolver.handsOver_of_instance hmapping hfilled hraw (hconstructor ▸ hv)
      refine ⟨⟨fun _ => rfl, fun _ => hover⟩, fun h => ?_⟩
      cases h

/-- A request for one field is answered with that field. -/
theorem Request.ask_fieldMap {owner : String} {i : NodeId}
    (h : (Request.fieldMap owner [i]).isAnswered r {} = true) :
    ∃ f t, (Request.fieldMap owner [i]).ask r {} = .ok (.fields (.ofList [(f.name, f)])) t ∧
      Meaning.field r owner i = .ok f := by
  obtain ⟨a, hask⟩ := ask_of_isAnswered h
  obtain ⟨ha, -⟩ := (ask_ok (CompileState.Settled.start r _) hask).2 _ rfl
  obtain ⟨m, hm, rfl⟩ := Meaning.map_eq_ok.mp ha
  obtain ⟨f, hf, hm⟩ := Meaning.bind_eq_ok.mp hm
  cases hm
  exact ⟨f, _, hask, hf⟩

/-! ### A filter that may be left out

Two fields take the same filter, one of them under a nullable. -/

namespace Search

def filter : HostType := ⟨"Filter"⟩

def query : HostType := ⟨"Query"⟩

/-- The filter is node 1, the fields are nodes 2 and 4. -/
def registry : Registry := .ofDeclarations [
  .inputField filter { name := "text", type? := some .string },
  .inputObject ⟨filter, fun j => .ok ⟨filter, j, []⟩⟩ {},
  .field query { name := "found", type? := some .string, arg? := some (.ref filter) },
  .arg query "found" { name := "filter" },
  .field query
    { name := "offered", type? := some .string, arg? := some (.nullable (.ref filter)) },
  .arg query "offered" { name := "filter" },
  .object query {}]

/-- An object given for the filter. -/
def entries : List (String × Value) := [("text", .str "lean")]

/-- What the constructor of the filter makes of it. -/
def built (table : ShapeTable) : HostValue :=
  ⟨filter, (Value.obj entries).toJsonAs table (.input 1), []⟩

/-- Raw arguments that give the filter. -/
def raw : Value := .obj [("filter", .obj entries)]

theorem getNode_filter : registry.getNode filter = .ok 1 := rfl

theorem fields_answered : ∀ i ∈ [2, 4],
    (Request.fieldMap "Query" [i]).isAnswered registry {} = true := by decide

theorem found_handsOver : ∃ f t,
    (Request.fieldMap "Query" [2]).ask registry {} = .ok (.fields (.ofList [(f.name, f)])) t ∧
      f.resolver.HandsOver t.shapes raw filter (built t.shapes) := by
  obtain ⟨f, t, hask, hf⟩ := Request.ask_fieldMap (fields_answered 2 (by decide))
  have hdecl : registry.DeclaresArgument f { name := "filter" } (.ref filter) :=
    ⟨2, _, _, "Query", rfl, rfl, rfl, rfl, hf⟩
  have hraw : raw.get? "filter" = some (.obj entries) := rfl
  have hiff := (Request.handsOver_iff .refl hask .refl List.mem_cons_self hdecl rfl
    getNode_filter rfl hraw (v := built t.shapes) rfl rfl).1
  exact ⟨f, t, hask, hiff.mpr rfl⟩

theorem offered_not_handsOver : ∃ f t n,
    (Request.fieldMap "Query" [4]).ask registry {} = .ok (.fields (.ofList [(f.name, f)])) t ∧
      registry.DeclaresArgument f { name := "filter" } (.nullable (.ref filter)) ∧
      registry.getNode filter = .ok 1 ∧ registry.node 1 = .inputObject n ∧
      n.constructor.construct ((Value.obj entries).toJsonAs t.shapes (.input 1))
        = .ok (built t.shapes) ∧
      ¬ f.resolver.HandsOver t.shapes raw filter (built t.shapes) := by
  obtain ⟨f, t, hask, hf⟩ := Request.ask_fieldMap (fields_answered 4 (by decide))
  have hdecl : registry.DeclaresArgument f { name := "filter" } (.nullable (.ref filter)) :=
    ⟨4, _, _, "Query", rfl, rfl, rfl, rfl, hf⟩
  have hpassed : f.resolver.PassesByValue t.shapes raw filter
      (.ofJson ((Value.obj entries).toJsonAs t.shapes (.input 1))) :=
    FieldResolver.passesByValue_of_raw filter (hdecl.mapping_eq rfl getNode_filter rfl) rfl
  exact ⟨f, t, _, hask, hdecl, getNode_filter, rfl, rfl, hpassed.not_handsOver⟩

end Search

end SchemaGraph
