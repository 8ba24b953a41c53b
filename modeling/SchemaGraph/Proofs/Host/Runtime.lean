import SchemaGraph.Proofs.Declared.Ends
import SchemaGraph.Proofs.Input.Tables

/-!
# Errors of a running query

While a field is resolved errors are raised for its arguments, for what its resolver asks of
the call and for the answer. As long as the table knows the inputs that the arguments refer
to, each of them is an error that only a running query can raise.
-/

set_option autoImplicit false

namespace SchemaGraph

variable {r : Registry} {table : ShapeTable}

/-- What is raised for want of an input that the table knows. -/
theorem ShapeTable.Complete.materialize_error (h : table.Complete r)
    {mapping : ArgumentMapping} (hknown : ∀ i ∈ mapping.inputs, table.contains i = true)
    {raw : Value} {e : SchemaError} (he : mapping.materialize table raw = .error e) :
    ∃ type cause, e = .inputConstruction type cause := by
  have hbuild : ∀ {shape : InputObjectShape} {id : NodeId} {v : Value},
      (shape.build table id v).map Arguments.instance = .error e →
        ∃ type cause, e = .inputConstruction type cause := by
    intro shape id v hbuild
    unfold InputObjectShape.build at hbuild
    cases hv : shape.constructor.construct (v.toJsonAs table (.input id)) with
    | ok built =>
        rw [hv] at hbuild
        cases hbuild
    | error cause =>
        rw [hv] at hbuild
        cases hbuild
        exact ⟨shape.name, cause, rfl⟩
  cases mapping with
  | none => cases he
  | raw name shape => cases he
  | «instance» name id =>
      obtain ⟨shape, hfilled, -⟩ := h.filled (hknown id (List.mem_singleton.mpr rfl))
      simp only [ArgumentMapping.materialize, hfilled] at he
      split at he
      · cases he
      · exact hbuild he
  | bundle id =>
      obtain ⟨shape, hfilled, -⟩ := h.filled (hknown id (List.mem_singleton.mpr rfl))
      simp only [ArgumentMapping.materialize, hfilled] at he
      exact hbuild he

/-- Whatever error comes of it, it is one that only a running query can raise. A walk that
never returns raises none. -/
def AtRuntime {α : Type} (x : Except SchemaError α) : Prop :=
  ∀ e, x = .error e → e.isEndless = false → e.isRuntime = true

namespace AtRuntime

variable {α β : Type}

theorem ok (a : α) : AtRuntime (.ok a) := fun _ h => nomatch h

theorem error {e : SchemaError} (h : e.isEndless = false → e.isRuntime = true) :
    AtRuntime (.error e : Except SchemaError α) := by
  rintro _ ⟨⟩
  exact h

theorem map {x : Except SchemaError α} {f : α → β} (hx : AtRuntime x) :
    AtRuntime (x.map f) := by
  cases x with
  | ok a => exact ok _
  | error e => exact error (hx e rfl)

theorem unresolved (d : Dispatch) (name : String) :
    AtRuntime (.error (d.unresolved name) : Except SchemaError α) := by
  refine error fun _ => ?_
  unfold Dispatch.unresolved
  cases d.kind <;> rfl

theorem parentAs (call : FieldCall) (t : HostType) : AtRuntime (call.parentAs t) := by
  unfold FieldCall.parentAs
  split
  · exact error fun _ => rfl
  · split
    · exact ok _
    · exact error fun _ => rfl
    · exact error nofun

theorem argsAs (call : FieldCall) (t : HostType) : AtRuntime (call.argsAs t) := by
  unfold FieldCall.argsAs
  split
  · split
    · exact ok _
    · exact error fun _ => rfl
  · exact error fun _ => rfl

theorem arg (call : FieldCall) (t : HostShape) : AtRuntime (call.arg t) := by
  unfold FieldCall.arg
  split
  · exact error fun _ => rfl
  · split
    · exact ok _
    · exact error fun _ => rfl

mutual

theorem ofAbstractValue (d : Dispatch) :
    ∀ v : Value, AtRuntime (FieldValue.ofAbstractValue d v)
  | .null => ok _
  | .list items => map (ofAbstractValues d items)
  | .bool _ | .num _ | .str _ | .enum _ | .binary _ | .obj _ => unresolved d _

theorem ofAbstractValues (d : Dispatch) :
    ∀ items : List Value, AtRuntime (FieldValue.ofAbstractValues d items)
  | [] => ok _
  | v :: rest => by
      rw [FieldValue.ofAbstractValues]
      cases hv : FieldValue.ofAbstractValue d v with
      | error e => exact error (ofAbstractValue d v e hv)
      | ok _ => exact map (ofAbstractValues d rest)

end

mutual

theorem ofAbstract (d : Dispatch) : ∀ x : Resolved, AtRuntime (FieldValue.ofAbstract d x)
  | .value v => ofAbstractValue d v
  | .instance i => by
      refine map ?_
      unfold Dispatch.resolveType
      dsimp only
      split
      · exact ok _
      · exact unresolved d _
  | .list items => map (ofAbstractItems d items)

theorem ofAbstractItems (d : Dispatch) :
    ∀ items : List Resolved, AtRuntime (FieldValue.ofAbstractItems d items)
  | [] => ok _
  | x :: rest => by
      rw [FieldValue.ofAbstractItems]
      cases hx : FieldValue.ofAbstract d x with
      | error e => exact error (ofAbstract d x e hx)
      | ok _ => exact map (ofAbstractItems d rest)

end

theorem fieldValue (f : FieldResolver) (x : Resolved) : AtRuntime (f.fieldValue x) := by
  unfold FieldResolver.fieldValue FieldValue.ofResolved
  cases f.dispatch? with
  | none => exact ok _
  | some d => exact ofAbstract d x

end AtRuntime

/-- What is raised while a field is resolved, but for what its resolver makes up itself: for
its arguments, by what a resolver can ask of its call, and for its answer. -/
inductive FieldResolver.Raises (f : FieldResolver) (table : ShapeTable) : SchemaError → Prop
  | arguments {raw : Value} {e : SchemaError} (h : f.arguments.materialize table raw = .error e) :
      Raises f table e
  | parent {call : FieldCall} {t : HostType} {e : SchemaError} (h : call.parentAs t = .error e) :
      Raises f table e
  | args {call : FieldCall} {t : HostType} {e : SchemaError} (h : call.argsAs t = .error e) :
      Raises f table e
  | arg {call : FieldCall} {t : HostShape} {e : SchemaError} (h : call.arg t = .error e) :
      Raises f table e
  | answer {x : Resolved} {e : SchemaError} (h : f.fieldValue x = .error e) : Raises f table e

/-- Where arguments fail only in constructors, whatever is raised is raised at run time. -/
theorem FieldResolver.Raises.isRuntime {f : FieldResolver} {e : SchemaError}
    (hbuilt : ∀ raw e, f.arguments.materialize table raw = .error e →
      ∃ type cause, e = .inputConstruction type cause)
    (h : f.Raises table e) (hends : e.isEndless = false) : e.isRuntime = true := by
  cases h with
  | arguments h =>
      obtain ⟨type, cause, rfl⟩ := hbuilt _ e h
      rfl
  | parent h => exact AtRuntime.parentAs _ _ e h hends
  | args h => exact AtRuntime.argsAs _ _ e h hends
  | arg h => exact AtRuntime.arg _ _ e h hends
  | answer h => exact AtRuntime.fieldValue _ _ e h hends

/-- A field fails for its arguments, or as its own resolver fails. -/
theorem FieldResolver.resolve_error {f : FieldResolver} {parent : Parent} {raw : Value}
    {context? : Option HostValue} {e : SchemaError}
    (h : f.resolve table parent raw context? = .error (.schema e)) :
    f.arguments.materialize table raw = .error e ∨
      ∃ resolver call, f.explicit? = some resolver ∧ resolver call = .error (.schema e) := by
  unfold resolve at h
  cases hargs : f.arguments.materialize table raw with
  | error e' =>
      simp only [hargs, Except.error.injEq, ResolveError.schema.injEq] at h
      exact Or.inl (congrArg Except.error h)
  | ok args =>
      simp only [hargs] at h
      cases hexplicit : f.explicit? with
      | none => cases hhook : f.hook? <;> simp [hexplicit, hhook, Except.map] at h
      | some resolver =>
          refine Or.inr ⟨resolver, ⟨f.field, parent, args, context?, f.lineage⟩, rfl, ?_⟩
          cases hanswer : resolver ⟨f.field, parent, args, context?, f.lineage⟩ with
          | ok x => cases hhook : f.hook? <;> simp [hexplicit, hhook, hanswer, Except.map] at h
          | error e' =>
              cases hhook : f.hook? <;>
                simpa [hexplicit, hhook, hanswer, Except.map] using h

end SchemaGraph
