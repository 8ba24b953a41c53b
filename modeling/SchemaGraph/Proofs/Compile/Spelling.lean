import SchemaGraph.Proofs.Compile.Traces
import SchemaGraph.Proofs.Declared.Spelling

/-!
# Names that are given on the spot

Scalars, enums and unions are not declared, so nobody looks at their names before a compiler
meets them. It looks before it keeps one, at the names of the values of an enum too, and not
again: what finds its name taken is not looked at. So at any time the names are valid of what
is kept, whether the requests before were answered or failed.
-/

set_option autoImplicit false

namespace SchemaGraph

variable {r : Registry} {s : CompileState}

/-- What is checked of a type that is given on the spot. -/
def CompiledType.Checked : CompiledType → Prop
  | .scalar d => Text.IsName d.name
  | .enum d => Text.IsName d.name ∧ ∀ v ∈ d.values, Text.IsName v.name
  | .union u => Text.IsName u.name
  | _ => True

theorem checkNames_eq_ok {values : List EnumValue} {u : Unit} :
    (values.forM fun v => checkName v.name) = .ok u ↔ ∀ v ∈ values, Text.IsName v.name := by
  induction values with
  | nil => simp [pure, Except.pure]
  | cons v rest ih =>
      rw [List.forall_mem_cons, ← ih, ← checkName_eq_ok (u := ())]
      exact Meaning.bind_eq_ok.trans ⟨fun ⟨_, h⟩ => h, fun h => ⟨_, h⟩⟩

namespace CompileState

/-- What is kept under a name was checked. -/
def Spelled (s : CompileState) : Prop := ∀ name t, s.given.find? name = some t → t.Checked

theorem spelled_start : Spelled {} := by
  intro name t h
  cases h

theorem Spelled.insert (h : s.Spelled) {name : String} {t : CompiledType} (ht : t.Checked) :
    ∀ name' t', (s.given.insert name t).find? name' = some t' → t'.Checked := fun _ _ =>
  OrderedMap.forall_find?_insert (P := fun _ t => t.Checked) (fun h' => h _ _ h') ht

/-- The compiler keeps nothing that was not checked. -/
theorem traces_spelled (r : Registry) :
    Compile.Traces r fun s s' => s.Spelled → s'.Spelled where
  refl _ h := h
  trans h h' hs := h' (h hs)
  shape _ _ _ h := h
  dispatch _ _ h := h
  scalar _ _ hname h := h.insert (t := .scalar _) (checkName_eq_ok.mp hname)
  enum _ hname hnames h :=
    h.insert (t := .enum _) ⟨checkName_eq_ok.mp hname, checkNames_eq_ok.mp hnames⟩
  union _ hname hu hmembers h := (hmembers h).insert (t := .union _) <| by
    rw [CompiledType.Checked, hu]
    exact checkName_eq_ok.mp hname
  marked _ hbuilt h := hbuilt h
  object _ _ _ _ hbuilt h := hbuilt h
  interface t _ _ _ hbuilt hdispatch _ h := hdispatch (hbuilt h)
  inputObject _ _ _ _ hbuilt h := hbuilt h

theorem Reaches.spelled (h : Reaches r {} s) : s.Spelled := by
  induction h with
  | refl => exact spelled_start
  | @tail s s' hreaches hasks ih =>
      obtain ⟨q, a, hrun⟩ := hasks
      have hspelled := q.traced (traces_spelled r) (Reaches.settled hreaches).idle ih
      rwa [Request.after, hrun] at hspelled

end CompileState

end SchemaGraph
