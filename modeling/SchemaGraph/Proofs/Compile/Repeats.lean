import SchemaGraph.Proofs.Compile.Retains
import SchemaGraph.Proofs.Compile.Traces
import SchemaGraph.Proofs.Compile.Unions

/-!
# Runs that are repeated

A compiler that is asked the same thing again starts from what the first run kept. What it
answered then it finds now, in every cache it looks into, so a run that was answered is answered
again and keeps nothing new. A run that failed gets as far as it got before, and fails again:
the type it was building is still marked where it failed, so nothing can have kept it. Only what
was left half done can make a difference, since a repeated run passes over it.
-/

set_option autoImplicit false

namespace SchemaGraph

open Compile

variable {r : Registry} {s s' s₁ t : CompileState}

open CompileState

/-! ## Repeating a run -/

namespace Compile

variable {α β : Type} {M N : Mention → Prop}

/-- A run of `x` from `s` can be repeated. If it was answered, it is answered in the same way
from any state that has what was kept, and nothing changes; if it failed, it fails again from
where it stopped, and nothing changes, unless something was left half done. `M` is what the run
mentions by itself. -/
structure RepeatsAt (r : Registry) (M : Mention → Prop) (x : CompileM α) (s : CompileState) :
    Prop where
  ext : Retains r s (stateAfter x s)
  again : ∀ {a s₁ t}, x s = .ok a s₁ → Retains r s₁ t → x t = .ok a t
  fails : ∀ {e s₁}, x s = .error e s₁ → e.isEndless = false →
    (∃ e', x s₁ = .error e' s₁) ∨ HalfDone r M s s₁

def Repeats (r : Registry) (M : Mention → Prop) (x : CompileM α) : Prop :=
  ∀ s, Proper r s → RepeatsAt r M x s

namespace RepeatsAt

variable {x : CompileM α} {f : α → CompileM β} {a : α} {e : SchemaError}

theorem ext_ok (h : RepeatsAt r M x s) (hx : x s = .ok a s₁) : Retains r s s₁ :=
  stateAfter_ok hx ▸ h.ext

theorem ext_error (h : RepeatsAt r M x s) (hx : x s = .error e s₁) : Retains r s s₁ :=
  stateAfter_error hx ▸ h.ext

/-- A run that is answered. -/
theorem answered (hx : x s = .ok a s₁) (hext : Retains r s s₁)
    (hagain : ∀ t, Retains r s₁ t → x t = .ok a t) : RepeatsAt r M x s := by
  refine ⟨by rw [stateAfter_ok hx]; exact hext, fun hx' ht => ?_, fun hx' => ?_⟩
  · rw [hx] at hx'
    cases hx'
    exact hagain _ ht
  · rw [hx] at hx'
    cases hx'

/-- A run that fails. -/
theorem failed (hx : x s = .error e s₁) (hext : Retains r s s₁)
    (hfails : e.isEndless = false → (∃ e', x s₁ = .error e' s₁) ∨ HalfDone r M s s₁) :
    RepeatsAt r M x s := by
  refine ⟨by rw [stateAfter_error hx]; exact hext, fun hx' => ?_, fun hx' hend => ?_⟩
  · rw [hx] at hx'
    cases hx'
  · rw [hx] at hx'
    cases hx'
    exact hfails hend

/-- A run that fails at once. -/
theorem refused (hx : x s = .error e s) : RepeatsAt r M x s :=
  failed hx (Retains.refl r s) fun _ => Or.inl ⟨e, hx⟩

theorem bind (hx : RepeatsAt r M x s)
    (hf : ∀ {a s₁}, x s = .ok a s₁ → RepeatsAt r M (f a) s₁) : RepeatsAt r M (x >>= f) s := by
  cases h : x s with
  | error e s₁ =>
      refine failed (bind_eq_error h) (hx.ext_error h) fun hend => ?_
      refine (hx.fails h hend).imp_left fun ⟨e', h'⟩ => ⟨e', bind_eq_error h'⟩
  | ok a s₁ =>
      have hext := hx.ext_ok h
      cases h' : f a s₁ with
      | ok b s₂ =>
          have hext' := (hf h).ext_ok h'
          refine answered (bind_eq_ok.mpr ⟨a, s₁, h, h'⟩) (hext.trans hext') fun t ht => ?_
          exact bind_eq_ok.mpr ⟨a, t, hx.again h (hext'.trans ht), (hf h).again h' ht⟩
      | error e s₂ =>
          have hext' := (hf h).ext_error h'
          refine failed (bind_eq_error_iff.mpr (Or.inr ⟨a, s₁, h, h'⟩)) (hext.trans hext')
            fun hend => ?_
          rcases (hf h).fails h' hend with ⟨e', hagain⟩ | hopen
          · exact Or.inl ⟨e', bind_eq_error_iff.mpr (Or.inr ⟨a, s₂, hx.again h hext', hagain⟩)⟩
          · exact Or.inr (hopen.of_retains hext)

theorem mono (hx : RepeatsAt r M x s) (hMN : ∀ m, M m → N m) : RepeatsAt r N x s :=
  ⟨hx.ext, hx.again, fun h hend => (hx.fails h hend).imp_right fun hopen => hopen.mono hMN⟩

theorem map (f : α → β) (hx : RepeatsAt r M x s) : RepeatsAt r M (f <$> x) s := by
  rw [← bind_pure_comp]
  exact hx.bind fun {_ s₁} _ => answered rfl (.refl r s₁) fun _ _ => rfl

theorem discard (hx : RepeatsAt r M x s) : RepeatsAt r M (Functor.discard x) s := hx.map _

/-- Only what a computation does under the same marks matters. -/
theorem congr {y : CompileM α} (hx : RepeatsAt r M x s)
    (heq : ∀ t, t.inProgress = s.inProgress → y t = x t) : RepeatsAt r M y s := by
  have hs : y s = x s := heq s rfl
  have hext : Retains r s (stateAfter y s) := by
    rw [stateAfter, hs]
    exact hx.ext
  refine ⟨hext, fun {a s₁ t} h ht => ?_, fun {e s₁} h hend => ?_⟩
  · rw [hs] at h
    rw [heq t (ht.inProgress.trans (hx.ext_ok h).inProgress)]
    exact hx.again h ht
  · rw [hs] at h
    rw [heq s₁ (hx.ext_error h).inProgress]
    exact hx.fails h hend

end RepeatsAt

variable {enter : NodeId → CompileM Unit}

/-- Entering a node can be repeated. If it fails the node was not in progress, and is not kept as
an object. -/
structure Enterable (r : Registry) (enter : NodeId → CompileM Unit) : Prop where
  repeats : ∀ id, Repeats r (· = .node id) (enter id)
  unkept : ∀ {id s e s'}, Proper r s → enter id s = .error e s' → e.isEndless = false →
    id ∉ s.inProgress ∧ s'.objects.find? id = none

namespace Repeats

theorem pure (a : α) : Repeats r M (Pure.pure a) :=
  fun s _ => .answered rfl (.refl r s) fun _ _ => rfl

theorem throw (e : SchemaError) : Repeats r M (MonadExcept.throw e : CompileM α) :=
  fun _ _ => .refused rfl

theorem lift (x : Except SchemaError α) : Repeats r M (Compile.lift x) := by
  cases x with
  | ok a => exact pure a
  | error e => exact throw e

theorem bind {x : CompileM α} {f : α → CompileM β} (hx : Repeats r M x)
    (hf : ∀ a, Repeats r M (f a)) : Repeats r M (x >>= f) := fun s hs =>
  (hx s hs).bind fun h => hf _ _ (((hx s hs).ext_ok h).proper hs)

/-- What is looked up in the registry is the same each time. -/
theorem lift_bind {x : Except SchemaError α} {f : α → CompileM β}
    (hf : ∀ a, x = .ok a → Repeats r M (f a)) : Repeats r M (Compile.lift x >>= f) := by
  cases x with
  | ok a => exact hf a rfl
  | error e => exact throw e

theorem mono {x : CompileM α} (hx : Repeats r M x) (hMN : ∀ m, M m → N m) : Repeats r N x :=
  fun s hs => (hx s hs).mono hMN

theorem forM {f : α → CompileM PUnit} {l : List α} (hf : ∀ a ∈ l, Repeats r M (f a)) :
    Repeats r M (l.forM f) := by
  induction l with
  | nil => exact pure _
  | cons a rest ih =>
      exact (hf a List.mem_cons_self).bind fun _ => ih fun b hb => hf b (List.mem_cons_of_mem _ hb)

/-! ### Shapes -/

theorem shapeOfExpr (henter : ∀ id, Repeats r M (enter id)) (t : TypeExpr) :
    Repeats r M (Compile.shapeOfExpr r enter t) := by
  induction t with
  | ref t =>
      refine (lift _).bind fun id => ?_
      split
      · exact (henter id).bind fun _ => pure _
      · exact pure _
  | scalar _ | enum _ | union _ => exact pure _
  | list item ih => exact ih.bind fun _ => pure _
  | nullable inner ih => exact ih

theorem shapeOfLink (henter : ∀ id, Repeats r M (enter id)) (l : Link) :
    Repeats r M (Compile.shapeOfLink r enter l) := by
  cases l with
  | node id =>
      simp only [Compile.shapeOfLink]
      split
      · exact (henter id).bind fun _ => pure _
      · exact pure _
  | given t => exact shapeOfExpr henter t

theorem fieldShapes (henter : ∀ id, Repeats r M (enter id)) (ids : List NodeId) :
    Repeats r M (Compile.fieldShapes r enter ids) := by
  induction ids with
  | nil => exact pure _
  | cons id rest ih =>
      exact (lift _).bind fun field => (shapeOfLink henter field.type).bind fun _ =>
        ih.bind fun _ => pure _

/-- A shape that is entered, and then filled: if its fields fail it stays unfilled. -/
theorem fillShape {id : NodeId} {shapes : CompileM (List InputFieldShape)}
    (hshapes : Repeats r M shapes) (shape : List InputFieldShape → InputObjectShape)
    (hfree : s.shapes.find? id = none) (hs : s.Proper r) {x : CompileM Unit}
    (hx : x s = (do
      keepShape id none
      let fields ← shapes
      keepShape id (some (shape fields)) : CompileM Unit) s)
    (hskip : ∀ t shape?, t.shapes.find? id = some shape? → x t = .ok () t) :
    RepeatsAt r M x s := by
  have hentered := (Retains.refl r s).keepShape hfree none
  have hbuilt := hshapes _ (hentered.proper hs)
  cases hrun : shapes { s with shapes := s.shapes.insert id none } with
  | ok fields s₁ =>
      have hext := (hentered.trans (hbuilt.ext_ok hrun)).keepShape hfree (some (shape fields))
      refine .answered (hx.trans ?_) hext fun t ht =>
        hskip t _ (ht.shapes (OrderedMap.find?_insert_self _ _ _))
      exact bind_eq_ok.mpr ⟨(), _, rfl, bind_eq_ok.mpr ⟨fields, s₁, hrun, rfl⟩⟩
  | error e s₁ =>
      have hext := hbuilt.ext_error hrun
      refine .failed (e := e) (hx.trans ?_) (hentered.trans hext) fun _ =>
        Or.inr (.shape hfree (hext.shapes (OrderedMap.find?_insert_self _ _ _)))
      show (shapes >>= _) { s with shapes := s.shapes.insert id none } = _
      exact bind_eq_error hrun

/-- A shape that is entered is not looked into again. -/
theorem inputShapeWithin (depth : Nat) (id : NodeId) :
    Repeats r M (Compile.inputShapeWithin r depth id) := by
  induction depth generalizing id with
  | zero => exact throw _
  | succ depth ih =>
      intro s hs
      -- what a repeated run does that finds the shape
      have hskip : ∀ t shape?, t.shapes.find? id = some shape? →
          Compile.inputShapeWithin r (depth + 1) id t = .ok () t := by
        intro t shape? ht
        simp only [Compile.inputShapeWithin, get_bind, OrderedMap.contains_of_find? ht, if_true]
        rfl
      cases hfound : s.shapes.find? id with
      | some shape? =>
          exact .answered (hskip s _ hfound) (.refl r s) fun t ht => hskip t _ (ht.shapes hfound)
      | none =>
          have hnew := OrderedMap.contains_eq_false hfound
          cases hfields : (r.node id).inputFields? with
          | none =>
              refine .refused (e := .typeNotFound (r.node id).displayName) ?_
              simp only [Compile.inputShapeWithin, get_bind, hnew, hfields]
              rfl
          | some inputFields =>
              cases hconstructor : (r.node id).constructor? with
              | none =>
                  refine .refused (e := .typeNotFound (r.node id).displayName) ?_
                  simp only [Compile.inputShapeWithin, get_bind, hnew, hfields, hconstructor]
                  rfl
              | some constructor =>
                  let shape (fields : List InputFieldShape) : InputObjectShape :=
                    ⟨(r.node id).displayName, fields, constructor⟩
                  refine fillShape (fieldShapes ih inputFields) shape hfound hs ?_ hskip
                  simp only [Compile.inputShapeWithin, get_bind, hnew, hfields, hconstructor]
                  rfl

theorem inputShape (id : NodeId) : Repeats r M (Compile.inputShape r id) :=
  inputShapeWithin _ id

theorem argMapping (arg : LinkedArg) : Repeats r M (Compile.argMapping r arg) := by
  have hshape : Repeats r M (valueShape r arg.type) := shapeOfLink inputShape arg.type
  unfold Compile.argMapping
  split
  · split
    · exact (inputShape _).bind fun _ => pure _
    · exact hshape.bind fun _ => pure _
  · exact hshape.bind fun _ => pure _

/-! ### References -/

theorem interfaceDispatch (id : NodeId) : Repeats r M (Compile.interfaceDispatch r id) := by
  intro s hs
  have hfind : ∀ {t : CompileState} {d : Dispatch}, t.dispatches.find? id = some d →
      Compile.interfaceDispatch r id t = .ok d t := by
    intro t d ht
    simp only [Compile.interfaceDispatch, get_bind, ht]
    rfl
  cases hfound : s.dispatches.find? id with
  | some d => exact .answered (hfind hfound) (.refl r s) fun t ht => hfind (ht.dispatches hfound)
  | none =>
      cases himplementers : r.implementers id with
      | error e =>
          refine .refused (e := e) ?_
          simp only [Compile.interfaceDispatch, get_bind, hfound, himplementers]
          rfl
      | ok ids =>
          let d : Dispatch := ⟨(r.node id).displayName, .interface,
            ids.map fun i => ((r.node i).type, (r.node i).displayName)⟩
          refine .answered (a := d) ?_ (.keepDispatch d hfound himplementers)
            fun t ht => hfind (ht.dispatches (OrderedMap.find?_insert_self _ _ _))
          simp only [Compile.interfaceDispatch, get_bind, hfound, himplementers]
          rfl

theorem nodeRef (henter : Enterable r enter) (id : NodeId) :
    Repeats r (· = .node id) (Compile.nodeRef r enter id) := by
  unfold Compile.nodeRef
  cases r.node id with
  | object n => exact (henter.repeats id).bind fun _ => pure _
  | interface n =>
      exact (henter.repeats id).bind fun _ => (interfaceDispatch id).bind fun _ => pure _
  | inputObject n => exact (henter.repeats id).bind fun _ => pure _
  | field _ | args _ | arg _ | inputField _ | implement _ => exact throw _

/-- What is given on the spot is looked at if its name is free, and then kept under it. -/
theorem keepChecked {t : CompiledType} (check : Except SchemaError PUnit) {x : CompileM PUnit}
    (ht : ∀ u, t ≠ .union u) (hfree : s.given.find? t.name = none)
    (hx : x s = (do Compile.lift check; keepGiven t : CompileM PUnit) s)
    (hskip : ∀ t', t'.given.contains t.name = true → x t' = .ok () t') : RepeatsAt r M x s := by
  cases hcheck : check with
  | error e =>
      rw [hcheck] at hx
      exact .refused hx
  | ok u =>
      rw [hcheck] at hx
      refine .answered hx (.keepGiven hfree ht) fun t' ht' => hskip t' ?_
      exact OrderedMap.contains_of_find? (ht'.given (OrderedMap.find?_insert_self _ _ _))

theorem keepScalar (d : ScalarDef) : Repeats r M (Compile.keepScalar d) := by
  intro s hs
  have hskip : ∀ t : CompileState, d.builtin = true ∨ t.given.contains d.name = true →
      Compile.keepScalar d t = .ok () t := by
    intro t ht
    have hnot : ¬ ((!d.builtin) = true ∧ (!t.given.contains d.name) = true) := by
      simpa [← Bool.not_eq_true, or_iff_not_imp_left] using ht
    simp only [Compile.keepScalar, get_bind, if_neg hnot]
    rfl
  by_cases hs' : d.builtin = true ∨ s.given.contains d.name = true
  · refine .answered (hskip s hs') (.refl r s) fun t ht => hskip t (hs'.imp_right fun h => ?_)
    obtain ⟨kept, hkept⟩ := OrderedMap.contains_iff.mp h
    exact OrderedMap.contains_of_find? (ht.given hkept)
  · rw [not_or, Bool.not_eq_true, Bool.not_eq_true] at hs'
    refine keepChecked (t := .scalar d) (checkName d.name) (fun _ hunion => by cases hunion) ?_ ?_
      fun t' ht' => hskip t' (Or.inr ht')
    · exact OrderedMap.find?_eq_none_of_contains hs'.2
    · simp only [Compile.keepScalar, get_bind, hs'.1, hs'.2]
      rfl

theorem keepEnum (d : EnumDef) : Repeats r M (Compile.keepEnum d) := by
  intro s hs
  have hskip : ∀ t : CompileState, t.given.contains d.name = true →
      Compile.keepEnum d t = .ok () t := by
    intro t ht
    simp only [Compile.keepEnum, get_bind, ht]
    rfl
  cases hs' : s.given.contains d.name with
  | true =>
      refine .answered (hskip s hs') (.refl r s) fun t ht => hskip t ?_
      obtain ⟨kept, hkept⟩ := OrderedMap.contains_iff.mp hs'
      exact OrderedMap.contains_of_find? (ht.given hkept)
  | false =>
      refine keepChecked (t := .enum d)
        (checkName d.name >>= fun _ => d.values.forM fun v => checkName v.name)
        (fun _ hunion => by cases hunion) ?_ ?_ hskip
      · exact OrderedMap.find?_eq_none_of_contains hs'
      · simp only [Compile.keepEnum, get_bind, hs']
        cases checkName d.name <;> rfl

/-- Members that were compiled could be looked up. -/
theorem unionMembers_meaning {members : List HostType} :
    ∀ {s s' : CompileState} {tables : List (HostType × String) × List (HostType × String)},
      Compile.unionMembers r enter members s = .ok tables s' →
      Meaning.unionMembers r members = .ok tables := by
  induction members with
  | nil =>
      intro s s' tables h
      obtain ⟨rfl, -⟩ := pure_eq_ok.mp h
      rfl
  | cons T rest ih =>
      intro s s' tables h
      simp only [Compile.unionMembers, bind_eq_ok, lift_eq_ok] at h
      obtain ⟨id, _, ⟨hid, rfl⟩, h⟩ := h
      split at h
      · obtain ⟨_, _, hthrow, -⟩ := bind_eq_ok.mp h
        exact absurd hthrow throw_ne_ok
      · next hobject =>
          simp only [bind_eq_ok, lift_eq_ok, pure_eq_ok] at h
          obtain ⟨_, _, -, extending, _, ⟨hext, rfl⟩, ⟨members, descendants⟩, _, hrest, rfl,
            -⟩ := h
          simp only [Meaning.unionMembers, Meaning.bind_eq_ok]
          refine ⟨id, hid, ?_⟩
          rw [if_pos (by simpa using hobject)]
          simp only [Meaning.bind_eq_ok]
          exact ⟨extending, hext, (members, descendants), ih hrest, rfl⟩

theorem unionMembers (henter : Enterable r enter) (members : List HostType) :
    Repeats r (fun m => ∃ T ∈ members, ∃ id, r.getNode T = .ok id ∧ m = .node id)
      (Compile.unionMembers r enter members) := by
  induction members with
  | nil => exact pure _
  | cons T rest ih =>
      refine lift_bind fun id hid => ?_
      dsimp only
      split
      · exact throw _
      · have hmember := (henter.repeats id).mono fun m hm =>
          (⟨T, List.mem_cons_self, id, hid, hm⟩ :
            ∃ T' ∈ T :: rest, ∃ id, r.getNode T' = .ok id ∧ m = .node id)
        have hrest := ih.mono fun m hm =>
          (hm.imp fun T' h => ⟨List.mem_cons_of_mem T h.1, h.2⟩ :
            ∃ T' ∈ T :: rest, ∃ id, r.getNode T' = .ok id ∧ m = .node id)
        exact hmember.bind fun _ => (lift _).bind fun _ => hrest.bind fun _ => pure _

/-- If members could be looked up, it is one of them that fails. It was not in progress, and is
not kept. -/
theorem unionMembers_open (henter : Enterable r enter) {members : List HostType}
    {e : SchemaError} (hend : e.isEndless = false) :
    ∀ {s s' : CompileState} {tables : List (HostType × String) × List (HostType × String)},
      s.Proper r → Meaning.unionMembers r members = .ok tables →
      Compile.unionMembers r enter members s = .error e s' →
      ∃ T ∈ members, ∃ id, r.getNode T = .ok id ∧ id ∉ s.inProgress ∧
        s'.objects.find? id = none := by
  induction members with
  | nil =>
      intro s s' tables _ _ h
      cases h
  | cons T rest ih =>
      intro s s' tables hs hmeaning h
      obtain ⟨id, hid, hmeaning⟩ := Meaning.bind_eq_ok.mp hmeaning
      split at hmeaning
      · next hobject =>
          obtain ⟨extending, hext, hmeaning⟩ := Meaning.bind_eq_ok.mp hmeaning
          obtain ⟨tables', hrest, -⟩ := Meaning.bind_eq_ok.mp hmeaning
          rcases bind_eq_error_iff.mp h with h | ⟨id', _, hlift, h⟩
          · rw [hid] at h
            cases h
          obtain ⟨hid', rfl⟩ := lift_eq_ok.mp hlift
          obtain rfl : id = id' := Except.ok.inj (hid.symm.trans hid')
          dsimp only at h
          rw [if_neg (by simp [hobject])] at h
          rcases bind_eq_error_iff.mp h with h | ⟨_, s₁, hrun, h⟩
          · exact ⟨T, List.mem_cons_self, id, hid, henter.unkept hs h hend⟩
          have hentered := (henter.repeats id _ hs).ext_ok hrun
          rcases bind_eq_error_iff.mp h with h | ⟨_, _, hlift, h⟩
          · rw [hext] at h
            cases h
          obtain ⟨-, rfl⟩ := lift_eq_ok.mp hlift
          rcases bind_eq_error_iff.mp h with h | ⟨_, _, -, h⟩
          · obtain ⟨T', hT', j, hj, hidle, hopen⟩ := ih (hentered.proper hs) hrest h
            exact ⟨T', List.mem_cons_of_mem _ hT', j, hj, hentered.inProgress ▸ hidle, hopen⟩
          · cases h
      · cases hmeaning

theorem unionDispatch_of_kept {d : UnionDef} {u : CompiledUnion}
    (hu : s.given.find? d.name = some (.union u))
    (hmembers : s.unionMembers.find? d.name = some d.members) :
    Compile.unionDispatch r enter d s = .ok u.dispatch s := by
  simp only [Compile.unionDispatch, get_bind, hu, if_pos hmembers]
  rfl

/-- What is made of the tables of the members. -/
def madeUnion (d : UnionDef) (tables : List (HostType × String) × List (HostType × String)) :
    CompiledUnion :=
  ⟨d.name, d.description, tables.1.map (·.2), ⟨d.name, .union, tables.1 ++ tables.2⟩⟩

/-- Under a free and valid name the members are compiled, and then the union is kept. -/
theorem unionDispatch_of_free {d : UnionDef} (hfree : s.given.find? d.name = none)
    (hname : checkName d.name = .ok ()) :
    Compile.unionDispatch r enter d s = (do
      let tables ← Compile.unionMembers r enter d.members
      modify fun s => { s with unionMembers := s.unionMembers.insert d.name d.members }
      keepGiven (.union (madeUnion d tables))
      return (madeUnion d tables).dispatch : CompileM Dispatch) s := by
  simp only [Compile.unionDispatch, get_bind, hfree, hname]
  rfl

/-- A union may be kept by its own members, and is then found although they fail. -/
theorem unionDispatch (henter : Enterable r enter) (d : UnionDef) :
    Repeats r ((TypeExpr.union d).Mentions r) (Compile.unionDispatch r enter d) := by
  intro s hs
  cases hfound : s.given.find? d.name with
  | some kept =>
      by_cases hholds : s.Holds d
      · obtain ⟨⟨u, hu⟩, hmembers⟩ := hholds
        refine .answered (unionDispatch_of_kept hu hmembers) (.refl r s) fun t ht => ?_
        refine unionDispatch_of_kept (ht.given hu) ((ht.unionMembers ?_).trans hmembers)
        rw [hu]
        exact Option.some_ne_none _
      · exact .refused (unionDispatch_collides (OrderedMap.contains_of_find? hfound) hholds)
  | none =>
      cases hname : checkName d.name with
      | error e =>
          refine .refused (e := e) ?_
          simp only [Compile.unionDispatch, get_bind, hfound, hname]
          rfl
      | ok _ =>
          have hrun : Compile.unionDispatch r enter d s = _ := unionDispatch_of_free hfound hname
          have hbuilt : RepeatsAt r ((TypeExpr.union d).Mentions r) _ s :=
            (unionMembers henter d.members s hs).mono fun _ => Or.inr
          cases hx : Compile.unionMembers r enter d.members s with
          | ok tables s₁ =>
              have hext := (hbuilt.ext_ok hx).keepUnion (u := madeUnion d tables) hfound
                (unionMembers_meaning hx)
              refine .answered (hrun.trans (bind_eq_ok.mpr ⟨tables, s₁, hx, rfl⟩)) hext
                fun t ht => ?_
              have hself := ht.given (OrderedMap.find?_insert_self _ d.name _)
              refine unionDispatch_of_kept hself ((ht.unionMembers ?_).trans ?_)
              · exact Option.ne_none_iff_exists'.mpr ⟨_, OrderedMap.find?_insert_self _ _ _⟩
              · exact OrderedMap.find?_insert_self _ _ _
          | error e s₁ =>
              have hext := hbuilt.ext_error hx
              refine .failed (hrun.trans (bind_eq_error hx)) hext fun hend => ?_
              cases hfound₁ : s₁.given.find? d.name with
              | none =>
                  refine (hbuilt.fails hx hend).imp_left fun hagain => ?_
                  obtain ⟨e', h'⟩ := hagain
                  exact ⟨e', (unionDispatch_of_free hfound₁ hname).trans (bind_eq_error h')⟩
              | some kept =>
                  -- one of the members has kept something under the name
                  by_cases hholds : s₁.Holds d
                  · obtain ⟨⟨u, hu⟩, hmembers⟩ := hholds
                    obtain ⟨_, tables, hmembers', hmeaning⟩ := hext.registered hfound hu
                    rw [hmembers, Option.some.injEq] at hmembers'
                    subst hmembers'
                    obtain ⟨T, hT, i, hi, hidle, hopen⟩ :=
                      unionMembers_open henter hend hs hmeaning hx
                    exact Or.inr (.union hfound hu (.start (Or.inl rfl)) hmembers hT hi hidle hopen)
                  · have htaken := OrderedMap.contains_of_find? hfound₁
                    exact Or.inl ⟨_, unionDispatch_collides htaken hholds⟩

/-! ### Types -/

theorem expr (henter : Enterable r enter) (t : TypeExpr) :
    ∀ nonNull, Repeats r (t.Mentions r) (Compile.expr r enter nonNull t) := by
  induction t with
  | ref t =>
      refine fun nonNull => lift_bind fun id hid => ?_
      have hnode := (nodeRef henter id).mono fun m hm =>
        (⟨id, hid, hm⟩ : (TypeExpr.ref t).Mentions r m)
      exact hnode.bind fun _ => pure _
  | scalar d => exact fun nonNull => (keepScalar d).bind fun _ => pure _
  | enum d => exact fun nonNull => (keepEnum d).bind fun _ => pure _
  | union d => exact fun nonNull => (unionDispatch henter d).bind fun _ => pure _
  | list item ih => exact fun nonNull => (ih true).bind fun _ => pure _
  | nullable inner ih => exact fun nonNull => (ih false).bind fun _ => pure _

theorem link (henter : Enterable r enter) (l : Link) (nonNull : Bool) :
    Repeats r (l.Mentions r) (Compile.link r enter l nonNull) := by
  cases l with
  | node id => exact (nodeRef henter id).bind fun _ => pure _
  | given t => exact expr henter t nonNull

theorem outputLink (henter : Enterable r enter) (l : Link) (nonNull : Bool)
    (owner field : String) :
    Repeats r (l.Mentions r) (Compile.outputLink r enter l nonNull owner field) := by
  refine (link henter l nonNull).bind fun c => ?_
  split
  · exact pure _
  · exact throw _

theorem inputLink (henter : Enterable r enter) (l : Link) (nonNull : Bool)
    (owner field : String) :
    Repeats r (l.Mentions r) (Compile.inputLink r enter l nonNull owner field) := by
  refine (link henter l nonNull).bind fun c => ?_
  split
  · exact pure _
  · exact throw _

/-! ### Fields and arguments -/

theorem inputs (henter : Enterable r enter) (owner : String) (ids : List NodeId) :
    ∀ compiled, Repeats r (fun m => ∃ i ∈ ids, r.InputMentions i m)
      (Compile.inputs r enter owner ids compiled) := by
  induction ids with
  | nil => exact fun compiled => pure _
  | cons id rest ih =>
      refine fun compiled => lift_bind fun field hfield => ?_
      have hfirst := (inputLink henter field.type true owner field.decl.name).mono fun m hm =>
        (⟨id, List.mem_cons_self, field, hfield, hm⟩ : ∃ i ∈ id :: rest, r.InputMentions i m)
      refine hfirst.bind fun _ => (ih _).mono fun m hm => ?_
      exact hm.imp fun i hi => ⟨List.mem_cons_of_mem id hi.1, hi.2⟩

theorem arguments (henter : Enterable r enter) (owner : String) (f : LinkedField) :
    Repeats r (r.ArgumentsMention f) (Compile.arguments r enter owner f) := by
  unfold Compile.arguments
  split
  · exact throw _
  · next arg harg hargs =>
      have harg := (inputLink henter arg.type true owner arg.decl.name).mono fun m hm =>
        (Or.inl ⟨arg, harg, Or.inl hm⟩ : r.ArgumentsMention f m)
      exact harg.bind fun _ => (argMapping _).bind fun _ => pure _
  · next id harg hargs =>
      dsimp only
      split
      · exact throw _
      · have hbundle := (inputs henter (r.node id).type.shortName
            (Meaning.bundleFields r id) ∅).mono fun m hm =>
          (Or.inr ⟨id, hargs, Or.inr hm⟩ : r.ArgumentsMention f m)
        exact hbundle.bind fun _ => (inputShape id).bind fun _ => pure _
  · exact pure _

theorem field (henter : Enterable r enter) (owner : String) (id : NodeId) :
    Repeats r (r.FieldMentions id) (Compile.field r enter owner id) := by
  refine lift_bind fun f hf => ?_
  have htype := (outputLink henter f.type true owner f.decl.name).mono fun m hm =>
    (⟨f, hf, Or.inl hm⟩ : r.FieldMentions id m)
  have harguments := (arguments henter owner f).mono fun m hm =>
    (⟨f, hf, Or.inr hm⟩ : r.FieldMentions id m)
  exact htype.bind fun _ => harguments.bind fun _ => pure _

theorem fields (henter : Enterable r enter) (owner : String) (ids : List NodeId) :
    ∀ compiled, Repeats r (fun m => ∃ i ∈ ids, r.FieldMentions i m)
      (Compile.fields r enter owner ids compiled) := by
  induction ids with
  | nil => exact fun compiled => pure _
  | cons id rest ih =>
      intro compiled
      have hfirst := (field henter owner id).mono fun m hm =>
        (⟨id, List.mem_cons_self, hm⟩ : ∃ i ∈ id :: rest, r.FieldMentions i m)
      refine hfirst.bind fun _ => (ih _).mono fun m hm => ?_
      exact hm.imp fun i hi => ⟨List.mem_cons_of_mem id hi.1, hi.2⟩

theorem interfaceNames (henter : Enterable r enter) (ids : List NodeId) :
    Repeats r (fun m => ∃ i ∈ ids, m = .node i) (Compile.interfaceNames r enter ids) := by
  induction ids with
  | nil => exact pure _
  | cons id rest ih =>
      have hfirst := (nodeRef henter id).mono fun m hm =>
        (⟨id, List.mem_cons_self, hm⟩ : ∃ i ∈ id :: rest, m = .node i)
      have hrest := ih.mono fun m hm =>
        (hm.imp fun i hi => ⟨List.mem_cons_of_mem id hi.1, hi.2⟩ : ∃ i ∈ id :: rest, m = .node i)
      exact hfirst.bind fun _ => hrest.bind fun _ => pure _

theorem objectBody (henter : Enterable r enter) {id : NodeId} {n : ObjectNode}
    (hn : r.node id = .object n) :
    Repeats r (r.Leads id) (Compile.objectBody r enter id) := by
  refine lift_bind fun chain hchain => ?_
  have hleads {m : Mention} := Registry.leads_object (m := m) hn hchain
  have hinterfaces := (interfaceNames henter (chainInterfaces r chain)).mono fun m hm =>
    hleads.mpr (Or.inl hm)
  have hfields := (fields henter (r.node id).displayName (Meaning.objectFieldIds r chain) ∅).mono
    fun m hm => hleads.mpr (Or.inr hm)
  exact hinterfaces.bind fun _ => hfields.bind fun _ => pure _

end Repeats

end Compile

end SchemaGraph
