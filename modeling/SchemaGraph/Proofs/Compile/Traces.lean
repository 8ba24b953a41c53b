import SchemaGraph.Proofs.Compile.Requests

/-!
# What a run leaves behind

A run of the compiler may fail, and what it kept before that stays kept. A fact about all
states a compiler can get into therefore has to look at the state that is left behind in
either case. Such a fact relates the state before a run to the state after it, and it is
proved by looking at the few places where the compiler touches its state: `Traces` says what
has to be checked there, and everything else is passing the runs on.

A type is built with its node marked as in progress, and kept when the mark is taken away.
Both happen in one step here, since between them the state is not one that anybody sees; the
relation is then known of what was done while the mark was set.
-/

set_option autoImplicit false

namespace SchemaGraph

namespace Compile

variable {α β : Type} {s s' : CompileState}

/-- The state that a run leaves behind, whether it answers or fails. -/
def stateAfter (x : CompileM α) (s : CompileState) : CompileState :=
  match x s with
  | .ok _ s' => s'
  | .error _ s' => s'

theorem stateAfter_ok {x : CompileM α} {a : α} (h : x s = .ok a s') : stateAfter x s = s' := by
  rw [stateAfter, h]

theorem stateAfter_error {x : CompileM α} {e : SchemaError} (h : x s = .error e s') :
    stateAfter x s = s' := by
  rw [stateAfter, h]

theorem stateAfter_lift (x : Except SchemaError α) : stateAfter (lift x) s = s := by
  cases x <;> rfl

theorem stateAfter_bind {x : CompileM α} {a : α} (h : x s = .ok a s') (f : α → CompileM β) :
    stateAfter (x >>= f) s = stateAfter (f a) s' := by
  show stateAfter (EStateM.bind x f) s = _
  unfold stateAfter EStateM.bind
  rw [h]

theorem stateAfter_map (f : α → β) (x : CompileM α) :
    stateAfter (f <$> x) s = stateAfter x s := by
  cases h : x s with
  | ok a s' => rw [stateAfter_ok h, stateAfter_ok (map_eq_ok.mpr ⟨a, h, rfl⟩)]
  | error e s' => rw [stateAfter_error h, stateAfter_error (map_eq_error h)]

/-! ## Relations between states -/

/-- The relation holds between the states before and after everything the compiler does to
its state. -/
structure Traces (r : Registry) (R : CompileState → CompileState → Prop) : Prop where
  refl : ∀ s, R s s
  trans : ∀ {s s' s''}, R s s' → R s' s'' → R s s''
  shape : ∀ s id shape?, R s { s with shapes := s.shapes.insert id shape? }
  dispatch : ∀ {s id} d, s.dispatches.find? id = none →
    R s { s with dispatches := s.dispatches.insert id d }
  scalar : ∀ {s} {d : ScalarDef}, d.builtin = false → s.given.contains d.name = false →
    checkName d.name = .ok () → R s { s with given := s.given.insert d.name (.scalar d) }
  enum : ∀ {s} {d : EnumDef}, s.given.contains d.name = false → checkName d.name = .ok () →
    (d.values.forM fun v => checkName v.name) = .ok () →
    R s { s with given := s.given.insert d.name (.enum d) }
  /-- The name of a union was free before its members were compiled. -/
  union : ∀ {s s'} {d : UnionDef} {u : CompiledUnion}, s.given.find? d.name = none →
    checkName d.name = .ok () → u.name = d.name → R s s' →
    R s { s' with
      unionMembers := s'.unionMembers.insert d.name d.members
      given := s'.given.insert d.name (.union u) }
  marked : ∀ {s s' id}, s.inProgress.contains id = false →
    R { s with inProgress := s.inProgress.insert id } s' →
    R s { s' with inProgress := s'.inProgress.erase id }
  object : ∀ {s s' id} (t : CompiledObject), s.inProgress.contains id = false →
    (r.node id).isObject = true → s.objects.find? id = none →
    R { s with inProgress := s.inProgress.insert id } s' →
    R s { s' with
      inProgress := s'.inProgress.erase id
      objects := s'.objects.insert id t }
  /-- Between building an interface and keeping it its dispatch table may be kept. -/
  interface : ∀ {s s' s'' id} (t : CompiledInterface), s.inProgress.contains id = false →
    (r.node id).isInterface = true → s.interfaces.find? id = none →
    R { s with inProgress := s.inProgress.insert id } s' →
    R { s' with inProgress := s'.inProgress.erase id } s'' → s''.interfaces = s'.interfaces →
    R s { s'' with interfaces := s''.interfaces.insert id t }
  inputObject : ∀ {s s' id} (t : CompiledInputObject), s.inProgress.contains id = false →
    (r.node id).isInputObject = true → s.inputObjects.find? id = none →
    R { s with inProgress := s.inProgress.insert id } s' →
    R s { s' with
      inProgress := s'.inProgress.erase id
      inputObjects := s'.inputObjects.insert id t }

/-- Every run of `x` stays in the relation. -/
def Traced (R : CompileState → CompileState → Prop) (x : CompileM α) : Prop :=
  ∀ s, R s (stateAfter x s)

variable {r : Registry} {R : CompileState → CompileState → Prop}
  {enter : NodeId → CompileM Unit}

namespace Traces

/-! ### Computations -/

theorem pure (hR : Traces r R) (a : α) : Traced R (Pure.pure a) := hR.refl

theorem throw (hR : Traces r R) (e : SchemaError) :
    Traced R (MonadExcept.throw e : CompileM α) := hR.refl

theorem bind_at (hR : Traces r R) {x : CompileM α} {f : α → CompileM β}
    (hx : R s (stateAfter x s))
    (hf : ∀ a s', x s = .ok a s' → R s' (stateAfter (f a) s')) :
    R s (stateAfter (x >>= f) s) := by
  cases h : x s with
  | ok a s' =>
      rw [stateAfter_ok h] at hx
      rw [stateAfter_bind h]
      exact hR.trans hx (hf a s' h)
  | error e s' =>
      rw [stateAfter_error (bind_eq_error h), ← stateAfter_error h]
      exact hx

theorem bind (hR : Traces r R) {x : CompileM α} {f : α → CompileM β} (hx : Traced R x)
    (hf : ∀ a, Traced R (f a)) : Traced R (x >>= f) := fun s =>
  hR.bind_at (hx s) fun a s' _ => hf a s'

/-- What does not touch the state is not noticed. -/
theorem lift_bind_at (hR : Traces r R) {x : Except SchemaError α} {f : α → CompileM β}
    (hf : ∀ a, x = .ok a → R s (stateAfter (f a) s)) :
    R s (stateAfter (Compile.lift x >>= f) s) := by
  refine hR.bind_at (by rw [stateAfter_lift]; exact hR.refl s) fun a s' h => ?_
  obtain ⟨hx, rfl⟩ := lift_eq_ok.mp h
  exact hf a hx

theorem lift_bind (hR : Traces r R) {x : Except SchemaError α} {f : α → CompileM β}
    (hf : ∀ a, x = .ok a → Traced R (f a)) : Traced R (Compile.lift x >>= f) := fun s =>
  hR.lift_bind_at fun a h => hf a h s

theorem get_bind_at {f : CompileState → CompileM α} (hf : R s (stateAfter (f s) s)) :
    R s (stateAfter (get >>= f) s) := hf

theorem get_bind {f : CompileState → CompileM α}
    (hf : ∀ s, R s (stateAfter (f s) s)) : Traced R (get >>= f) := fun s => get_bind_at (hf s)

theorem discard_at {x : CompileM α} (hx : R s (stateAfter x s)) :
    R s (stateAfter (Functor.discard x) s) := (stateAfter_map _ x).symm ▸ hx

theorem forM (hR : Traces r R) {f : α → CompileM PUnit} {l : List α}
    (hf : ∀ a, Traced R (f a)) : Traced R (l.forM f) := by
  induction l with
  | nil => exact hR.pure _
  | cons a rest ih => exact hR.bind (hf a) fun _ => ih

/-! ### Shapes -/

theorem shapeOfExpr (hR : Traces r R) (henter : ∀ id, Traced R (enter id)) (t : TypeExpr) :
    Traced R (Compile.shapeOfExpr r enter t) := by
  induction t with
  | ref t =>
      refine hR.lift_bind fun id _ => ?_
      split
      · exact hR.bind (henter id) fun _ => hR.pure _
      · exact hR.pure _
  | scalar _ | enum _ | union _ => exact hR.pure _
  | list item ih => exact hR.bind ih fun _ => hR.pure _
  | nullable inner ih => exact ih

theorem shapeOfLink (hR : Traces r R) (henter : ∀ id, Traced R (enter id)) (l : Link) :
    Traced R (Compile.shapeOfLink r enter l) := by
  cases l with
  | node id =>
      simp only [Compile.shapeOfLink]
      split
      · exact hR.bind (henter id) fun _ => hR.pure _
      · exact hR.pure _
  | given t => exact hR.shapeOfExpr henter t

theorem fieldShapes (hR : Traces r R) (henter : ∀ id, Traced R (enter id))
    (ids : List NodeId) : Traced R (Compile.fieldShapes r enter ids) := by
  induction ids with
  | nil => exact hR.pure _
  | cons id rest ih =>
      exact hR.lift_bind fun field _ => hR.bind (hR.shapeOfLink henter field.type) fun _ =>
        hR.bind ih fun _ => hR.pure _

theorem keepShape (hR : Traces r R) (id : NodeId) (shape? : Option InputObjectShape) :
    Traced R (Compile.keepShape id shape?) := fun s => hR.shape s id shape?

theorem inputShapeWithin (hR : Traces r R) (depth : Nat) (id : NodeId) :
    Traced R (Compile.inputShapeWithin r depth id) := by
  induction depth generalizing id with
  | zero => exact hR.throw _
  | succ depth ih =>
      refine get_bind fun s => ?_
      dsimp only
      split
      · exact hR.refl s
      · split
        · exact hR.bind (hR.keepShape id none) (fun _ => hR.bind (hR.fieldShapes ih _)
            fun _ => hR.keepShape id _) s
        · exact hR.refl s

theorem argMapping (hR : Traces r R) (arg : LinkedArg) :
    Traced R (Compile.argMapping r arg) := by
  have hinput : ∀ id, Traced R (Compile.inputShape r id) := hR.inputShapeWithin _
  have hshape : Traced R (valueShape r arg.type) := hR.shapeOfLink hinput arg.type
  unfold Compile.argMapping
  split
  · split
    · exact hR.bind (hinput _) fun _ => hR.pure _
    · exact hR.bind hshape fun _ => hR.pure _
  · exact hR.bind hshape fun _ => hR.pure _

/-! ### References -/

theorem interfaceDispatch (hR : Traces r R) (id : NodeId) :
    Traced R (Compile.interfaceDispatch r id) := by
  refine get_bind fun s => ?_
  split
  · exact hR.refl s
  · next hfree => exact hR.lift_bind_at fun _ _ => hR.dispatch _ hfree

theorem nodeRef (hR : Traces r R) (henter : ∀ id, Traced R (enter id)) (id : NodeId) :
    Traced R (Compile.nodeRef r enter id) := by
  unfold Compile.nodeRef
  cases r.node id with
  | object n => exact hR.bind (henter id) fun _ => hR.pure _
  | interface n =>
      exact hR.bind (henter id) fun _ => hR.bind (hR.interfaceDispatch id) fun _ => hR.pure _
  | inputObject n => exact hR.bind (henter id) fun _ => hR.pure _
  | field _ | args _ | arg _ | inputField _ | implement _ => exact hR.throw _

theorem keepScalar (hR : Traces r R) (d : ScalarDef) : Traced R (Compile.keepScalar d) := by
  refine get_bind fun s => ?_
  split
  · next hkeep =>
      simp only [Bool.not_eq_eq_eq_not, Bool.not_true] at hkeep
      exact hR.lift_bind_at fun _ hname => hR.scalar hkeep.1 hkeep.2 hname
  · exact hR.refl s

theorem keepEnum (hR : Traces r R) (d : EnumDef) : Traced R (Compile.keepEnum d) := by
  refine get_bind fun s => ?_
  split
  · next hkeep =>
      simp only [Bool.not_eq_eq_eq_not, Bool.not_true] at hkeep
      exact hR.lift_bind_at fun _ hname => hR.lift_bind_at fun _ hnames =>
        hR.enum hkeep hname hnames
  · exact hR.refl s

theorem unionMembers (hR : Traces r R) (henter : ∀ id, Traced R (enter id))
    (members : List HostType) : Traced R (Compile.unionMembers r enter members) := by
  induction members with
  | nil => exact hR.pure _
  | cons t rest ih =>
      refine hR.lift_bind fun id _ => ?_
      dsimp only
      split
      · exact hR.throw _
      · exact hR.bind (henter id) fun _ => hR.lift_bind fun _ _ =>
          hR.bind ih fun _ => hR.pure _

theorem unionDispatch (hR : Traces r R) (henter : ∀ id, Traced R (enter id)) (d : UnionDef) :
    Traced R (Compile.unionDispatch r enter d) := by
  refine get_bind fun s => ?_
  split
  · split <;> exact hR.refl s
  · exact hR.refl s
  · next hfree =>
      refine hR.lift_bind_at fun _ hname => ?_
      have hmembers := hR.unionMembers henter d.members s
      cases h : Compile.unionMembers r enter d.members s with
      | ok found s₁ =>
          rw [stateAfter_ok h] at hmembers
          rw [stateAfter_bind h]
          obtain ⟨members, descendants⟩ := found
          exact hR.union hfree hname rfl hmembers
      | error e s₁ =>
          rw [stateAfter_error h] at hmembers
          rw [stateAfter_error (bind_eq_error h)]
          exact hmembers

theorem expr (hR : Traces r R) (henter : ∀ id, Traced R (enter id)) (t : TypeExpr) :
    ∀ nonNull, Traced R (Compile.expr r enter nonNull t) := by
  induction t with
  | ref t =>
      exact fun nonNull => hR.lift_bind fun id _ =>
        hR.bind (hR.nodeRef henter id) fun _ => hR.pure _
  | scalar d => exact fun nonNull => hR.bind (hR.keepScalar d) fun _ => hR.pure _
  | enum d => exact fun nonNull => hR.bind (hR.keepEnum d) fun _ => hR.pure _
  | union d => exact fun nonNull => hR.bind (hR.unionDispatch henter d) fun _ => hR.pure _
  | list item ih => exact fun nonNull => hR.bind (ih true) fun _ => hR.pure _
  | nullable inner ih => exact fun nonNull => hR.bind (ih false) fun _ => hR.pure _

theorem link (hR : Traces r R) (henter : ∀ id, Traced R (enter id)) (l : Link)
    (nonNull : Bool) : Traced R (Compile.link r enter l nonNull) := by
  cases l with
  | node id => exact hR.bind (hR.nodeRef henter id) fun _ => hR.pure _
  | given t => exact hR.expr henter t nonNull

theorem outputLink (hR : Traces r R) (henter : ∀ id, Traced R (enter id)) (l : Link)
    (nonNull : Bool) (owner field : String) :
    Traced R (Compile.outputLink r enter l nonNull owner field) := by
  refine hR.bind (hR.link henter l nonNull) fun c => ?_
  split
  · exact hR.pure _
  · exact hR.throw _

theorem inputLink (hR : Traces r R) (henter : ∀ id, Traced R (enter id)) (l : Link)
    (nonNull : Bool) (owner field : String) :
    Traced R (Compile.inputLink r enter l nonNull owner field) := by
  refine hR.bind (hR.link henter l nonNull) fun c => ?_
  split
  · exact hR.pure _
  · exact hR.throw _

/-! ### Fields and arguments -/

theorem inputs (hR : Traces r R) (henter : ∀ id, Traced R (enter id)) (owner : String)
    {ids : List NodeId} : ∀ compiled, Traced R (Compile.inputs r enter owner ids compiled) := by
  induction ids with
  | nil => exact fun compiled => hR.pure _
  | cons id rest ih =>
      exact fun compiled => hR.lift_bind fun field _ =>
        hR.bind (hR.inputLink henter field.type true owner _) fun _ => ih _

theorem arguments (hR : Traces r R) (henter : ∀ id, Traced R (enter id)) (owner : String)
    (f : LinkedField) : Traced R (Compile.arguments r enter owner f) := by
  unfold Compile.arguments
  split
  · exact hR.throw _
  · exact hR.bind (hR.inputLink henter _ true owner _) fun _ =>
      hR.bind (hR.argMapping _) fun _ => hR.pure _
  · next id _ _ =>
      dsimp only
      split
      · exact hR.throw _
      · exact hR.bind (hR.inputs henter _ _) fun _ =>
          hR.bind (hR.inputShapeWithin _ id) fun _ => hR.pure _
  · exact hR.pure _

theorem field (hR : Traces r R) (henter : ∀ id, Traced R (enter id)) (owner : String)
    (id : NodeId) : Traced R (Compile.field r enter owner id) :=
  hR.lift_bind fun f _ => hR.bind (hR.outputLink henter f.type true owner _) fun _ =>
    hR.bind (hR.arguments henter owner f) fun _ => hR.pure _

theorem fields (hR : Traces r R) (henter : ∀ id, Traced R (enter id)) (owner : String)
    {ids : List NodeId} : ∀ compiled, Traced R (Compile.fields r enter owner ids compiled) := by
  induction ids with
  | nil => exact fun compiled => hR.pure _
  | cons id rest ih =>
      exact fun compiled => hR.bind (hR.field henter owner id) fun _ => ih _

/-! ### Declared types

A type that is in progress is not built again, so these are asked for it only when it is
not. -/

theorem interfaceNames (hR : Traces r R) (henter : ∀ id, Traced R (enter id))
    (ids : List NodeId) : Traced R (Compile.interfaceNames r enter ids) := by
  induction ids with
  | nil => exact hR.pure _
  | cons id rest ih =>
      exact hR.bind (hR.nodeRef henter id) fun _ => hR.bind ih fun _ => hR.pure _

theorem objectBody (hR : Traces r R) (henter : ∀ id, Traced R (enter id)) (id : NodeId) :
    Traced R (Compile.objectBody r enter id) :=
  hR.lift_bind fun _ _ => hR.bind (hR.interfaceNames henter _) fun _ =>
    hR.bind (hR.fields henter _ _) fun _ => hR.pure _

/-- What is built is related to the state in which it was marked. -/
theorem inProgress_at (hR : Traces r R) {x : CompileM α} {f : α → CompileM β} {id : NodeId}
    (hx : Traced R x) (hidle : s.inProgress.contains id = false)
    (hf : ∀ a s', R { s with inProgress := s.inProgress.insert id } s' →
      R s (stateAfter (f a) { s' with inProgress := s'.inProgress.erase id })) :
    R s (stateAfter (Compile.inProgress id x >>= f) s) := by
  have hbuilt := hx { s with inProgress := s.inProgress.insert id }
  cases h : x { s with inProgress := s.inProgress.insert id } with
  | ok a s' =>
      rw [stateAfter_ok h] at hbuilt
      rw [stateAfter_bind (inProgress_eq_ok.mpr ⟨s', h, rfl⟩)]
      exact hf a s' hbuilt
  | error e s' =>
      rw [stateAfter_error h] at hbuilt
      have hrun : Compile.inProgress id x s
          = .error e { s' with inProgress := s'.inProgress.erase id } := by
        rw [Compile.inProgress, h]
      rw [stateAfter_error (bind_eq_error hrun)]
      exact hR.marked hidle hbuilt

theorem objectWith (hR : Traces r R) (henter : ∀ id, Traced R (enter id)) {id : NodeId}
    (hidle : s.inProgress.contains id = false) :
    R s (stateAfter (Compile.objectWith r enter id) s) := by
  refine get_bind_at ?_
  split
  · exact hR.refl s
  · next hfree =>
      cases hn : r.node id with
      | object n =>
          exact hR.inProgress_at (hR.objectBody henter id) hidle fun _ s' hbuilt =>
            hR.object _ hidle (by simp [hn, Node.isObject, Node.object?]) hfree hbuilt
      | interface _ | inputObject _ | field _ | args _ | arg _ | inputField _ | implement _ =>
          exact hR.refl s

theorem inputObjectWith (hR : Traces r R) (henter : ∀ id, Traced R (enter id)) {id : NodeId}
    (hidle : s.inProgress.contains id = false) :
    R s (stateAfter (Compile.inputObjectWith r enter id) s) := by
  refine get_bind_at ?_
  split
  · exact hR.refl s
  · next hfree =>
      cases hn : r.node id with
      | inputObject n =>
          exact hR.inProgress_at (hR.inputs henter _ _) hidle fun _ s' hbuilt =>
            hR.inputObject _ hidle (by simp [hn, Node.isInputObject, Node.inputObject?]) hfree
              hbuilt
      | object _ | interface _ | field _ | args _ | arg _ | inputField _ | implement _ =>
          exact hR.refl s

/-- Looking up the dispatch table of an interface does not keep the interface. -/
theorem interfaces_after_interfaceDispatch (id : NodeId) :
    (stateAfter (Compile.interfaceDispatch r id) s).interfaces = s.interfaces := by
  refine get_bind_at (R := fun s s' => s'.interfaces = s.interfaces) ?_
  split
  · rfl
  · cases r.implementers id <;> rfl

theorem interfaceWith (hR : Traces r R) (henter : ∀ id, Traced R (enter id)) {id : NodeId}
    (hidle : s.inProgress.contains id = false) :
    R s (stateAfter (Compile.interfaceWith r enter id) s) := by
  refine get_bind_at ?_
  split
  · exact hR.refl s
  · next hfree =>
      cases hn : r.node id with
      | interface n =>
          have hinterface : (r.node id).isInterface = true := by
            simp [hn, Node.isInterface, Node.interface?]
          refine hR.inProgress_at (hR.fields henter _ _) hidle fun built s' hbuilt => ?_
          have hdispatch := hR.interfaceDispatch id { s' with inProgress := s'.inProgress.erase id }
          have hkept := interfaces_after_interfaceDispatch (r := r)
            (s := { s' with inProgress := s'.inProgress.erase id }) id
          cases h : Compile.interfaceDispatch r id
              { s' with inProgress := s'.inProgress.erase id } with
          | ok dispatch s'' =>
              rw [stateAfter_ok h] at hdispatch hkept
              rw [stateAfter_bind h]
              exact hR.trans (hR.interface _ hidle hinterface hfree hbuilt hdispatch hkept)
                (hR.lift_bind (fun _ _ => hR.bind (hR.forM henter) fun _ => hR.pure _) _)
          | error e s'' =>
              rw [stateAfter_error h] at hdispatch
              rw [stateAfter_error (bind_eq_error h)]
              exact hR.trans (hR.marked hidle hbuilt) hdispatch
      | object _ | inputObject _ | field _ | args _ | arg _ | inputField _ | implement _ =>
          exact hR.refl s

theorem compileWithin (hR : Traces r R) (depth : Nat) (id : NodeId) :
    Traced R (Compile.compileWithin r depth id) := by
  induction depth generalizing id with
  | zero => exact hR.throw _
  | succ depth ih =>
      refine get_bind fun s => ?_
      split
      · exact hR.refl s
      · next hidle =>
          have hidle : s.inProgress.contains id = false := Bool.eq_false_iff.mpr hidle
          split
          · exact discard_at (hR.objectWith ih hidle)
          · exact discard_at (hR.interfaceWith ih hidle)
          · exact discard_at (hR.inputObjectWith ih hidle)
          · exact hR.refl s

theorem entered (hR : Traces r R) (id : NodeId) : Traced R (Compile.enter r id) :=
  hR.compileWithin _ id

theorem namedType (hR : Traces r R) (l : Link) : Traced R (Compile.namedType r l) := by
  refine hR.bind (hR.link hR.entered l false) fun c => ?_
  split
  · exact hR.throw _
  · refine get_bind fun s => ?_
    split <;> exact hR.refl s

end Traces

end Compile

open Compile

theorem Request.after_eq_stateAfter (r : Registry) (q : Request) (s : CompileState) :
    q.after r s = stateAfter (q.ask r) s := by
  unfold after stateAfter
  cases q.ask r s <;> rfl

/-- A request to a compiler with nothing in progress stays in the relation, whether it is
answered or fails. -/
theorem Request.traced {r : Registry} {R : CompileState → CompileState → Prop}
    (hR : Traces r R) (q : Request) {s : CompileState} (hs : s.inProgress = []) :
    R s (q.after r s) := by
  have hidle : ∀ id, s.inProgress.contains id = false := fun id => by simp [hs]
  rw [after_eq_stateAfter]
  cases q with
  | type l nonNull =>
      exact (stateAfter_map _ _).symm ▸ hR.link hR.entered l nonNull s
  | outputType l nonNull owner field =>
      exact (stateAfter_map _ _).symm ▸ hR.outputLink hR.entered l nonNull owner field s
  | inputType l nonNull owner field =>
      exact (stateAfter_map _ _).symm ▸ hR.inputLink hR.entered l nonNull owner field s
  | object id => exact (stateAfter_map _ _).symm ▸ hR.objectWith hR.entered (hidle id)
  | interface id => exact (stateAfter_map _ _).symm ▸ hR.interfaceWith hR.entered (hidle id)
  | inputObject id => exact (stateAfter_map _ _).symm ▸ hR.inputObjectWith hR.entered (hidle id)
  | named l => exact (stateAfter_map _ _).symm ▸ hR.namedType l s
  | fieldMap owner ids => exact (stateAfter_map _ _).symm ▸ hR.fields hR.entered owner ∅ s

end SchemaGraph
