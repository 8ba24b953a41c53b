import SchemaGraph.Compile.Requests
import SchemaGraph.Proofs.Declared.Ends

/-!
# Runs that agree

The compiler descends from type to type with a bound on the depth, and a descent that
comes to the bound is given up. That the bound is bookkeeping is a statement about two
runs: with one bound and with another the compiler does the same. `Agree` is that
statement with what an induction needs beside it, namely that neither run is given up
and that an answer leaves the compiler in a state from which the next runs agree too.

Most of the compiler passes the descent on without looking at it, and there agreement
is a matter of taking runs apart. It has to be proved of all parts nonetheless.
-/

set_option autoImplicit false

namespace SchemaGraph.Compile

variable {α β : Type} {P Q R : CompileState → Prop}

/-- From a state in `P` the two do the same, and they are not given up. An answer leaves
a state in `Q` behind. -/
def Agree (P Q : CompileState → Prop) (x y : CompileM α) : Prop :=
  ∀ s, P s → x s = y s ∧ (∀ e s', x s = .error e s' → e.isEndless = false) ∧
    ∀ a s', x s = .ok a s' → Q s'

namespace Agree

theorem imp {P' Q' : CompileState → Prop} {x y : CompileM α} (h : Agree P Q x y)
    (hP : ∀ s, P' s → P s) (hQ : ∀ s, Q s → Q' s) : Agree P' Q' x y := by
  intro s hs
  obtain ⟨hsame, herror, hok⟩ := h s (hP s hs)
  exact ⟨hsame, herror, fun a s' ha => hQ s' (hok a s' ha)⟩

theorem pure (h : ∀ s, P s → Q s) (a : α) : Agree P Q (Pure.pure a) (Pure.pure a) := by
  refine fun s hs => ⟨rfl, fun _ _ he => (nomatch he), ?_⟩
  rintro _ _ ⟨⟩
  exact h s hs

theorem answer (a : α) : Agree P P (Pure.pure a) (Pure.pure a) := pure (fun _ hs => hs) a

theorem throw {e : SchemaError} (h : e.isEndless = false) :
    Agree P Q (MonadExcept.throw e : CompileM α) (MonadExcept.throw e) := by
  refine fun s _ => ⟨rfl, ?_, fun _ _ ha => (nomatch ha)⟩
  rintro _ _ ⟨⟩
  exact h

theorem lift {x : Except SchemaError α} (h : Ends x) :
    Agree P P (Compile.lift x) (Compile.lift x) := by
  cases x with
  | ok a => exact answer a
  | error e => exact throw (h e rfl)

theorem modify {f : CompileState → CompileState} (h : ∀ s, P s → Q (f s)) :
    Agree P Q (modify f : CompileM Unit) (modify f) := by
  refine fun s hs => ⟨rfl, fun _ _ he => (nomatch he), ?_⟩
  rintro _ _ ⟨⟩
  exact h s hs

theorem bind {x y : CompileM α} {f g : α → CompileM β} (hx : Agree P Q x y)
    (hf : ∀ a, Agree Q R (f a) (g a)) : Agree P R (x >>= f) (y >>= g) := by
  intro s hs
  obtain ⟨hsame, herror, hok⟩ := hx s hs
  show EStateM.bind x f s = EStateM.bind y g s ∧
    (∀ e s', EStateM.bind x f s = .error e s' → e.isEndless = false) ∧
    ∀ b s', EStateM.bind x f s = .ok b s' → R s'
  unfold EStateM.bind
  rw [← hsame]
  cases hrun : x s with
  | ok a s₁ => exact hf a s₁ (hok a s₁ hrun)
  | error e s₁ =>
      refine ⟨rfl, ?_, fun _ _ ha => (nomatch ha)⟩
      rintro _ _ ⟨⟩
      exact herror e s₁ hrun

theorem map {x y : CompileM α} (f : α → β) (hx : Agree P Q x y) :
    Agree P Q (f <$> x) (f <$> y) := by
  intro s hs
  obtain ⟨hsame, herror, hok⟩ := hx s hs
  show EStateM.map f x s = EStateM.map f y s ∧
    (∀ e s', EStateM.map f x s = .error e s' → e.isEndless = false) ∧
    ∀ b s', EStateM.map f x s = .ok b s' → Q s'
  unfold EStateM.map
  rw [← hsame]
  cases hrun : x s with
  | ok a s₁ =>
      refine ⟨rfl, fun _ _ he => (nomatch he), ?_⟩
      rintro _ _ ⟨⟩
      exact hok a s₁ hrun
  | error e s₁ =>
      refine ⟨rfl, ?_, fun _ _ ha => (nomatch ha)⟩
      rintro _ _ ⟨⟩
      exact herror e s₁ hrun

theorem discard {x y : CompileM α} (hx : Agree P Q x y) :
    Agree P Q (Functor.discard x) (Functor.discard y) := map _ hx

/-- What follows on a look at the state may rely on what was seen. -/
theorem get_bind {f g : CompileState → CompileM α}
    (h : ∀ t, P t → Agree (· = t) Q (f t) (g t)) :
    Agree P Q (get >>= f) (get >>= g) := fun s hs => h s hs s rfl

theorem forM {e₁ e₂ : α → CompileM PUnit} (h : ∀ a, Agree P P (e₁ a) (e₂ a)) (l : List α) :
    Agree P P (l.forM e₁) (l.forM e₂) := by
  induction l with
  | nil => exact answer _
  | cons a rest ih => exact bind (h a) fun _ => ih

end Agree

variable {r : Registry} {e₁ e₂ : NodeId → CompileM Unit}

/-! ## Shapes -/

theorem shapeOfExpr_agree (henter : ∀ id, Agree P P (e₁ id) (e₂ id)) (t : TypeExpr) :
    Agree P P (shapeOfExpr r e₁ t) (shapeOfExpr r e₂ t) := by
  induction t with
  | ref t =>
      simp only [shapeOfExpr]
      refine (Agree.lift (r.getNode_ends t)).bind fun id => ?_
      split
      · exact (henter id).bind fun _ => .answer _
      · exact .answer _
  | scalar _ | enum _ | union _ => exact .answer _
  | list item ih => exact ih.bind fun _ => .answer _
  | nullable inner ih => exact ih

theorem shapeOfLink_agree (henter : ∀ id, Agree P P (e₁ id) (e₂ id)) (l : Link) :
    Agree P P (shapeOfLink r e₁ l) (shapeOfLink r e₂ l) := by
  cases l with
  | node id =>
      simp only [shapeOfLink]
      split
      · exact (henter id).bind fun _ => .answer _
      · exact .answer _
  | given t => exact shapeOfExpr_agree henter t

theorem fieldShapes_agree (henter : ∀ id, Agree P P (e₁ id) (e₂ id)) (ids : List NodeId) :
    Agree P P (fieldShapes r e₁ ids) (fieldShapes r e₂ ids) := by
  induction ids with
  | nil => exact .answer _
  | cons id rest ih =>
      exact (Agree.lift (r.linkInput_ends id)).bind fun _ =>
        (shapeOfLink_agree henter _).bind fun _ =>
          ih.bind fun _ => .answer _

/-! ## References -/

/-- Nothing in the state matters but what is in progress, which declared types are kept,
and which shapes are known. -/
structure Blind (P : CompileState → Prop) : Prop where
  dispatch : ∀ {s} id d, P s → P { s with dispatches := s.dispatches.insert id d }
  given : ∀ {s} name t, P s → P { s with given := s.given.insert name t }
  unionMembers : ∀ {s} name members,
    P s → P { s with unionMembers := s.unionMembers.insert name members }

theorem keepGiven_agree (hP : Blind P) (t : CompiledType) :
    Agree P P (keepGiven t) (keepGiven t) := .modify fun _ => hP.given t.name t

theorem interfaceDispatch_agree (hP : Blind P) (id : NodeId) :
    Agree P P (interfaceDispatch r id) (interfaceDispatch r id) := by
  refine .get_bind fun t ht => ?_
  split
  · exact .pure (fun s hs => hs ▸ ht) _
  · refine Agree.imp (P := P) (Q := P) ?_ (fun s hs => hs ▸ ht) fun _ hs => hs
    refine (Agree.lift (r.implementers_ends id)).bind fun ids => ?_
    exact (Agree.modify fun s hs => hP.dispatch _ _ hs).bind fun _ =>
      .answer _

theorem nodeRef_agree (hP : Blind P) (henter : ∀ id, Agree P P (e₁ id) (e₂ id))
    (id : NodeId) : Agree P P (nodeRef r e₁ id) (nodeRef r e₂ id) := by
  unfold nodeRef
  cases r.node id with
  | object n => exact (henter id).bind fun _ => .answer _
  | interface n =>
      exact (henter id).bind fun _ => (interfaceDispatch_agree hP id).bind fun _ =>
        .answer _
  | inputObject n => exact (henter id).bind fun _ => .answer _
  | field _ | args _ | arg _ | inputField _ | implement _ => exact .throw rfl

theorem keepScalar_agree (hP : Blind P) (d : ScalarDef) :
    Agree P P (keepScalar d) (keepScalar d) := by
  refine .get_bind fun t ht => Agree.imp (P := P) (Q := P) ?_ (fun s hs => hs ▸ ht)
    fun _ hs => hs
  split
  · exact (Agree.lift (checkName_ends _)).bind fun _ => keepGiven_agree hP _
  · exact .answer _

theorem keepEnum_agree (hP : Blind P) (d : EnumDef) :
    Agree P P (keepEnum d) (keepEnum d) := by
  refine .get_bind fun t ht => Agree.imp (P := P) (Q := P) ?_ (fun s hs => hs ▸ ht)
    fun _ hs => hs
  have hnames : Ends (d.values.forM fun v => checkName v.name) :=
    .forM (fun v : EnumValue => checkName_ends v.name) d.values
  split
  · exact (Agree.lift (checkName_ends _)).bind fun _ => (Agree.lift hnames).bind fun _ =>
      keepGiven_agree hP _
  · exact .answer _

theorem unionMembers_agree (henter : ∀ id, Agree P P (e₁ id) (e₂ id))
    (members : List HostType) :
    Agree P P (unionMembers r e₁ members) (unionMembers r e₂ members) := by
  induction members with
  | nil => exact .answer _
  | cons t rest ih =>
      refine (Agree.lift (r.getNode_ends t)).bind fun id => ?_
      dsimp only
      split
      · exact .throw rfl
      · exact (henter id).bind fun _ => (Agree.lift (r.descendants_ends id)).bind fun _ =>
          ih.bind fun _ => .answer _

theorem unionDispatch_agree (hP : Blind P) (henter : ∀ id, Agree P P (e₁ id) (e₂ id))
    (d : UnionDef) : Agree P P (unionDispatch r e₁ d) (unionDispatch r e₂ d) := by
  refine .get_bind fun t ht => Agree.imp (P := P) (Q := P) ?_ (fun s hs => hs ▸ ht)
    fun _ hs => hs
  split
  · split
    · exact .answer _
    · exact .throw rfl
  · exact .throw rfl
  · refine (Agree.lift (checkName_ends _)).bind fun _ =>
      (unionMembers_agree henter _).bind fun _ => ?_
    exact (Agree.modify fun _ => hP.unionMembers _ _).bind fun _ =>
      (keepGiven_agree hP _).bind fun _ => .answer _

theorem expr_agree (hP : Blind P) (henter : ∀ id, Agree P P (e₁ id) (e₂ id)) (t : TypeExpr) :
    ∀ nonNull, Agree P P (expr r e₁ nonNull t) (expr r e₂ nonNull t) := by
  induction t with
  | ref t =>
      exact fun nonNull => (Agree.lift (r.getNode_ends t)).bind fun id =>
        (nodeRef_agree hP henter id).bind fun _ => .answer _
  | scalar d =>
      exact fun nonNull => (keepScalar_agree hP d).bind fun _ => .answer _
  | enum d =>
      exact fun nonNull => (keepEnum_agree hP d).bind fun _ => .answer _
  | union d =>
      exact fun nonNull => (unionDispatch_agree hP henter d).bind fun _ =>
        .answer _
  | list item ih => exact fun nonNull => (ih true).bind fun _ => .answer _
  | nullable inner ih =>
      exact fun nonNull => (ih false).bind fun _ => .answer _

theorem link_agree (hP : Blind P) (henter : ∀ id, Agree P P (e₁ id) (e₂ id)) (l : Link)
    (nonNull : Bool) : Agree P P (link r e₁ l nonNull) (link r e₂ l nonNull) := by
  cases l with
  | node id => exact (nodeRef_agree hP henter id).bind fun _ => .answer _
  | given t => exact expr_agree hP henter t nonNull

theorem outputLink_agree (hP : Blind P) (henter : ∀ id, Agree P P (e₁ id) (e₂ id)) (l : Link)
    (nonNull : Bool) (owner field : String) :
    Agree P P (outputLink r e₁ l nonNull owner field)
      (outputLink r e₂ l nonNull owner field) := by
  refine (link_agree hP henter l nonNull).bind fun c => ?_
  split
  · exact .answer _
  · exact .throw rfl

theorem inputLink_agree (hP : Blind P) (henter : ∀ id, Agree P P (e₁ id) (e₂ id)) (l : Link)
    (nonNull : Bool) (owner field : String) :
    Agree P P (inputLink r e₁ l nonNull owner field)
      (inputLink r e₂ l nonNull owner field) := by
  refine (link_agree hP henter l nonNull).bind fun c => ?_
  split
  · exact .answer _
  · exact .throw rfl

end SchemaGraph.Compile
