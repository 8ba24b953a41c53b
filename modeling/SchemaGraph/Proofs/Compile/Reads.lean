import SchemaGraph.Proofs.Compile.Failures

/-!
# Compilers that failed are to be trusted

A compiler that has met a failure may lack what it would otherwise have kept: a shape is not
filled, an implementer not compiled. What it has kept is right all the same. Nothing is kept
before it is built, and building looks at what is kept only to leave work out.

So there is less to say than of a compiler that has answered everything, and it is said of
every run: from a state that is faithful to the registry it gets to one that is, whether it
answers or fails, and what it answers is what the registry means.
-/

set_option autoImplicit false

namespace SchemaGraph

open CompileState Compile

variable {α β : Type} {r : Registry} {s s' : CompileState}

namespace CompileState

/-- What is kept is what the registry means, and what is kept under a name has that name. -/
structure Faithful (r : Registry) (s : CompileState) : Prop where
  objects : ∀ {id c}, s.objects.find? id = some c → Meaning.object r id = .ok c
  interfaces : ∀ {id c}, s.interfaces.find? id = some c → Meaning.interface r id = .ok c
  inputObjects : ∀ {id c}, s.inputObjects.find? id = some c → Meaning.inputObject r id = .ok c
  dispatches : ∀ {id d}, s.dispatches.find? id = some d → Meaning.interfaceDispatch r id = .ok d
  given : ∀ {name t}, s.given.find? name = some t → t.name = name ∧ t.isDeclared = false
  /-- The scalars that every schema has are not kept. -/
  scalars : ∀ {name d}, s.given.find? name = some (.scalar d) → d.builtin = false
  unions : ∀ {name u}, s.given.find? name = some (.union u) → ∃ d : UnionDef, d.name = name ∧
    s.unionMembers.find? name = some d.members ∧ Meaning.union r d = .ok u

namespace Faithful

theorem start (r : Registry) : Faithful r {} where
  objects h := nomatch h
  interfaces h := nomatch h
  inputObjects h := nomatch h
  dispatches h := nomatch h
  given h := nomatch h
  scalars h := nomatch h
  unions h := nomatch h

/-- Neither marks nor shapes matter. -/
theorem remark (h : s.Faithful r) (marks : List NodeId) :
    Faithful r { s with inProgress := marks } := { h with }

theorem keepShape (h : s.Faithful r) (id : NodeId) (shape? : Option InputObjectShape) :
    Faithful r { s with shapes := s.shapes.insert id shape? } := { h with }

theorem keepObject {id : NodeId} {c : CompiledObject} (h : s.Faithful r)
    (hc : Meaning.object r id = .ok c) :
    Faithful r { s with objects := s.objects.insert id c } :=
  { h with objects := OrderedMap.forall_find?_insert h.objects hc }

theorem keepInterface {id : NodeId} {c : CompiledInterface} (h : s.Faithful r)
    (hc : Meaning.interface r id = .ok c) :
    Faithful r { s with interfaces := s.interfaces.insert id c } :=
  { h with interfaces := OrderedMap.forall_find?_insert h.interfaces hc }

theorem keepInputObject {id : NodeId} {c : CompiledInputObject} (h : s.Faithful r)
    (hc : Meaning.inputObject r id = .ok c) :
    Faithful r { s with inputObjects := s.inputObjects.insert id c } :=
  { h with inputObjects := OrderedMap.forall_find?_insert h.inputObjects hc }

theorem keepDispatch {id : NodeId} {d : Dispatch} (h : s.Faithful r)
    (hd : Meaning.interfaceDispatch r id = .ok d) :
    Faithful r { s with dispatches := s.dispatches.insert id d } :=
  { h with dispatches := OrderedMap.forall_find?_insert h.dispatches hd }

/-- Something may be kept under its name, a union together with its members. -/
theorem keepGiven {name : String} {t : CompiledType}
    {members : OrderedMap String (List HostType)} (h : s.Faithful r) (hname : t.name = name)
    (ht : t.isDeclared = false) (hscalar : ∀ d, t = .scalar d → d.builtin = false)
    (hmembers : ∀ other, other ≠ name → members.find? other = s.unionMembers.find? other)
    (hunion : ∀ u, t = .union u → ∃ d : UnionDef, d.name = name ∧
      members.find? name = some d.members ∧ Meaning.union r d = .ok u) :
    Faithful r { s with given := s.given.insert name t, unionMembers := members } := by
  refine { h with given := ?_, scalars := ?_, unions := ?_ }
  · exact OrderedMap.forall_find?_insert h.given ⟨hname, ht⟩
  · intro other d hfind
    rw [OrderedMap.find?_insert] at hfind
    split at hfind
    · exact hscalar d (Option.some.inj hfind)
    · exact h.scalars hfind
  · intro other u hfind
    rw [OrderedMap.find?_insert] at hfind
    split at hfind
    · next heq =>
        obtain ⟨d, hd, hfound, hmeaning⟩ := hunion u (Option.some.inj hfind)
        exact ⟨d, hd.trans heq.symm, heq ▸ hfound, hmeaning⟩
    · next hne =>
        obtain ⟨d, hd, hfound, hmeaning⟩ := h.unions hfind
        exact ⟨d, hd, (hmembers other hne).trans hfound, hmeaning⟩

theorem keepScalar {d : ScalarDef} (h : s.Faithful r) (hd : d.builtin = false) :
    Faithful r { s with given := s.given.insert d.name (.scalar d) } := by
  refine h.keepGiven rfl rfl ?_ (fun _ _ => rfl) nofun
  rintro _ ⟨⟩
  exact hd

theorem keepEnum {d : EnumDef} (h : s.Faithful r) :
    Faithful r { s with given := s.given.insert d.name (.enum d) } :=
  h.keepGiven rfl rfl nofun (fun _ _ => rfl) nofun

theorem keepUnion {d : UnionDef} {u : CompiledUnion} (h : s.Faithful r) (hname : u.name = d.name)
    (hu : Meaning.union r d = .ok u) :
    Faithful r { s with
      unionMembers := s.unionMembers.insert d.name d.members
      given := s.given.insert d.name (.union u) } := by
  refine h.keepGiven hname rfl nofun (fun other hne => ?_) ?_
  · rw [OrderedMap.find?_insert, if_neg hne]
  · rintro _ ⟨⟩
    exact ⟨d, rfl, OrderedMap.find?_insert_self _ _ _, hu⟩

end Faithful

end CompileState

namespace Compile

/-! ## Runs -/

/-- From this state the run gets to a faithful one, and answers nothing but `y`. -/
def ReadsAt (r : Registry) (x : CompileM α) (y : Except SchemaError α) (s : CompileState) :
    Prop :=
  (stateAfter x s).Faithful r ∧ ∀ a s', x s = .ok a s' → y = .ok a

/-- The run does so from every faithful state. -/
def Reads (r : Registry) (x : CompileM α) (y : Except SchemaError α) : Prop :=
  ∀ s, s.Faithful r → ReadsAt r x y s

namespace ReadsAt

variable {y z : Except SchemaError α}

theorem pure (hs : s.Faithful r) {a : α} (ha : y = .ok a) : ReadsAt r (Pure.pure a) y s := by
  refine ⟨hs, ?_⟩
  rintro _ _ ⟨⟩
  exact ha

theorem throw (hs : s.Faithful r) (e : SchemaError) :
    ReadsAt r (MonadExcept.throw e : CompileM α) y s := ⟨hs, nofun⟩

/-- One change to the state, and an answer. -/
theorem keep {f : CompileState → CompileState} (hs : (f s).Faithful r) {a : α}
    (ha : y = .ok a) : ReadsAt r (modify f >>= fun _ => Pure.pure a : CompileM α) y s := by
  refine ⟨hs, ?_⟩
  rintro _ _ ⟨⟩
  exact ha

theorem bind {x : CompileM β} {w : Except SchemaError β} {f : β → CompileM α}
    (hx : ReadsAt r x w s) (hf : ∀ b, w = .ok b → Reads r (f b) y) :
    ReadsAt r (x >>= f) y s := by
  obtain ⟨hs, hok⟩ := hx
  cases h : x s with
  | ok b s₁ =>
      rw [stateAfter_ok h] at hs
      obtain ⟨hs', hok'⟩ := hf b (hok b s₁ h) s₁ hs
      refine ⟨by rwa [stateAfter_bind h], fun a s' ha => ?_⟩
      obtain ⟨b', s₂, hb', ha⟩ := bind_eq_ok.mp ha
      cases h.symm.trans hb'
      exact hok' a s' ha
  | error e s₁ =>
      rw [stateAfter_error h] at hs
      refine ⟨by rwa [stateAfter_error (bind_eq_error h)], fun a s' ha => ?_⟩
      cases (bind_eq_error h).symm.trans ha

theorem lift_bind {x : Except SchemaError β} {f : β → CompileM α}
    (hs : s.Faithful r) (hf : ∀ b, x = .ok b → ReadsAt r (f b) y s) :
    ReadsAt r (lift x >>= f) y s := by
  cases x with
  | ok b => exact hf b rfl
  | error e => exact ⟨hs, nofun⟩

theorem map {x : CompileM β} {w : Except SchemaError β} (f : β → α) (hx : ReadsAt r x w s)
    (hy : ∀ b, w = .ok b → y = .ok (f b)) : ReadsAt r (f <$> x) y s := by
  obtain ⟨hs, hok⟩ := hx
  refine ⟨by rwa [stateAfter_map], fun a s' ha => ?_⟩
  obtain ⟨b, hb, rfl⟩ := map_eq_ok.mp ha
  exact hy b (hok b s' hb)

end ReadsAt

namespace Reads

variable {y : Except SchemaError α}

theorem pure {a : α} (ha : y = .ok a) : Reads r (Pure.pure a) y := fun _ hs => .pure hs ha

theorem throw (e : SchemaError) : Reads r (MonadExcept.throw e : CompileM α) y :=
  fun _ hs => .throw hs e

theorem bind {x : CompileM β} {w : Except SchemaError β} {f : β → CompileM α}
    (hx : Reads r x w) (hf : ∀ b, w = .ok b → Reads r (f b) y) : Reads r (x >>= f) y :=
  fun s hs => (hx s hs).bind hf

theorem lift_bind {x : Except SchemaError β} {f : β → CompileM α}
    (hf : ∀ b, x = .ok b → Reads r (f b) y) : Reads r (lift x >>= f) y :=
  fun s hs => .lift_bind hs fun b hb => hf b hb s hs

theorem get_bind {f : CompileState → CompileM α}
    (hf : ∀ s, s.Faithful r → ReadsAt r (f s) y s) : Reads r (get >>= f) y := hf

/-- What is only entered answers nothing. -/
theorem forM {f : β → CompileM PUnit} {l : List β} (hf : ∀ b, Reads r (f b) (.ok ())) :
    Reads r (l.forM f) (.ok ()) := by
  induction l with
  | nil => exact pure rfl
  | cons b rest ih => exact bind (hf b) fun _ _ => ih

theorem inProgress {x : CompileM α} (hx : Reads r x y) (id : NodeId) :
    Reads r (Compile.inProgress id x) y := by
  intro s hs
  obtain ⟨hs', hok⟩ := hx _ (hs.remark (s.inProgress.insert id))
  cases h : x { s with inProgress := s.inProgress.insert id } with
  | ok a s₁ =>
      rw [stateAfter_ok h] at hs'
      have hrun : Compile.inProgress id x s =
          .ok a { s₁ with inProgress := s₁.inProgress.erase id } :=
        inProgress_eq_ok.mpr ⟨s₁, h, rfl⟩
      refine ⟨by rw [stateAfter_ok hrun]; exact hs'.remark _, fun a' s' ha' => ?_⟩
      cases hrun.symm.trans ha'
      exact hok a s₁ h
  | error e s₁ =>
      rw [stateAfter_error h] at hs'
      have hrun := inProgress_eq_error h
      refine ⟨by rw [stateAfter_error hrun]; exact hs'.remark _, fun a' s' ha' => ?_⟩
      cases hrun.symm.trans ha'

end Reads

variable {enter : NodeId → CompileM Unit}

/-- Entering any node is a run that answers nothing. -/
def EntersFaithfully (r : Registry) (enter : NodeId → CompileM Unit) : Prop :=
  ∀ id, Reads r (enter id) (.ok ())

/-! ## Shapes -/

theorem shapeOfExpr_reads (henter : EntersFaithfully r enter) (t : TypeExpr) :
    Reads r (shapeOfExpr r enter t) (Meaning.exprShape r t) := by
  induction t with
  | ref t =>
      refine .lift_bind fun id hid => ?_
      rw [Meaning.exprShape, hid]
      split
      · next hinput => exact (henter id).bind fun _ _ => .pure (congrArg _ (if_pos hinput))
      · next hplain => exact .pure (congrArg _ (if_neg hplain))
  | scalar _ | enum _ | union _ => exact .pure rfl
  | list item ih =>
      refine ih.bind fun shape hshape => .pure ?_
      rw [Meaning.exprShape, hshape]
      rfl
  | nullable inner ih => exact ih

theorem shapeOfLink_reads (henter : EntersFaithfully r enter) (l : Link) :
    Reads r (shapeOfLink r enter l) (Meaning.linkShape r l) := by
  cases l with
  | node id =>
      simp only [shapeOfLink]
      split
      · next hinput => exact (henter id).bind fun _ _ => .pure (congrArg _ (if_pos hinput))
      · next hplain => exact .pure (congrArg _ (if_neg hplain))
  | given t => exact shapeOfExpr_reads henter t

theorem fieldShapes_reads (henter : EntersFaithfully r enter) (ids : List NodeId) :
    Reads r (fieldShapes r enter ids) (Meaning.fieldShapes r ids) := by
  induction ids with
  | nil => exact .pure rfl
  | cons id rest ih =>
      refine .lift_bind fun field hfield => (shapeOfLink_reads henter _).bind fun shape hshape =>
        ih.bind fun shapes hshapes => .pure ?_
      exact Meaning.bind_eq_ok.mpr ⟨field, hfield,
        Meaning.bind_eq_ok.mpr ⟨shape, hshape, Meaning.bind_eq_ok.mpr ⟨shapes, hshapes, rfl⟩⟩⟩

theorem keepShape_reads (id : NodeId) (shape? : Option InputObjectShape) :
    Reads r (keepShape id shape?) (.ok ()) := fun _ hs => ⟨hs.keepShape id shape?, fun _ _ _ => rfl⟩

theorem inputShapeWithin_reads (depth : Nat) : EntersFaithfully r (inputShapeWithin r depth) := by
  induction depth with
  | zero => exact fun id => .throw _
  | succ depth ih =>
      refine fun id => .get_bind fun s hs => ?_
      dsimp only
      split
      · exact .pure hs rfl
      · split
        · refine (keepShape_reads id none s hs).bind fun _ _ => ?_
          exact (fieldShapes_reads ih _).bind fun _ _ => keepShape_reads id _
        · exact .throw hs _

theorem argMapping_reads (arg : LinkedArg) :
    Reads r (argMapping r arg) (Meaning.argMapping r arg) := by
  have hinput : EntersFaithfully r (inputShape r) := inputShapeWithin_reads _
  have hshape : Reads r (valueShape r arg.type) (Meaning.linkShape r arg.type) :=
    shapeOfLink_reads hinput arg.type
  unfold argMapping Meaning.argMapping
  cases harg : arg.type with
  | node id =>
      dsimp only
      split
      · exact (hinput id).bind fun _ _ => .pure rfl
      · next hplain =>
          rw [harg] at hshape
          refine hshape.bind fun shape hmeaning => .pure ?_
          cases hmeaning
          rw [Meaning.nodeShape, if_neg hplain]
  | given t =>
      rw [harg] at hshape
      refine hshape.bind fun shape hmeaning => .pure ?_
      exact Meaning.map_eq_ok.mpr ⟨shape, hmeaning, rfl⟩

/-! ## References -/

theorem interfaceDispatch_reads (id : NodeId) :
    Reads r (interfaceDispatch r id) (Meaning.interfaceDispatch r id) := by
  refine .get_bind fun s hs => ?_
  split
  · next d hd => exact .pure hs (hs.dispatches hd)
  · refine .lift_bind hs fun ids hids => ?_
    have hmeaning : Meaning.interfaceDispatch r id = .ok
        ⟨(r.node id).displayName, .interface,
          ids.map fun i => ((r.node i).type, (r.node i).displayName)⟩ :=
      Meaning.map_eq_ok.mpr ⟨ids, hids, rfl⟩
    exact .keep (hs.keepDispatch hmeaning) hmeaning

theorem nodeRef_reads (henter : EntersFaithfully r enter) (id : NodeId) :
    Reads r (nodeRef r enter id) (Meaning.node r id) := by
  unfold nodeRef Meaning.node
  cases r.node id with
  | object n => exact (henter id).bind fun _ _ => .pure rfl
  | interface n =>
      refine (henter id).bind fun _ _ => (interfaceDispatch_reads id).bind fun d hd => .pure ?_
      exact Meaning.map_eq_ok.mpr ⟨d, hd, rfl⟩
  | inputObject n => exact (henter id).bind fun _ _ => .pure rfl
  | field _ | args _ | arg _ | inputField _ | implement _ => exact .throw _

theorem keepScalar_reads (d : ScalarDef) : Reads r (keepScalar d) (.ok ()) := by
  refine .get_bind fun s hs => ?_
  split
  · next hkeep =>
      simp only [Bool.not_eq_eq_eq_not, Bool.not_true] at hkeep
      exact .lift_bind hs fun _ _ => ⟨hs.keepScalar hkeep.1, fun _ _ _ => rfl⟩
  · exact .pure hs rfl

theorem keepEnum_reads (d : EnumDef) : Reads r (keepEnum d) (.ok ()) := by
  refine .get_bind fun s hs => ?_
  split
  · exact .lift_bind hs fun _ _ => .lift_bind hs fun _ _ => ⟨hs.keepEnum, fun _ _ _ => rfl⟩
  · exact .pure hs rfl

theorem unionMembers_reads (henter : EntersFaithfully r enter) (members : List HostType) :
    Reads r (unionMembers r enter members) (Meaning.unionMembers r members) := by
  induction members with
  | nil => exact .pure rfl
  | cons t rest ih =>
      refine .lift_bind fun id hid => ?_
      dsimp only
      split
      · exact .throw _
      · next hobject =>
          refine (henter id).bind fun _ _ => .lift_bind fun extending hextending =>
            ih.bind fun tables htables => .pure ?_
          simp only [Meaning.unionMembers, Meaning.bind_eq_ok]
          refine ⟨id, hid, ?_⟩
          rw [if_pos (by simpa using hobject)]
          simp only [Meaning.bind_eq_ok]
          exact ⟨extending, hextending, tables, htables, rfl⟩

/-- A union that is kept has the dispatch table of any other with its name and members. -/
theorem unionDispatch_reads (henter : EntersFaithfully r enter) (d : UnionDef) :
    Reads r (unionDispatch r enter d) ((Meaning.union r d).map (·.dispatch)) := by
  refine .get_bind fun s hs => ?_
  split
  · next kept hkept =>
      split
      · next hmembers =>
          obtain ⟨d', hname, hmembers', hmeaning⟩ := hs.unions hkept
          have hsame : d'.members = d.members :=
            Option.some.inj (hmembers'.symm.trans hmembers)
          refine .pure hs ?_
          rw [meaning_union_of_members hname hsame hmeaning]
          rfl
      · exact .throw hs _
  · exact .throw hs _
  · refine .lift_bind hs fun _ _ => (unionMembers_reads henter d.members s hs).bind
      fun tables htables => ?_
    obtain ⟨members, descendants⟩ := tables
    have hunion : Meaning.union r d = .ok ⟨d.name, d.description, members.map (·.2),
        ⟨d.name, .union, members ++ descendants⟩⟩ :=
      Meaning.map_eq_ok.mpr ⟨(members, descendants), htables, rfl⟩
    intro s₁ hs₁
    rw [hunion]
    exact ⟨hs₁.keepUnion rfl hunion, by rintro _ _ ⟨⟩; rfl⟩

theorem expr_reads (henter : EntersFaithfully r enter) (t : TypeExpr) :
    ∀ nonNull, Reads r (expr r enter nonNull t) (Meaning.expr r nonNull t) := by
  induction t with
  | ref t =>
      refine fun nonNull => .lift_bind fun id hid => (nodeRef_reads henter id).bind
        fun c hc => .pure ?_
      exact Meaning.bind_eq_ok.mpr ⟨id, hid, Meaning.bind_eq_ok.mpr ⟨c, hc, rfl⟩⟩
  | scalar d => exact fun nonNull => (keepScalar_reads d).bind fun _ _ => .pure rfl
  | enum d => exact fun nonNull => (keepEnum_reads d).bind fun _ _ => .pure rfl
  | union d =>
      refine fun nonNull => (unionDispatch_reads henter d).bind fun dispatch hd => .pure ?_
      obtain ⟨u, hu, rfl⟩ := Meaning.map_eq_ok.mp hd
      exact Meaning.bind_eq_ok.mpr ⟨u, hu, rfl⟩
  | list item ih =>
      exact fun nonNull => (ih true).bind fun c hc =>
        .pure (Meaning.bind_eq_ok.mpr ⟨c, hc, rfl⟩)
  | nullable inner ih =>
      exact fun nonNull => (ih false).bind fun c hc =>
        .pure (Meaning.bind_eq_ok.mpr ⟨c, hc, rfl⟩)

theorem link_reads (henter : EntersFaithfully r enter) (l : Link) (nonNull : Bool) :
    Reads r (link r enter l nonNull) (Meaning.link r l nonNull) := by
  cases l with
  | node id =>
      exact (nodeRef_reads henter id).bind fun c hc =>
        .pure (Meaning.map_eq_ok.mpr ⟨c, hc, rfl⟩)
  | given t => exact expr_reads henter t nonNull

theorem outputLink_reads (henter : EntersFaithfully r enter) (l : Link) (nonNull : Bool)
    (owner field : String) :
    Reads r (outputLink r enter l nonNull owner field)
      (Meaning.output r l nonNull owner field) := by
  refine (link_reads henter l nonNull).bind fun c hc => ?_
  split
  · next houtput => exact .pure (Meaning.output_eq_ok.mpr ⟨hc, houtput⟩)
  · exact .throw _

theorem inputLink_reads (henter : EntersFaithfully r enter) (l : Link) (nonNull : Bool)
    (owner field : String) :
    Reads r (inputLink r enter l nonNull owner field)
      (Meaning.input r l nonNull owner field) := by
  refine (link_reads henter l nonNull).bind fun c hc => ?_
  split
  · next hinput => exact .pure (Meaning.input_eq_ok.mpr ⟨hc, hinput⟩)
  · exact .throw _

/-! ## Fields and arguments -/

theorem inputs_reads (henter : EntersFaithfully r enter) (owner : String) (ids : List NodeId) :
    ∀ compiled, Reads r (inputs r enter owner ids compiled)
      (Meaning.inputs r owner ids compiled) := by
  induction ids with
  | nil => exact fun compiled => .pure rfl
  | cons id rest ih =>
      refine fun compiled => .lift_bind fun field hfield =>
        (inputLink_reads henter _ _ _ _).bind fun c hc => ?_
      rw [Meaning.inputs, hfield]
      change Reads r _ (Meaning.input r field.type true owner field.decl.name >>= _)
      rw [hc]
      exact ih _

theorem arguments_reads (henter : EntersFaithfully r enter) (owner : String) (f : LinkedField) :
    Reads r (arguments r enter owner f) (Meaning.arguments r owner f) := by
  unfold arguments Meaning.arguments
  cases f.arg? with
  | some arg =>
      cases f.args? with
      | some args => exact .throw _
      | none =>
          refine (inputLink_reads henter _ _ _ _).bind fun c hc =>
            (argMapping_reads arg).bind fun mapping hmapping => .pure ?_
          exact Meaning.bind_eq_ok.mpr ⟨c, hc, Meaning.bind_eq_ok.mpr ⟨mapping, hmapping, rfl⟩⟩
  | none =>
      cases f.args? with
      | some id =>
          dsimp only
          split
          · exact .throw _
          · refine (inputs_reads henter _ _ _).bind fun compiled hcompiled =>
              (inputShapeWithin_reads _ id).bind fun _ _ => .pure ?_
            exact Meaning.bind_eq_ok.mpr ⟨compiled, hcompiled, rfl⟩
      | none => exact .pure rfl

theorem field_reads (henter : EntersFaithfully r enter) (owner : String) (id : NodeId) :
    Reads r (field r enter owner id) (Meaning.field r owner id) := by
  refine .lift_bind fun f hf => (outputLink_reads henter _ _ _ _).bind fun c hc =>
    (arguments_reads henter owner f).bind fun args hargs => .pure ?_
  exact Meaning.bind_eq_ok.mpr ⟨f, hf, Meaning.bind_eq_ok.mpr ⟨c, hc,
    Meaning.bind_eq_ok.mpr ⟨args, hargs, rfl⟩⟩⟩

theorem fields_reads (henter : EntersFaithfully r enter) (owner : String) (ids : List NodeId) :
    ∀ compiled, Reads r (fields r enter owner ids compiled)
      (Meaning.fields r owner ids compiled) := by
  induction ids with
  | nil => exact fun compiled => .pure rfl
  | cons id rest ih =>
      refine fun compiled => (field_reads henter owner id).bind fun f hf => ?_
      rw [Meaning.fields, hf]
      exact ih _

/-! ## Declared types -/

theorem interfaceNames_reads (henter : EntersFaithfully r enter) (ids : List NodeId) :
    Reads r (interfaceNames r enter ids) (.ok (ids.map fun i => (r.node i).displayName)) := by
  induction ids with
  | nil => exact .pure rfl
  | cons id rest ih =>
      refine (nodeRef_reads henter id).bind fun _ _ => ih.bind fun names hnames => .pure ?_
      cases hnames
      rfl

theorem objectBody_reads (henter : EntersFaithfully r enter) (id : NodeId) :
    Reads r (objectBody r enter id) (Meaning.objectBody r id) := by
  refine .lift_bind fun chain hchain => (interfaceNames_reads henter _).bind fun names hnames =>
    (fields_reads henter _ _ _).bind fun compiled hcompiled => .pure ?_
  cases hnames
  exact Meaning.bind_eq_ok.mpr ⟨chain, hchain, Meaning.bind_eq_ok.mpr ⟨compiled, hcompiled, rfl⟩⟩

theorem objectWith_reads (henter : EntersFaithfully r enter) (id : NodeId) :
    Reads r (objectWith r enter id) (Meaning.object r id) := by
  refine .get_bind fun s hs => ?_
  split
  · next c hc => exact .pure hs (hs.objects hc)
  · cases hn : r.node id with
    | object n =>
        refine ((objectBody_reads henter id).inProgress id s hs).bind fun built hbuilt => ?_
        have hmeaning : Meaning.object r id =
            .ok ⟨n.metadata.name, n.metadata.description, built.1, built.2⟩ := by
          simp only [Meaning.object, hn]
          exact Meaning.map_eq_ok.mpr ⟨built, hbuilt, rfl⟩
        exact fun s₁ hs₁ => .keep (hs₁.keepObject hmeaning) hmeaning
    | interface _ | inputObject _ | field _ | args _ | arg _ | inputField _ | implement _ =>
        exact .throw hs _

theorem inputObjectWith_reads (henter : EntersFaithfully r enter) (id : NodeId) :
    Reads r (inputObjectWith r enter id) (Meaning.inputObject r id) := by
  refine .get_bind fun s hs => ?_
  split
  · next c hc => exact .pure hs (hs.inputObjects hc)
  · cases hn : r.node id with
    | inputObject n =>
        refine ((inputs_reads henter _ _ _).inProgress id s hs).bind fun built hbuilt => ?_
        have hmeaning : Meaning.inputObject r id =
            .ok ⟨n.metadata.name, n.metadata.description, built⟩ := by
          simp only [Meaning.inputObject, hn]
          exact Meaning.map_eq_ok.mpr ⟨built, hbuilt, rfl⟩
        exact fun s₁ hs₁ => .keep (hs₁.keepInputObject hmeaning) hmeaning
    | object _ | interface _ | field _ | args _ | arg _ | inputField _ | implement _ =>
        exact .throw hs _

/-- An interface is kept before its implementers are entered, and it is right by then. -/
theorem interfaceWith_reads (henter : EntersFaithfully r enter) (id : NodeId) :
    Reads r (interfaceWith r enter id) (Meaning.interface r id) := by
  refine .get_bind fun s hs => ?_
  split
  · next c hc => exact .pure hs (hs.interfaces hc)
  · cases hn : r.node id with
    | interface n =>
        refine ((fields_reads henter _ _ _).inProgress id s hs).bind fun built hbuilt =>
          (interfaceDispatch_reads id).bind fun d hd => ?_
        have hmeaning : Meaning.interface r id =
            .ok ⟨n.metadata.name, n.metadata.description, built, d⟩ := by
          simp only [Meaning.interface, hn]
          exact Meaning.bind_eq_ok.mpr ⟨built, hbuilt, Meaning.bind_eq_ok.mpr ⟨d, hd, rfl⟩⟩
        have hkeep : Reads r (keepInterface id
            ⟨n.metadata.name, n.metadata.description, built, d⟩) (.ok ()) :=
          fun _ hs₁ => ⟨hs₁.keepInterface hmeaning, fun _ _ _ => rfl⟩
        exact hkeep.bind fun _ _ => .lift_bind fun _ _ => (Reads.forM henter).bind
          fun _ _ => .pure hmeaning
    | object _ | inputObject _ | field _ | args _ | arg _ | inputField _ | implement _ =>
        exact .throw hs _

theorem compileWithin_reads (depth : Nat) : EntersFaithfully r (compileWithin r depth) := by
  induction depth with
  | zero => exact fun id => .throw _
  | succ depth ih =>
      refine fun id => .get_bind fun s hs => ?_
      split
      · exact .pure hs rfl
      · split
        · exact .map _ (objectWith_reads ih id s hs) fun _ _ => rfl
        · exact .map _ (interfaceWith_reads ih id s hs) fun _ _ => rfl
        · exact .map _ (inputObjectWith_reads ih id s hs) fun _ _ => rfl
        · exact .throw hs _

theorem enter_reads (r : Registry) : EntersFaithfully r (Compile.enter r) :=
  compileWithin_reads _

end Compile

/-! ## Requests -/

/-- To look up a definition changes nothing. -/
theorem Compile.stateAfter_namedType (l : Link) :
    stateAfter (namedType r l) s = stateAfter (type r l false) s := by
  cases h : type r l false s with
  | ok c s₁ =>
      rw [stateAfter_ok h]
      refine (stateAfter_bind h _).trans ?_
      dsimp only
      split
      · rfl
      · refine (stateAfter_bind (get_eq_ok.mpr ⟨rfl, rfl⟩) _).trans ?_
        split <;> rfl
  | error e s₁ => exact (stateAfter_error (bind_eq_error h)).trans (stateAfter_error h).symm

/-- A request leaves a faithful compiler behind, whether it is answered or not. -/
theorem Request.after_faithful (q : Request) (hs : s.Faithful r) : (q.after r s).Faithful r := by
  have henter := enter_reads r
  rw [Request.after_eq_stateAfter]
  cases q with
  | type l nonNull => exact (stateAfter_map _ _).symm ▸ (link_reads henter l nonNull s hs).1
  | outputType l nonNull owner field =>
      exact (stateAfter_map _ _).symm ▸ (outputLink_reads henter l nonNull owner field s hs).1
  | inputType l nonNull owner field =>
      exact (stateAfter_map _ _).symm ▸ (inputLink_reads henter l nonNull owner field s hs).1
  | object id => exact (stateAfter_map _ _).symm ▸ (objectWith_reads henter id s hs).1
  | interface id => exact (stateAfter_map _ _).symm ▸ (interfaceWith_reads henter id s hs).1
  | inputObject id => exact (stateAfter_map _ _).symm ▸ (inputObjectWith_reads henter id s hs).1
  | named l =>
      rw [show (Request.named l).ask r = .type <$> namedType r l from rfl, stateAfter_map,
        stateAfter_namedType]
      exact (link_reads henter l false s hs).1
  | fieldMap owner ids =>
      exact (stateAfter_map _ _).symm ▸ (fields_reads henter owner ids ∅ s hs).1

/-- Whatever a new compiler has been asked, and whether or not it could answer, what it keeps is
what the registry means. -/
theorem CompileState.Visits.faithful (h : Visits r {} s) : s.Faithful r := by
  induction h with
  | refl => exact .start r
  | tail _ hask ih =>
      obtain ⟨q, rfl⟩ := hask
      exact q.after_faithful ih

end SchemaGraph
