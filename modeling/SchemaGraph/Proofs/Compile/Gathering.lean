import SchemaGraph.Proofs.Compile.Gathers

/-!
# The compiler gathers what it uses

Function by function, what a run uses is what the declarations use that it
compiles. A declared type is kept together with everything it uses, so a call
that compiles declared types uses nothing of its own; it passes on what they use.
Only a type expression is used by whoever asks for it.
-/

set_option autoImplicit false

namespace SchemaGraph.Compile

open CompileState

variable {r : Registry} {N : NodeId → Prop} {enter : NodeId → CompileM Unit}

/-! ## Shapes

Nothing is given on the way to a shape. -/

theorem shapeOfExpr_gather (henter : ∀ id, Gather r N (fun _ => False) (enter id))
    (t : TypeExpr) : Gather r N (fun _ => False) (shapeOfExpr r enter t) := by
  induction t with
  | ref t =>
      refine .lift_bind fun id _ => ?_
      split
      · exact (henter id).before fun _ => .pure _
      · exact .pure _
  | scalar _ | enum _ | union _ => exact .pure _
  | list item ih => exact ih.before fun _ => .pure _
  | nullable inner ih => exact ih

theorem shapeOfLink_gather (henter : ∀ id, Gather r N (fun _ => False) (enter id))
    (l : Link) : Gather r N (fun _ => False) (shapeOfLink r enter l) := by
  cases l with
  | node id =>
      simp only [shapeOfLink]
      split
      · exact (henter id).before fun _ => .pure _
      · exact .pure _
  | given t => exact shapeOfExpr_gather henter t

theorem fieldShapes_gather (henter : ∀ id, Gather r N (fun _ => False) (enter id))
    (ids : List NodeId) : Gather r N (fun _ => False) (fieldShapes r enter ids) := by
  induction ids with
  | nil => exact .pure _
  | cons id rest ih =>
      exact .lift_bind fun field _ => (shapeOfLink_gather henter field.type).before fun _ =>
        ih.before fun _ => .pure _

theorem keepShape_gather (id : NodeId) (shape? : Option InputObjectShape) :
    Gather r N (fun _ => False) (keepShape id shape?) :=
  .modify (fun _ => rfl) (fun _ => rfl) fun _ _ h => h

theorem inputShapeWithin_gather (depth : Nat) (id : NodeId) :
    Gather r N (fun _ => False) (inputShapeWithin r depth id) := by
  induction depth generalizing id with
  | zero => exact .throw
  | succ depth ih =>
      refine Gather.get.before fun s => ?_
      dsimp only
      split
      · exact .pure _
      · split
        · exact (keepShape_gather id none).before fun _ =>
            (fieldShapes_gather ih _).before fun _ => keepShape_gather id _
        · exact .throw

theorem inputShape_gather (id : NodeId) : Gather r N (fun _ => False) (inputShape r id) :=
  inputShapeWithin_gather _ id

/-! ## References -/

/-- What is asked of `enter`: that it uses nothing but what the nodes use that it is
led to. -/
def Gathering (r : Registry) (enter : NodeId → CompileM Unit) : Prop :=
  ∀ {N : NodeId → Prop}, Closed r N → ∀ {id}, N id →
    Gather r N (fun _ => False) (enter id)

theorem interfaceDispatch_gather (id : NodeId) :
    Gather r N (fun _ => False) (interfaceDispatch r id) := by
  refine Gather.get.before fun s => ?_
  split
  · exact .pure _
  · have hkeep : ∀ d, Gather r N (fun _ => False) (keepDispatch id d) := fun d =>
      .modify (fun _ => rfl) (fun _ => rfl) fun _ _ h => h
    exact .lift_bind fun _ _ => (hkeep _).before fun _ => .pure _

theorem nodeRef_gather (henter : Gathering r enter) (hclosed : Closed r N) {id : NodeId}
    (hid : N id) : Gather r N (fun _ => False) (nodeRef r enter id) := by
  unfold nodeRef
  cases r.node id with
  | object n => exact (henter hclosed hid).before fun _ => .pure _
  | interface n =>
      exact (henter hclosed hid).before fun _ =>
        (interfaceDispatch_gather id).before fun _ => .pure _
  | inputObject n => exact (henter hclosed hid).before fun _ => .pure _
  | field _ | args _ | arg _ | inputField _ | implement _ => exact .throw

theorem keepScalar_gather (d : ScalarDef) :
    Gather r N (fun g => d.builtin = false ∧ g = .scalar d) (keepScalar d) := by
  intro s s' u hs h
  simp only [keepScalar, bind_eq_ok, get_eq_ok] at h
  obtain ⟨_, _, ⟨rfl, rfl⟩, h⟩ := h
  split at h
  · next hkeep =>
      simp only [bind_eq_ok, lift_eq_ok, keepGiven_ok] at h
      obtain ⟨_, _, ⟨-, rfl⟩, rfl⟩ := h
      simp only [Bool.not_eq_eq_eq_not, Bool.not_true] at hkeep
      have hfree : s.given.find? d.name = none :=
        OrderedMap.find?_eq_none_iff.mpr (by simp [OrderedMap.mem_keys_iff, hkeep.2])
      exact (Gathers.keepLeaf (g := .scalar d) (t := .scalar d) hs hfree rfl rfl trivial).congr
        fun g => and_iff_right hkeep.1
  · obtain ⟨-, rfl⟩ := pure_eq_ok.mp h
    exact .refl hs fun d' hd' => by cases hd'.2

theorem keepEnum_gather (d : EnumDef) : Gather r N (· = .enum d) (keepEnum d) := by
  intro s s' u hs h
  simp only [keepEnum, bind_eq_ok, get_eq_ok] at h
  obtain ⟨_, _, ⟨rfl, rfl⟩, h⟩ := h
  split at h
  · next hkeep =>
      simp only [bind_eq_ok, lift_eq_ok, keepGiven_ok] at h
      obtain ⟨_, _, ⟨-, rfl⟩, _, _, ⟨-, rfl⟩, rfl⟩ := h
      have hfree : s.given.find? d.name = none :=
        OrderedMap.find?_eq_none_iff.mpr (by simpa [OrderedMap.mem_keys_iff] using hkeep)
      exact .keepLeaf (t := .enum d) hs hfree rfl rfl trivial
  · obtain ⟨-, rfl⟩ := pure_eq_ok.mp h
    exact .refl hs fun d' hd' => by cases hd'

theorem unionMembers_gather (henter : Gathering r enter) (hclosed : Closed r N)
    {members : List HostType}
    (hN : ∀ t ∈ members, ∀ id, r.getNode t = .ok id → N id) :
    Gather r N (fun _ => False) (unionMembers r enter members) := by
  induction members with
  | nil => exact .pure _
  | cons t rest ih =>
      refine .lift_bind fun id hid => ?_
      dsimp only
      split
      · exact .throw
      · exact (henter hclosed (hN t (by simp) id hid)).before fun _ =>
          .lift_bind fun _ _ =>
            (ih fun t' ht' => hN t' (by simp [ht'])).before fun _ => .pure _

theorem unionDispatch_gather (henter : Gathering r enter) {d : UnionDef}
    (hN : ∀ id, d.LeadsTo r id → N id) :
    Gather r N (· = .union d) (unionDispatch r enter d) := by
  intro s s' dispatch hs h
  simp only [unionDispatch, bind_eq_ok, get_eq_ok] at h
  obtain ⟨_, _, ⟨rfl, rfl⟩, h⟩ := h
  cases hfound : s.given.find? d.name with
  | some t =>
      cases t with
      | union kept =>
          simp only [hfound] at h
          split at h
          · next hmembers =>
              obtain ⟨-, rfl⟩ := pure_eq_ok.mp h
              refine .refl hs fun d' hd' => ?_
              cases hd'
              exact ⟨⟨kept, hfound⟩, hmembers⟩
          · exact absurd h throw_ne_ok
      | object _ | interface _ | inputObject _ | enum _ | scalar _ =>
          simp only [hfound] at h
          exact absurd h throw_ne_ok
  | none =>
      simp only [hfound, bind_eq_ok, lift_eq_ok, modify_eq_ok, keepGiven_ok, pure_eq_ok] at h
      obtain ⟨_, _, ⟨-, rfl⟩, _, s₁, hrun, _, _, rfl, _, _, rfl, -, rfl⟩ := h
      have hmembers : Gather r (d.LeadsTo r) (fun _ => False)
          (unionMembers r enter d.members) :=
        unionMembers_gather henter (d.closed_leadsTo r)
          fun t ht id hid => ⟨t, ht, id, hid, .refl⟩
      exact .keepUnion hs (hmembers _ _ _ hs hrun) hfound hN

theorem expr_gather (henter : Gathering r enter) (hclosed : Closed r N) {t : TypeExpr} :
    ∀ nonNull, (∀ id, t.Mentions r (.node id) → N id) →
      Gather r N t.Uses (expr r enter nonNull t) := by
  induction t with
  | ref t =>
      exact fun nonNull hN => .lift_bind fun id hid =>
        (nodeRef_gather henter hclosed (hN id ⟨id, hid, rfl⟩)).followed fun _ => .pure _
  | scalar d => exact fun nonNull _ => (keepScalar_gather d).followed fun _ => .pure _
  | enum d => exact fun nonNull _ => (keepEnum_gather d).followed fun _ => .pure _
  | union d =>
      refine fun nonNull hN => (unionDispatch_gather henter ?_).followed fun _ => .pure _
      rintro id ⟨t, ht, member, hmember, hleads⟩
      exact hclosed.leadsTo (hN member (Or.inr ⟨t, ht, member, hmember, rfl⟩)) hleads
  | list item ih => exact fun nonNull hN => (ih true hN).followed fun _ => .pure _
  | nullable inner ih => exact fun nonNull hN => (ih false hN).followed fun _ => .pure _

theorem link_gather (henter : Gathering r enter) (hclosed : Closed r N) {l : Link}
    (nonNull : Bool) (hN : ∀ id, l.Mentions r (.node id) → N id) :
    Gather r N l.Uses (link r enter l nonNull) := by
  cases l with
  | node id => exact (nodeRef_gather henter hclosed (hN id rfl)).followed fun _ => .pure _
  | given t => exact expr_gather henter hclosed nonNull hN

theorem outputLink_gather (henter : Gathering r enter) (hclosed : Closed r N) {l : Link}
    (nonNull : Bool) (owner field : String) (hN : ∀ id, l.Mentions r (.node id) → N id) :
    Gather r N l.Uses (outputLink r enter l nonNull owner field) := by
  refine (link_gather henter hclosed nonNull hN).followed fun c => ?_
  split
  · exact .pure _
  · exact .throw

theorem inputLink_gather (henter : Gathering r enter) (hclosed : Closed r N) {l : Link}
    (nonNull : Bool) (owner field : String) (hN : ∀ id, l.Mentions r (.node id) → N id) :
    Gather r N l.Uses (inputLink r enter l nonNull owner field) := by
  refine (link_gather henter hclosed nonNull hN).followed fun c => ?_
  split
  · exact .pure _
  · exact .throw

/-! ## Fields and arguments -/

theorem inputs_gather (henter : Gathering r enter) (hclosed : Closed r N) (owner : String)
    {ids : List NodeId} :
    ∀ compiled, (∀ id, (∃ i ∈ ids, r.InputMentions i (.node id)) → N id) →
      Gather r N (fun g => ∃ i ∈ ids, r.InputUses i g) (inputs r enter owner ids compiled) := by
  induction ids with
  | nil => exact fun compiled _ => (Gather.pure compiled).congr fun g => by simp
  | cons i rest ih =>
      refine fun compiled hN => .lift_bind fun field hfield => ?_
      have hlink : Gather r N field.type.Uses
          (inputLink r enter field.type true owner field.decl.name) :=
        inputLink_gather henter hclosed true owner _ fun id hid =>
          hN id ⟨i, by simp, field, hfield, hid⟩
      refine (hlink.bind fun c => ih _ fun id hid => ?_).congr fun g => ?_
      · exact hN id (hid.imp fun j hj => ⟨by simp [hj.1], hj.2⟩)
      · simp [Registry.InputUses, hfield]

theorem argMapping_gather (arg : LinkedArg) :
    Gather r N (fun _ => False) (argMapping r arg) := by
  have hshape : Gather r N (fun _ => False) (valueShape r arg.type) :=
    shapeOfLink_gather inputShape_gather arg.type
  unfold argMapping
  split
  · split
    · exact (inputShape_gather _).before fun _ => .pure _
    · exact hshape.before fun _ => .pure _
  · exact hshape.before fun _ => .pure _

theorem arguments_gather (henter : Gathering r enter) (hclosed : Closed r N) (owner : String)
    {f : LinkedField} (hN : ∀ id, r.ArgumentsMention f (.node id) → N id) :
    Gather r N (r.ArgumentsUse f) (arguments r enter owner f) := by
  unfold arguments
  cases harg : f.arg? with
  | some arg =>
      cases hargs : f.args? with
      | some bundle => exact .throw
      | none =>
          have hlink : Gather r N arg.type.Uses
              (inputLink r enter arg.type true owner arg.decl.name) :=
            inputLink_gather henter hclosed true owner _ fun id hid =>
              hN id (Or.inl ⟨arg, harg, Or.inl hid⟩)
          refine (hlink.followed fun c => (argMapping_gather arg).before fun _ =>
            .pure _).congr fun g => ?_
          simp [Registry.ArgumentsUse, harg, hargs]
  | none =>
      cases hargs : f.args? with
      | some bundle =>
          dsimp only
          split
          · exact .throw
          · refine (Gather.followed (inputs_gather henter hclosed _ _ fun id hid =>
              hN id (Or.inr ⟨bundle, hargs, Or.inr hid⟩)) fun _ =>
              (inputShape_gather bundle).before fun _ => .pure _).congr fun g => ?_
            simp [Registry.ArgumentsUse, harg, hargs, Meaning.bundleFields]
      | none =>
          refine (Gather.pure _).congr fun g => ?_
          simp [Registry.ArgumentsUse, harg, hargs]

theorem field_gather (henter : Gathering r enter) (hclosed : Closed r N) (owner : String)
    {i : NodeId} (hN : ∀ id, r.FieldMentions i (.node id) → N id) :
    Gather r N (r.FieldUses i) (field r enter owner i) := by
  refine .lift_bind fun linked hlinked => ?_
  have houtput : Gather r N linked.type.Uses
      (outputLink r enter linked.type true owner linked.decl.name) :=
    outputLink_gather henter hclosed true owner _ fun id hid =>
      hN id ⟨linked, hlinked, Or.inl hid⟩
  have harguments : Gather r N (r.ArgumentsUse linked) (arguments r enter owner linked) :=
    arguments_gather henter hclosed owner fun id hid => hN id ⟨linked, hlinked, Or.inr hid⟩
  refine (houtput.bind fun c => harguments.followed fun _ => .pure _).congr fun g => ?_
  simp [Registry.FieldUses, hlinked]

theorem fields_gather (henter : Gathering r enter) (hclosed : Closed r N) (owner : String)
    {ids : List NodeId} :
    ∀ compiled, (∀ id, (∃ i ∈ ids, r.FieldMentions i (.node id)) → N id) →
      Gather r N (fun g => ∃ i ∈ ids, r.FieldUses i g) (fields r enter owner ids compiled) := by
  induction ids with
  | nil => exact fun compiled _ => (Gather.pure compiled).congr fun g => by simp
  | cons i rest ih =>
      intro compiled hN
      have hfield : Gather r N (r.FieldUses i) (field r enter owner i) :=
        field_gather henter hclosed owner fun id hid => hN id ⟨i, by simp, hid⟩
      refine (hfield.bind fun f => ih _ fun id hid => ?_).congr fun g => ?_
      · exact hN id (hid.imp fun j hj => ⟨by simp [hj.1], hj.2⟩)
      · simp

/-! ## Declared types -/

theorem interfaceNames_gather (henter : Gathering r enter) (hclosed : Closed r N)
    {ids : List NodeId} (hN : ∀ i ∈ ids, N i) :
    Gather r N (fun _ => False) (interfaceNames r enter ids) := by
  induction ids with
  | nil => exact .pure _
  | cons i rest ih =>
      exact (nodeRef_gather henter hclosed (hN i (by simp))).before fun _ =>
        (ih fun j hj => hN j (by simp [hj])).before fun _ => .pure _

theorem objectBody_gather (henter : Gathering r enter) (hclosed : Closed r N) {id : NodeId}
    {n : ObjectNode} (hn : r.node id = .object n) (hid : N id) :
    Gather r N (r.Uses id) (objectBody r enter id) := by
  refine .lift_bind fun chain hchain => ?_
  have hleads {m : Mention} := Registry.leads_object (m := m) hn hchain
  have hnames : Gather r N (fun _ => False)
      (interfaceNames r enter (chainInterfaces r chain)) :=
    interfaceNames_gather henter hclosed fun i hi =>
      hclosed hid (hleads.mpr (Or.inl ⟨i, hi, rfl⟩))
  have hfields : Gather r N
      (fun g => ∃ f ∈ Meaning.objectFieldIds r chain, r.FieldUses f g)
      (fields r enter (r.node id).displayName (Meaning.objectFieldIds r chain) ∅) :=
    fields_gather henter hclosed _ ∅ fun i hi => hclosed hid (hleads.mpr (Or.inr hi))
  exact (hnames.before fun names => hfields.followed fun compiled => .pure _).congr
    fun g => Registry.uses_object hn hchain

theorem objectWith_gather (henter : Gathering r enter) (hclosed : Closed r N) {id : NodeId}
    (hid : N id) : Gather r N (fun _ => False) (objectWith r enter id) := by
  intro s s' c hs h
  simp only [objectWith, bind_eq_ok, get_eq_ok] at h
  obtain ⟨_, _, ⟨rfl, rfl⟩, h⟩ := h
  cases hfound : s.objects.find? id with
  | some kept =>
      simp only [hfound] at h
      exact Gather.pure _ _ _ _ hs h
  | none =>
      cases hn : r.node id with
      | object n =>
          simp only [hfound, hn, bind_eq_ok, keepObject, modify_eq_ok, pure_eq_ok] at h
          obtain ⟨_, s₁, hrun, _, _, rfl, -, rfl⟩ := h
          have hbody := (objectBody_gather henter hclosed hn hid).inProgress id
          refine (hbody _ _ _ hs hrun).keep hid rfl rfl ?_
          rintro other (ho | hother)
          · exact (OrderedMap.contains_insert.mp ho).symm.imp_left Or.inl
          · exact Or.inl (Or.inr hother)
      | interface _ | inputObject _ | field _ | args _ | arg _ | inputField _
      | implement _ =>
          simp only [hfound, hn] at h
          exact absurd h throw_ne_ok

theorem inputObjectWith_gather (henter : Gathering r enter) (hclosed : Closed r N)
    {id : NodeId} (hid : N id) :
    Gather r N (fun _ => False) (inputObjectWith r enter id) := by
  intro s s' c hs h
  simp only [inputObjectWith, bind_eq_ok, get_eq_ok] at h
  obtain ⟨_, _, ⟨rfl, rfl⟩, h⟩ := h
  cases hfound : s.inputObjects.find? id with
  | some kept =>
      simp only [hfound] at h
      exact Gather.pure _ _ _ _ hs h
  | none =>
      cases hn : r.node id with
      | inputObject n =>
          simp only [hfound, hn, bind_eq_ok, keepInputObject, modify_eq_ok, pure_eq_ok] at h
          obtain ⟨_, s₁, hrun, _, _, rfl, -, rfl⟩ := h
          have hbody : Gather r N (r.Uses id) (inputs r enter n.metadata.name n.inputFields ∅) :=
            (inputs_gather henter hclosed _ ∅ fun i hi =>
              hclosed hid ((Registry.leads_inputObject hn).mpr hi)).congr
              fun g => Registry.uses_inputObject hn
          refine (hbody.inProgress id _ _ _ hs hrun).keep hid rfl rfl ?_
          rintro other (ho | hi | hn)
          · exact Or.inl (Or.inl ho)
          · exact Or.inl (Or.inr (Or.inl hi))
          · exact (OrderedMap.contains_insert.mp hn).symm.imp_left fun h => Or.inr (Or.inr h)
      | object _ | interface _ | field _ | args _ | arg _ | inputField _ | implement _ =>
          simp only [hfound, hn] at h
          exact absurd h throw_ne_ok

theorem interfaceWith_gather (henter : Gathering r enter) (hclosed : Closed r N)
    {id : NodeId} (hid : N id) :
    Gather r N (fun _ => False) (interfaceWith r enter id) := by
  intro s s' c hs h
  simp only [interfaceWith, bind_eq_ok, get_eq_ok] at h
  obtain ⟨_, _, ⟨rfl, rfl⟩, h⟩ := h
  cases hfound : s.interfaces.find? id with
  | some kept =>
      simp only [hfound] at h
      exact Gather.pure _ _ _ _ hs h
  | none =>
      cases hn : r.node id with
      | interface n =>
          simp only [hfound, hn, bind_eq_ok, keepInterface, modify_eq_ok, lift_eq_ok,
            pure_eq_ok] at h
          obtain ⟨_, s₁, hrun, d, s₂, hdispatch, _, s₃, hkeep, implementers, _,
            ⟨himpl, rfl⟩, _, _, hall, -, rfl⟩ := h
          have hleads {m : Mention} := Registry.leads_interface (m := m) hn himpl
          have hbody : Gather r N (r.Uses id) (fields r enter n.metadata.name n.fields ∅) :=
            (fields_gather henter hclosed _ ∅ fun i hi =>
              hclosed hid (hleads.mpr (Or.inl hi))).congr fun g => Registry.uses_interface hn
          have h₁ := hbody.inProgress id _ _ _ hs hrun
          have h₂ := h₁.followed (interfaceDispatch_gather id _ _ _ h₁.stands hdispatch)
          have h₃ : Gathers r N (fun _ => False) s s₃ := by
            subst hkeep
            refine h₂.keep hid rfl rfl ?_
            rintro other (ho | hi | hn)
            · exact Or.inl (Or.inl ho)
            · exact (OrderedMap.contains_insert.mp hi).symm.imp_left
                fun h => Or.inr (Or.inl h)
            · exact Or.inl (Or.inr (Or.inr hn))
          have himplementers : Gather r N (fun _ => False) (implementers.forM enter) :=
            .forM fun i hi => henter hclosed
              (hclosed hid (hleads.mpr (Or.inr ⟨i, hi, rfl⟩)))
          exact h₃.followed (himplementers _ _ _ h₃.stands hall)
      | object _ | inputObject _ | field _ | args _ | arg _ | inputField _
      | implement _ =>
          simp only [hfound, hn] at h
          exact absurd h throw_ne_ok

theorem compileWithin_gather (depth : Nat) : Gathering r (compileWithin r depth) := by
  induction depth with
  | zero => exact fun _ _ _ => .throw
  | succ depth ih =>
      refine fun hclosed id hid => Gather.get.before fun s => ?_
      split
      · exact .pure _
      · split
        · exact (objectWith_gather ih hclosed hid).discard
        · exact (interfaceWith_gather ih hclosed hid).discard
        · exact (inputObjectWith_gather ih hclosed hid).discard
        · exact .throw

theorem enter_gather (r : Registry) : Gathering r (Compile.enter r) :=
  fun hclosed _ hid => compileWithin_gather _ hclosed hid

end SchemaGraph.Compile
