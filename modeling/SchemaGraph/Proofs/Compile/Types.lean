import SchemaGraph.Compile.Types
import SchemaGraph.Proofs.Compile.Reference

/-!
# Compiled types are what they mean

The compiler walks the graph of types depth first. A node is marked while the
types it leads to are compiled and kept once they are, so at any moment the
marked nodes are the path from the request to the node at work, and a kept node
leads to nothing that is neither kept nor on that path. When the request is
answered the path is empty and what is kept is closed.

An interface is kept before its implementers are entered. In between it leads
to nodes that are only promised; after the last of them the promise is kept.
-/

set_option autoImplicit false

namespace SchemaGraph.Compile

open CompileState

variable {r : Registry} {A W : NodeId → Prop} {s s' : CompileState}
  {enter : NodeId → CompileM Unit}

theorem ShapesAdvance.advances (h : ShapesAdvance r (fun _ => False) s s')
    (hs : Sound r A W s) : Advances r A W s s' := by
  rw [h.frame]
  exact hs.keepShapes h.sound h.grows

/-! ## Fields and arguments -/

theorem inputs_ok (henter : Enters r A enter) {owner : String} {ids : List NodeId} :
    ∀ {s s' : CompileState} {before after : OrderedMap String CompiledInput},
      (∀ id, (∃ i ∈ ids, r.InputMentions i (.node id)) → A id) → Sound r A W s →
      inputs r enter owner ids before s = .ok after s' →
      Advances r A W s s' ∧ Meaning.inputs r owner ids before = .ok after ∧
        ∀ m, (∃ i ∈ ids, r.InputMentions i m) → s'.Expects W m := by
  induction ids with
  | nil =>
      intro s s' before after _ hs h
      obtain ⟨rfl, rfl⟩ := pure_eq_ok.mp h
      refine ⟨Advances.refl hs, rfl, ?_⟩
      rintro m ⟨i, hi, -⟩
      exact absurd hi List.not_mem_nil
  | cons i rest ih =>
      intro s s' before after hA hs h
      simp only [inputs, bind_eq_ok, lift_eq_ok] at h
      obtain ⟨field, _, ⟨hfield, rfl⟩, c, s₁, hrun, h⟩ := h
      obtain ⟨hadv₁, hc, hexp₁⟩ := inputLink_ok henter
        (fun id hid => hA id ⟨i, by simp, field, hfield, hid⟩) hs hrun
      obtain ⟨hadv₂, hrest, hexp₂⟩ := ih
        (fun id hid => hA id (hid.imp fun j hj => ⟨by simp [hj.1], hj.2⟩)) hadv₁.sound h
      refine ⟨hadv₁.trans hadv₂, ?_, ?_⟩
      · simp only [Meaning.inputs, Meaning.bind_eq_ok]
        exact ⟨field, hfield, c, hc, hrest⟩
      · rintro m ⟨j, hj, field', hfield', hm⟩
        rcases List.mem_cons.mp hj with rfl | hj
        · obtain rfl : field = field' := Except.ok.inj (hfield.symm.trans hfield')
          exact hadv₂.grows.expects (hexp₁ m hm)
        · exact hexp₂ m ⟨j, hj, field', hfield', hm⟩

theorem argMapping_ok {arg : LinkedArg} {mapping : ArgumentMapping} (hs : Sound r A W s)
    (h : argMapping r arg s = .ok mapping s') :
    Advances r A W s s' ∧ Meaning.argMapping r arg = .ok mapping ∧
      ∀ i ∈ mapping.inputs, s'.Knows (.shape i) := by
  obtain ⟨decl, l⟩ := arg
  cases l with
  | node id =>
      simp only [argMapping] at h
      split at h
      · next hinput =>
          simp only [bind_eq_ok, pure_eq_ok] at h
          obtain ⟨_, _, hrun, rfl, rfl⟩ := h
          obtain ⟨hadv, hknown⟩ := inputShape_ok hs.shapes hrun
          refine ⟨hadv.advances hs, ?_, ?_⟩
          · simp only [Meaning.argMapping, if_pos hinput]
          · intro i hi
            rw [List.mem_singleton.mp hi]
            exact hknown
      · next hinput =>
          simp only [bind_eq_ok, pure_eq_ok] at h
          obtain ⟨shape, _, hrun, rfl, rfl⟩ := h
          obtain ⟨hadv, hshape, hinputs⟩ := shapeOfLink_ok inputShape_ok hs.shapes hrun
          refine ⟨hadv.advances hs, ?_, hinputs⟩
          simp only [Meaning.linkShape, Meaning.nodeShape, if_neg hinput] at hshape
          cases hshape
          simp only [Meaning.argMapping, if_neg hinput]
  | given t =>
      simp only [argMapping, bind_eq_ok, pure_eq_ok] at h
      obtain ⟨shape, _, hrun, rfl, rfl⟩ := h
      obtain ⟨hadv, hshape, hinputs⟩ := shapeOfLink_ok inputShape_ok hs.shapes hrun
      exact ⟨hadv.advances hs, Meaning.map_eq_ok.mpr ⟨shape, hshape, rfl⟩, hinputs⟩

theorem arguments_ok (henter : Enters r A enter) {owner : String} {f : LinkedField}
    {args : OrderedMap String CompiledInput × ArgumentMapping}
    (hA : ∀ id, r.ArgumentsMention f (.node id) → A id) (hs : Sound r A W s)
    (h : arguments r enter owner f s = .ok args s') :
    Advances r A W s s' ∧ Meaning.arguments r owner f = .ok args ∧
      ∀ m, r.ArgumentsMention f m → s'.Expects W m := by
  cases harg : f.arg? with
  | some arg =>
      cases hargs : f.args? with
      | some bundle =>
          simp only [arguments, harg, hargs] at h
          exact absurd h throw_ne_ok
      | none =>
          simp only [arguments, harg, hargs, bind_eq_ok, pure_eq_ok] at h
          obtain ⟨c, s₁, hrun, mapping, _, hmapping, rfl, rfl⟩ := h
          obtain ⟨hadv₁, hc, hexp⟩ := inputLink_ok henter
            (fun id hid => hA id (Or.inl ⟨arg, harg, Or.inl hid⟩)) hs hrun
          obtain ⟨hadv₂, hmeaning, hshapes⟩ := argMapping_ok hadv₁.sound hmapping
          refine ⟨hadv₁.trans hadv₂, ?_, ?_⟩
          · simp only [Meaning.arguments, harg, hargs, Meaning.bind_eq_ok]
            exact ⟨c, hc, mapping, hmeaning, rfl⟩
          · rintro m (⟨arg', harg', hm⟩ | ⟨bundle, hbundle, -⟩)
            · obtain rfl : arg = arg' := Option.some.inj (harg.symm.trans harg')
              rcases hm with hm | ⟨mapping', hmapping', i, hi, rfl⟩
              · exact hadv₂.grows.expects (hexp m hm)
              · obtain rfl : mapping = mapping' :=
                  Except.ok.inj (hmeaning.symm.trans hmapping')
                exact Or.inl (hshapes i hi)
            · rw [hargs] at hbundle
              cases hbundle
  | none =>
      cases hargs : f.args? with
      | some bundle =>
          simp only [arguments, harg, hargs] at h
          split at h
          · simp only [bind_eq_ok] at h
            obtain ⟨_, _, hthrow, -⟩ := h
            exact absurd hthrow throw_ne_ok
          · simp only [bind_eq_ok, pure_eq_ok] at h
            obtain ⟨compiled, s₁, hrun, _, _, hshape, rfl, rfl⟩ := h
            obtain ⟨hadv₁, hcompiled, hexp⟩ := inputs_ok henter
              (fun id hid => hA id (Or.inr ⟨bundle, hargs, Or.inr hid⟩)) hs hrun
            obtain ⟨hshapes, hknown⟩ := inputShape_ok hadv₁.sound.shapes hshape
            have hadv₂ := hshapes.advances hadv₁.sound
            refine ⟨hadv₁.trans hadv₂, ?_, ?_⟩
            · simp only [Meaning.arguments, harg, hargs, Meaning.bind_eq_ok]
              exact ⟨compiled, hcompiled, rfl⟩
            · rintro m (⟨arg, harg', -⟩ | ⟨bundle', hbundle, hm⟩)
              · rw [harg] at harg'
                cases harg'
              · obtain rfl : bundle = bundle' := Option.some.inj (hargs.symm.trans hbundle)
                rcases hm with rfl | hm
                · exact Or.inl hknown
                · exact hadv₂.grows.expects (hexp m hm)
      | none =>
          simp only [arguments, harg, hargs, pure_eq_ok] at h
          obtain ⟨rfl, rfl⟩ := h
          refine ⟨Advances.refl hs, ?_, ?_⟩
          · simp only [Meaning.arguments, harg, hargs]
          · rintro m (⟨arg, harg', -⟩ | ⟨bundle, hbundle, -⟩)
            · rw [harg] at harg'
              cases harg'
            · rw [hargs] at hbundle
              cases hbundle

theorem field_ok (henter : Enters r A enter) {owner : String} {i : NodeId}
    {f : CompiledField} (hA : ∀ id, r.FieldMentions i (.node id) → A id)
    (hs : Sound r A W s) (h : field r enter owner i s = .ok f s') :
    Advances r A W s s' ∧ Meaning.field r owner i = .ok f ∧
      ∀ m, r.FieldMentions i m → s'.Expects W m := by
  simp only [field, bind_eq_ok, lift_eq_ok, pure_eq_ok] at h
  obtain ⟨linked, _, ⟨hlinked, rfl⟩, c, s₁, hrun, ⟨args, mapping⟩, _, hargs, rfl, rfl⟩ := h
  obtain ⟨hadv₁, hc, hexp₁⟩ := outputLink_ok henter
    (fun id hid => hA id ⟨linked, hlinked, Or.inl hid⟩) hs hrun
  obtain ⟨hadv₂, hmeaning, hexp₂⟩ := arguments_ok henter
    (fun id hid => hA id ⟨linked, hlinked, Or.inr hid⟩) hadv₁.sound hargs
  refine ⟨hadv₁.trans hadv₂, ?_, ?_⟩
  · simp only [Meaning.field, Meaning.bind_eq_ok]
    exact ⟨linked, hlinked, c, hc, (args, mapping), hmeaning, rfl⟩
  · rintro m ⟨linked', hlinked', hm⟩
    obtain rfl : linked = linked' := Except.ok.inj (hlinked.symm.trans hlinked')
    rcases hm with hm | hm
    · exact hadv₂.grows.expects (hexp₁ m hm)
    · exact hexp₂ m hm

theorem fields_ok (henter : Enters r A enter) {owner : String} {ids : List NodeId} :
    ∀ {s s' : CompileState} {before after : OrderedMap String CompiledField},
      (∀ id, (∃ i ∈ ids, r.FieldMentions i (.node id)) → A id) → Sound r A W s →
      fields r enter owner ids before s = .ok after s' →
      Advances r A W s s' ∧ Meaning.fields r owner ids before = .ok after ∧
        ∀ m, (∃ i ∈ ids, r.FieldMentions i m) → s'.Expects W m := by
  induction ids with
  | nil =>
      intro s s' before after _ hs h
      obtain ⟨rfl, rfl⟩ := pure_eq_ok.mp h
      refine ⟨Advances.refl hs, rfl, ?_⟩
      rintro m ⟨i, hi, -⟩
      exact absurd hi List.not_mem_nil
  | cons i rest ih =>
      intro s s' before after hA hs h
      simp only [fields, bind_eq_ok] at h
      obtain ⟨f, s₁, hrun, h⟩ := h
      obtain ⟨hadv₁, hf, hexp₁⟩ :=
        field_ok henter (fun id hid => hA id ⟨i, by simp, hid⟩) hs hrun
      obtain ⟨hadv₂, hrest, hexp₂⟩ := ih
        (fun id hid => hA id (hid.imp fun j hj => ⟨by simp [hj.1], hj.2⟩)) hadv₁.sound h
      refine ⟨hadv₁.trans hadv₂, ?_, ?_⟩
      · simp only [Meaning.fields, Meaning.bind_eq_ok]
        exact ⟨f, hf, hrest⟩
      · rintro m ⟨j, hj, hm⟩
        rcases List.mem_cons.mp hj with rfl | hj
        · exact hadv₂.grows.expects (hexp₁ m hm)
        · exact hexp₂ m ⟨j, hj, hm⟩

theorem interfaceNames_ok (henter : Enters r A enter) {ids : List NodeId} :
    ∀ {s s' : CompileState} {names : List String}, (∀ i ∈ ids, A i) → Sound r A W s →
      interfaceNames r enter ids s = .ok names s' →
      Advances r A W s s' ∧ names = ids.map (fun i => (r.node i).displayName) ∧
        ∀ i ∈ ids, s'.Knows (.node i) := by
  induction ids with
  | nil =>
      intro s s' names _ hs h
      obtain ⟨rfl, rfl⟩ := pure_eq_ok.mp h
      exact ⟨Advances.refl hs, rfl, fun i hi => absurd hi List.not_mem_nil⟩
  | cons i rest ih =>
      intro s s' names hA hs h
      simp only [interfaceNames, bind_eq_ok, pure_eq_ok] at h
      obtain ⟨c, s₁, hrun, names, _, hrest, rfl, rfl⟩ := h
      obtain ⟨hadv₁, -, hknown⟩ := nodeRef_ok henter (hA i (by simp)) hs hrun
      obtain ⟨hadv₂, rfl, hall⟩ := ih (fun j hj => hA j (by simp [hj])) hadv₁.sound hrest
      refine ⟨hadv₁.trans hadv₂, rfl, ?_⟩
      intro j hj
      rcases List.mem_cons.mp hj with rfl | hj
      · exact hadv₂.grows.knows hknown
      · exact hall j hj

theorem enterAll_ok (henter : Enters r A enter) {ids : List NodeId} :
    ∀ {s s' : CompileState} {u : Unit}, (∀ i ∈ ids, A i) → Sound r A W s →
      ids.forM enter s = .ok u s' →
      Advances r A W s s' ∧ ∀ i ∈ ids, s'.Knows (.node i) := by
  induction ids with
  | nil =>
      intro s s' u _ hs h
      obtain ⟨-, rfl⟩ := pure_eq_ok.mp h
      exact ⟨Advances.refl hs, fun i hi => absurd hi List.not_mem_nil⟩
  | cons i rest ih =>
      intro s s' u hA hs h
      obtain ⟨_, s₁, hrun, hrest⟩ := bind_eq_ok.mp h
      obtain ⟨hadv₁, hknown⟩ := henter (hA i (by simp)) hs hrun
      obtain ⟨hadv₂, hall⟩ := ih (fun j hj => hA j (by simp [hj])) hadv₁.sound hrest
      refine ⟨hadv₁.trans hadv₂, ?_⟩
      intro j hj
      rcases List.mem_cons.mp hj with rfl | hj
      · exact hadv₂.grows.knows hknown
      · exact hall j hj

/-- Once all nodes that were promised are entered, nothing is promised that was
not before. -/
theorem enterPromised_ok (henter : Enters r A enter) {ids : List NodeId} {u : Unit}
    (hA : ∀ i ∈ ids, A i) (hs : Sound r A (fun i => W i ∨ i ∈ ids) s)
    (h : ids.forM enter s = .ok u s') : Advances r A W s s' := by
  obtain ⟨hadv, hknown⟩ := enterAll_ok henter hA hs h
  refine ⟨hadv.sound.settle ?_, hadv.grows⟩
  rintro i (hi | hi)
  · exact Or.inr ⟨i, hi, rfl⟩
  · exact Or.inl (hknown i hi)

/-! ## Declared types

A node loses its mark when its body is compiled and is kept right after. In
between it counts as promised, and so does whatever the body expected because
the node was marked. -/

/-- What holds of a marked run that holds of every run, with the node promised
from now on. -/
theorem inProgress_ok {α : Type} {x : CompileM α} {P : α → Prop} {M : Mention → Prop}
    {id : NodeId} {a : α} (hs : Sound r A W s) (hid : id ∉ s.inProgress)
    (hx : ∀ {s s' : CompileState}, Sound r A W s → x s = .ok a s' →
      Advances r A W s s' ∧ P a ∧ ∀ m, M m → s'.Expects W m)
    (h : inProgress id x s = .ok a s') :
    Advances r A (fun i => W i ∨ i = id) s s' ∧ P a ∧
      ∀ m, M m → s'.Expects (fun i => W i ∨ i = id) m := by
  obtain ⟨s₁, hrun, rfl⟩ := inProgress_eq_ok.mp h
  have hmarked : Sound r A W { s with inProgress := s.inProgress.insert id } :=
    hs.remark fun i hi => Or.inl (List.mem_insert_of_mem hi)
  obtain ⟨hadv, hP, hexp⟩ := hx hmarked hrun
  have hmarks : s₁.inProgress = id :: s.inProgress := by
    rw [hadv.grows.inProgress]
    exact List.insert_of_not_mem hid
  have hlost : ∀ i ∈ s₁.inProgress, i ∈ s₁.inProgress.erase id ∨ W i ∨ i = id := by
    intro i hi
    by_cases heq : i = id
    · exact Or.inr (Or.inr heq)
    · exact Or.inl ((List.mem_erase_of_ne heq).mpr hi)
  refine ⟨⟨?_, ?_⟩, hP, ?_⟩
  · exact (hadv.sound.mono fun _ => Or.inl).remark hlost
  · refine ⟨?_, hadv.grows.keeps, hadv.grows.given, hadv.grows.shapes⟩
    show s₁.inProgress.erase id = s.inProgress
    rw [hmarks, List.erase_cons_head]
  · intro m hm
    exact ((hexp m hm).mono fun _ => Or.inl).remark hlost

/-- The nodes there is a reason to compile are closed under what a node leads
to. -/
def Closed (r : Registry) (A : NodeId → Prop) : Prop :=
  ∀ {id other}, A id → r.Leads id (.node other) → A other

theorem objectBody_ok (henter : Enters r A enter) (hclosed : Closed r A) {id : NodeId}
    {n : ObjectNode} {body : List String × OrderedMap String CompiledField}
    (hn : r.node id = .object n) (hA : A id) (hs : Sound r A W s)
    (h : objectBody r enter id s = .ok body s') :
    Advances r A W s s' ∧ Meaning.objectBody r id = .ok body ∧
      ∀ m, r.Leads id m → s'.Expects W m := by
  simp only [objectBody, bind_eq_ok, lift_eq_ok, pure_eq_ok] at h
  obtain ⟨chain, _, ⟨hchain, rfl⟩, names, s₁, hnames, compiled, _, hfields, rfl, rfl⟩ := h
  have hleads {m : Mention} := Registry.leads_object (m := m) hn hchain
  obtain ⟨hadv₁, rfl, hknown⟩ := interfaceNames_ok henter
    (fun i hi => hclosed hA (hleads.mpr (Or.inl ⟨i, hi, rfl⟩))) hs hnames
  obtain ⟨hadv₂, hmeaning, hexp⟩ := fields_ok henter
    (fun i hi => hclosed hA (hleads.mpr (Or.inr hi))) hadv₁.sound hfields
  refine ⟨hadv₁.trans hadv₂, ?_, ?_⟩
  · simp only [Meaning.objectBody, Meaning.bind_eq_ok]
    exact ⟨chain, hchain, compiled, hmeaning, rfl⟩
  · intro m hm
    rcases hleads.mp hm with ⟨i, hi, rfl⟩ | hm
    · exact Or.inl (hadv₂.grows.knows (hknown i hi))
    · exact hexp m hm

theorem objectWith_ok (henter : Enters r A enter) (hclosed : Closed r A) {id : NodeId}
    {c : CompiledObject} (hA : A id) (hid : id ∉ s.inProgress) (hs : Sound r A W s)
    (h : objectWith r enter id s = .ok c s') :
    Advances r A W s s' ∧ Meaning.object r id = .ok c ∧ s'.Keeps id := by
  simp only [objectWith, bind_eq_ok, get_eq_ok] at h
  obtain ⟨_, _, ⟨rfl, rfl⟩, h⟩ := h
  cases hfound : s.objects.find? id with
  | some kept =>
      simp only [hfound] at h
      obtain ⟨rfl, rfl⟩ := pure_eq_ok.mp h
      exact ⟨Advances.refl hs, hs.objects hfound,
        Or.inl (OrderedMap.contains_of_find? hfound)⟩
  | none =>
      cases hn : r.node id with
      | object n =>
          simp only [hfound, hn, bind_eq_ok, keepObject, modify_eq_ok, pure_eq_ok] at h
          obtain ⟨⟨names, compiled⟩, s₁, hrun, _, _, hkeep, rfl, rfl⟩ := h
          obtain ⟨hadv, hbody, hexp⟩ := inProgress_ok (M := r.Leads id)
            (P := fun body => Meaning.objectBody r id = .ok body) hs hid
            (objectBody_ok henter hclosed hn hA) hrun
          have hmeaning : Meaning.object r id =
              .ok ⟨n.metadata.name, n.metadata.description, names, compiled⟩ := by
            simp only [Meaning.object, hn, Meaning.map_eq_ok]
            exact ⟨(names, compiled), hbody, rfl⟩
          obtain ⟨hadv', hkept⟩ := hadv.sound.keepObject hkeep hmeaning hA hexp
          exact ⟨⟨hadv'.sound.fulfil hkept, hadv.grows.trans hadv'.grows⟩, hmeaning, hkept⟩
      | interface _ | inputObject _ | field _ | args _ | arg _ | inputField _
      | implement _ =>
          simp only [hfound, hn] at h
          exact absurd h throw_ne_ok

theorem inputObjectWith_ok (henter : Enters r A enter) (hclosed : Closed r A)
    {id : NodeId} {c : CompiledInputObject} (hA : A id) (hid : id ∉ s.inProgress)
    (hs : Sound r A W s) (h : inputObjectWith r enter id s = .ok c s') :
    Advances r A W s s' ∧ Meaning.inputObject r id = .ok c ∧ s'.Keeps id := by
  simp only [inputObjectWith, bind_eq_ok, get_eq_ok] at h
  obtain ⟨_, _, ⟨rfl, rfl⟩, h⟩ := h
  cases hfound : s.inputObjects.find? id with
  | some kept =>
      simp only [hfound] at h
      obtain ⟨rfl, rfl⟩ := pure_eq_ok.mp h
      exact ⟨Advances.refl hs, hs.inputObjects hfound,
        Or.inr (Or.inr (OrderedMap.contains_of_find? hfound))⟩
  | none =>
      cases hn : r.node id with
      | inputObject n =>
          simp only [hfound, hn, bind_eq_ok, keepInputObject, modify_eq_ok, pure_eq_ok] at h
          obtain ⟨compiled, s₁, hrun, _, _, hkeep, rfl, rfl⟩ := h
          have hleads {m : Mention} := Registry.leads_inputObject (m := m) hn
          obtain ⟨hadv, hbody, hexp⟩ := inProgress_ok
            (M := fun m => ∃ i ∈ n.inputFields, r.InputMentions i m)
            (P := fun compiled => Meaning.inputs r n.metadata.name n.inputFields ∅
              = .ok compiled) hs hid
            (inputs_ok henter fun i hi => hclosed hA (hleads.mpr hi)) hrun
          have hmeaning : Meaning.inputObject r id =
              .ok ⟨n.metadata.name, n.metadata.description, compiled⟩ := by
            simp only [Meaning.inputObject, hn, Meaning.map_eq_ok]
            exact ⟨compiled, hbody, rfl⟩
          obtain ⟨hadv', hkept⟩ := hadv.sound.keepInputObject hkeep hmeaning hA
            fun m hm => hexp m (hleads.mp hm)
          exact ⟨⟨hadv'.sound.fulfil hkept, hadv.grows.trans hadv'.grows⟩, hmeaning, hkept⟩
      | object _ | interface _ | field _ | args _ | arg _ | inputField _ | implement _ =>
          simp only [hfound, hn] at h
          exact absurd h throw_ne_ok

theorem interfaceWith_ok (henter : Enters r A enter) (hclosed : Closed r A) {id : NodeId}
    {c : CompiledInterface} (hA : A id) (hid : id ∉ s.inProgress) (hs : Sound r A W s)
    (h : interfaceWith r enter id s = .ok c s') :
    Advances r A W s s' ∧ Meaning.interface r id = .ok c ∧ s'.Keeps id := by
  simp only [interfaceWith, bind_eq_ok, get_eq_ok] at h
  obtain ⟨_, _, ⟨rfl, rfl⟩, h⟩ := h
  cases hfound : s.interfaces.find? id with
  | some kept =>
      simp only [hfound] at h
      obtain ⟨rfl, rfl⟩ := pure_eq_ok.mp h
      exact ⟨Advances.refl hs, hs.interfaces hfound,
        Or.inr (Or.inl (OrderedMap.contains_of_find? hfound))⟩
  | none =>
      cases hn : r.node id with
      | interface n =>
          simp only [hfound, hn, bind_eq_ok, keepInterface, modify_eq_ok, lift_eq_ok,
            pure_eq_ok] at h
          obtain ⟨compiled, s₁, hrun, d, s₂, hdispatch, _, s₃, hkeep, implementers, _,
            ⟨himpl, rfl⟩, _, _, hall, rfl, rfl⟩ := h
          have hleads {m : Mention} := Registry.leads_interface (m := m) hn himpl
          obtain ⟨hadv₁, hfields, hexp⟩ := inProgress_ok
            (M := fun m => ∃ f ∈ n.fields, r.FieldMentions f m)
            (P := fun compiled => Meaning.fields r n.metadata.name n.fields ∅
              = .ok compiled) hs hid
            (fields_ok henter fun i hi => hclosed hA (hleads.mpr (Or.inl hi))) hrun
          obtain ⟨hadv₂, hd⟩ := interfaceDispatch_ok hadv₁.sound hdispatch
          have hmeaning : Meaning.interface r id =
              .ok ⟨n.metadata.name, n.metadata.description, compiled, d⟩ := by
            simp only [Meaning.interface, hn, Meaning.bind_eq_ok]
            exact ⟨compiled, hfields, d, hd, rfl⟩
          -- From here on the implementers are promised, and then entered.
          have hpromise : ∀ i, W i ∨ i = id → (W i ∨ i ∈ implementers) ∨ i = id :=
            fun i => Or.imp_left Or.inl
          have hexp' : ∀ m, r.Leads id m →
              s₂.Expects (fun i => (W i ∨ i ∈ implementers) ∨ i = id) m := by
            intro m hm
            rcases hleads.mp hm with hm | ⟨i, hi, rfl⟩
            · exact (hadv₂.grows.expects (hexp m hm)).mono hpromise
            · exact Or.inr ⟨i, Or.inl (Or.inr hi), rfl⟩
          obtain ⟨hadv₃, hkept⟩ :=
            (hadv₂.sound.mono hpromise).keepInterface hkeep hmeaning hA hexp'
          have hadv₄ := enterPromised_ok henter
            (fun i hi => hclosed hA (hleads.mpr (Or.inr ⟨i, hi, rfl⟩)))
            (hadv₃.sound.fulfil hkept) hall
          refine ⟨⟨hadv₄.sound, ?_⟩, hmeaning, hadv₄.grows.keeps hkept⟩
          exact hadv₁.grows.trans (hadv₂.grows.trans (hadv₃.grows.trans hadv₄.grows))
      | object _ | inputObject _ | field _ | args _ | arg _ | inputField _
      | implement _ =>
          simp only [hfound, hn] at h
          exact absurd h throw_ne_ok

/-- Entering a node, however deep the nesting may go, does what is asked of
it. -/
theorem compileWithin_ok (hclosed : Closed r A) {depth : Nat} :
    Enters r A (compileWithin r depth) := by
  induction depth with
  | zero =>
      intro W s s' id u _ _ h
      exact absurd h throw_ne_ok
  | succ depth ih =>
      intro W s s' id u hA hs h
      simp only [compileWithin, bind_eq_ok, get_eq_ok] at h
      obtain ⟨_, _, ⟨rfl, rfl⟩, h⟩ := h
      split at h
      · next hmarked =>
          obtain ⟨-, rfl⟩ := pure_eq_ok.mp h
          exact ⟨Advances.refl hs, Or.inl (by simpa using hmarked)⟩
      · next hmarked =>
          have hid : id ∉ s.inProgress := by simpa using hmarked
          cases hn : r.node id with
          | object n =>
              simp only [hn, discard_eq_ok] at h
              obtain ⟨c, h⟩ := h
              obtain ⟨hadv, -, hkept⟩ := objectWith_ok ih hclosed hA hid hs h
              exact ⟨hadv, Or.inr hkept⟩
          | interface n =>
              simp only [hn, discard_eq_ok] at h
              obtain ⟨c, h⟩ := h
              obtain ⟨hadv, -, hkept⟩ := interfaceWith_ok ih hclosed hA hid hs h
              exact ⟨hadv, Or.inr hkept⟩
          | inputObject n =>
              simp only [hn, discard_eq_ok] at h
              obtain ⟨c, h⟩ := h
              obtain ⟨hadv, -, hkept⟩ := inputObjectWith_ok ih hclosed hA hid hs h
              exact ⟨hadv, Or.inr hkept⟩
          | field _ | args _ | arg _ | inputField _ | implement _ =>
              simp only [hn] at h
              exact absurd h throw_ne_ok

theorem enter_ok (hclosed : Closed r A) : Enters r A (Compile.enter r) := by
  intro W s s' id u
  exact compileWithin_ok hclosed

end SchemaGraph.Compile
