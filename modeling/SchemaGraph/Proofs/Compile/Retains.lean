import SchemaGraph.Proofs.Compile.Halting

/-!
# What a run keeps

A run of the compiler adds to what is kept and changes nothing of it, whether it answers or
fails, and keeps nothing for a node that is in progress. So what can be said of a failed run is
what it kept before it failed. Mostly that is finished: a type is kept when it is built, with
everything it needs. There are three exceptions. An interface is kept before its implementers
are compiled; a union is kept by a member that mentions it, while the members are being
compiled; and the shape of an input is entered before it is filled.
-/

set_option autoImplicit false

namespace SchemaGraph

variable {r : Registry} {s s' s₁ t : CompileState}

namespace CompileState

/-- Only objects are kept as objects, and only interfaces whose implementers are known have a
dispatch table. -/
structure Proper (r : Registry) (s : CompileState) : Prop where
  objects : ∀ {id c}, s.objects.find? id = some c → (r.node id).isObject = true
  dispatches : ∀ {id d}, s.dispatches.find? id = some d → ∃ ids, r.implementers id = .ok ids

theorem Proper.start (r : Registry) : Proper r {} := by
  refine ⟨fun h => ?_, fun h => ?_⟩
  · rw [OrderedMap.find?_empty] at h
    cases h
  · rw [OrderedMap.find?_empty] at h
    cases h

theorem Proper.find?_objects (h : s.Proper r) {id : NodeId} (hid : (r.node id).isObject = false) :
    s.objects.find? id = none := by
  cases hfound : s.objects.find? id with
  | none => rfl
  | some c =>
      rw [h.objects hfound] at hid
      cases hid

/-- What a run does to its state, whether it answers or fails: everything kept stays as it is,
and nothing is kept for a node in progress. A union that is kept has members that could be
looked up. -/
structure Retains (r : Registry) (s s' : CompileState) : Prop where
  inProgress : s'.inProgress = s.inProgress
  objects : ∀ {id c}, s.objects.find? id = some c → s'.objects.find? id = some c
  interfaces : ∀ {id c}, s.interfaces.find? id = some c → s'.interfaces.find? id = some c
  inputObjects : ∀ {id c}, s.inputObjects.find? id = some c → s'.inputObjects.find? id = some c
  dispatches : ∀ {id d}, s.dispatches.find? id = some d → s'.dispatches.find? id = some d
  shapes : ∀ {id shape?}, s.shapes.find? id = some shape? → s'.shapes.find? id = some shape?
  given : ∀ {name t}, s.given.find? name = some t → s'.given.find? name = some t
  unionMembers : ∀ {name}, s.given.find? name ≠ none →
    s'.unionMembers.find? name = s.unionMembers.find? name
  marked : ∀ {id}, id ∈ s.inProgress → s'.objects.find? id = s.objects.find? id ∧
    s'.interfaces.find? id = s.interfaces.find? id ∧
    s'.inputObjects.find? id = s.inputObjects.find? id
  registered : ∀ {name u}, s.given.find? name = none → s'.given.find? name = some (.union u) →
    ∃ members tables, s'.unionMembers.find? name = some members ∧
      Meaning.unionMembers r members = .ok tables
  proper : s.Proper r → s'.Proper r

namespace Retains

theorem refl (r : Registry) (s : CompileState) : Retains r s s where
  inProgress := rfl
  objects h := h
  interfaces h := h
  inputObjects h := h
  dispatches h := h
  shapes h := h
  given h := h
  unionMembers _ := rfl
  marked _ := ⟨rfl, rfl, rfl⟩
  registered hfree h := by
    rw [hfree] at h
    cases h
  proper h := h

theorem given_ne_none (h : Retains r s s') {name : String} (hs : s.given.find? name ≠ none) :
    s'.given.find? name ≠ none := by
  obtain ⟨t, ht⟩ := Option.ne_none_iff_exists'.mp hs
  rw [h.given ht]
  exact Option.some_ne_none _

theorem trans (h : Retains r s s') (h' : Retains r s' t) : Retains r s t where
  inProgress := h'.inProgress.trans h.inProgress
  objects ho := h'.objects (h.objects ho)
  interfaces hi := h'.interfaces (h.interfaces hi)
  inputObjects hi := h'.inputObjects (h.inputObjects hi)
  dispatches hd := h'.dispatches (h.dispatches hd)
  shapes hs := h'.shapes (h.shapes hs)
  given hg := h'.given (h.given hg)
  unionMembers hs := (h'.unionMembers (h.given_ne_none hs)).trans (h.unionMembers hs)
  marked hid := by
    obtain ⟨ho, hi, hin⟩ := h.marked hid
    obtain ⟨ho', hi', hin'⟩ := h'.marked (h.inProgress ▸ hid)
    exact ⟨ho'.trans ho, hi'.trans hi, hin'.trans hin⟩
  registered {name u} hfree hu := by
    cases hmid : s'.given.find? name with
    | none => exact h'.registered hmid hu
    | some kept =>
        have hmid' := h'.given hmid
        rw [hu, Option.some.injEq] at hmid'
        subst hmid'
        rw [h'.unionMembers (by rw [hmid]; exact Option.some_ne_none _)]
        exact h.registered hfree hmid
  proper hs := h'.proper (h.proper hs)

/-! ### One thing more is kept -/

theorem keepDispatch {id : NodeId} (d : Dispatch) (hfree : s.dispatches.find? id = none)
    {ids : List NodeId} (himplementers : r.implementers id = .ok ids) :
    Retains r s { s with dispatches := s.dispatches.insert id d } where
  inProgress := rfl
  objects h := h
  interfaces h := h
  inputObjects h := h
  dispatches h := OrderedMap.find?_insert_of_free hfree h
  shapes h := h
  given h := h
  unionMembers _ := rfl
  marked _ := ⟨rfl, rfl, rfl⟩
  registered := (refl r s).registered
  proper hs := ⟨hs.objects, fun h => OrderedMap.forall_find?_insert
    (P := fun id _ => ∃ ids, r.implementers id = .ok ids) hs.dispatches ⟨ids, himplementers⟩ h⟩

/-- A scalar or an enum. -/
theorem keepGiven {t : CompiledType} (hfree : s.given.find? t.name = none)
    (ht : ∀ u, t ≠ .union u) : Retains r s { s with given := s.given.insert t.name t } where
  inProgress := rfl
  objects h := h
  interfaces h := h
  inputObjects h := h
  dispatches h := h
  shapes h := h
  given h := OrderedMap.find?_insert_of_free hfree h
  unionMembers _ := rfl
  marked _ := ⟨rfl, rfl, rfl⟩
  registered {name u} hname h := by
    rw [OrderedMap.find?_insert] at h
    split at h
    · exact absurd (Option.some.inj h) (ht u)
    · rw [hname] at h
      cases h
  proper hs := ⟨hs.objects, hs.dispatches⟩

/-- A union, whose name was free before its members were compiled. -/
theorem keepUnion (h : Retains r s s') {members : List HostType} {u : CompiledUnion}
    (hfree : s.given.find? u.name = none)
    {tables : List (HostType × String) × List (HostType × String)}
    (hmembers : Meaning.unionMembers r members = .ok tables) :
    Retains r s { s' with
      unionMembers := s'.unionMembers.insert u.name members
      given := s'.given.insert u.name (.union u) } where
  inProgress := h.inProgress
  objects := h.objects
  interfaces := h.interfaces
  inputObjects := h.inputObjects
  dispatches := h.dispatches
  shapes := h.shapes
  given {name t} ht := by
    rw [OrderedMap.find?_insert, if_neg (OrderedMap.ne_of_free hfree ht)]
    exact h.given ht
  unionMembers {name} hname := by
    rw [OrderedMap.find?_insert, if_neg]
    · exact h.unionMembers hname
    · rintro rfl
      exact hname hfree
  marked := h.marked
  registered {name v} hname hv := by
    rw [OrderedMap.find?_insert] at hv ⊢
    split at hv
    · next heq => exact ⟨members, tables, if_pos heq, hmembers⟩
    · next hne =>
        rw [if_neg hne]
        exact h.registered hname hv
  proper hs := ⟨(h.proper hs).objects, (h.proper hs).dispatches⟩

theorem keepShape {id : NodeId} (h : Retains r s s') (hfree : s.shapes.find? id = none)
    (shape? : Option InputObjectShape) :
    Retains r s { s' with shapes := s'.shapes.insert id shape? } where
  inProgress := h.inProgress
  objects := h.objects
  interfaces := h.interfaces
  inputObjects := h.inputObjects
  dispatches := h.dispatches
  shapes hs := by
    rw [OrderedMap.find?_insert, if_neg (OrderedMap.ne_of_free hfree hs)]
    exact h.shapes hs
  given := h.given
  unionMembers := h.unionMembers
  marked := h.marked
  registered := h.registered
  proper hs := ⟨(h.proper hs).objects, (h.proper hs).dispatches⟩

/-- A mark that is taken away was only for the run in between. -/
theorem unmark {id : NodeId} (hid : id ∉ s.inProgress) (h : Retains r (s.mark id) s') :
    Retains r s { s' with inProgress := s'.inProgress.erase id } where
  inProgress := by
    have hmarks : s'.inProgress = s.inProgress.insert id := h.inProgress
    show s'.inProgress.erase id = s.inProgress
    rw [hmarks, List.insert_of_not_mem hid, List.erase_cons_head]
  objects := h.objects
  interfaces := h.interfaces
  inputObjects := h.inputObjects
  dispatches := h.dispatches
  shapes := h.shapes
  given := h.given
  unionMembers := h.unionMembers
  marked hi := h.marked (List.mem_insert_of_mem hi)
  registered := h.registered
  proper hs := by
    have hs' := h.proper ⟨hs.objects, hs.dispatches⟩
    exact ⟨hs'.objects, hs'.dispatches⟩

theorem keepObject {id : NodeId} (hid : id ∉ s.inProgress) (hfree : s.objects.find? id = none)
    (hobject : (r.node id).isObject = true) (c : CompiledObject) :
    Retains r s { s with objects := s.objects.insert id c } where
  inProgress := rfl
  objects h := OrderedMap.find?_insert_of_free hfree h
  interfaces h := h
  inputObjects h := h
  dispatches h := h
  shapes h := h
  given h := h
  unionMembers _ := rfl
  marked {i} hi := by
    refine ⟨?_, rfl, rfl⟩
    rw [OrderedMap.find?_insert, if_neg (ne_of_mem_of_not_mem hi hid)]
  registered := (refl r s).registered
  proper hs := ⟨fun h => OrderedMap.forall_find?_insert
    (P := fun id _ => (r.node id).isObject = true) hs.objects hobject h, hs.dispatches⟩

theorem keepInterface {id : NodeId} (hid : id ∉ s.inProgress)
    (hfree : s.interfaces.find? id = none) (c : CompiledInterface) :
    Retains r s { s with interfaces := s.interfaces.insert id c } where
  inProgress := rfl
  objects h := h
  interfaces h := OrderedMap.find?_insert_of_free hfree h
  inputObjects h := h
  dispatches h := h
  shapes h := h
  given h := h
  unionMembers _ := rfl
  marked {i} hi := by
    refine ⟨rfl, ?_, rfl⟩
    rw [OrderedMap.find?_insert, if_neg (ne_of_mem_of_not_mem hi hid)]
  registered := (refl r s).registered
  proper hs := ⟨hs.objects, hs.dispatches⟩

theorem keepInputObject {id : NodeId} (hid : id ∉ s.inProgress)
    (hfree : s.inputObjects.find? id = none) (c : CompiledInputObject) :
    Retains r s { s with inputObjects := s.inputObjects.insert id c } where
  inProgress := rfl
  objects h := h
  interfaces h := h
  inputObjects h := OrderedMap.find?_insert_of_free hfree h
  dispatches h := h
  shapes h := h
  given h := h
  unionMembers _ := rfl
  marked {i} hi := by
    refine ⟨rfl, rfl, ?_⟩
    rw [OrderedMap.find?_insert, if_neg (ne_of_mem_of_not_mem hi hid)]
  registered := (refl r s).registered
  proper hs := ⟨hs.objects, hs.dispatches⟩

end Retains

/-- The state in which a type was built is the one without its mark, marked again. -/
theorem Retains.mark_unmark {id : NodeId} (hid : id ∉ s.inProgress)
    (h : Retains r (s.mark id) s') :
    mark id { s' with inProgress := s'.inProgress.erase id } = s' := by
  have hmarks : s'.inProgress = s.inProgress.insert id := h.inProgress
  have hunmarked : s'.inProgress.erase id = s.inProgress := h.unmark hid |>.inProgress
  unfold mark
  simp only [hunmarked, ← hmarks]

end CompileState

/-! ## What a run has not finished -/

/-- What a run comes to that starts from the mentions `M`, on ways that do not go on from the
node `i`. -/
inductive Registry.MeetsAround (r : Registry) (i : NodeId) (M : Mention → Prop) : Mention → Prop
  | start {m : Mention} (h : M m) : MeetsAround r i M m
  | next {id : NodeId} {m : Mention} (h : MeetsAround r i M (.node id)) (hid : id ≠ i)
      (hm : r.Leads id m) : MeetsAround r i M m

namespace Registry.MeetsAround

variable {i id : NodeId} {M N : Mention → Prop} {m : Mention}

theorem mono (h : r.MeetsAround i M m) (hMN : ∀ m, M m → N m) : r.MeetsAround i N m := by
  induction h with
  | start h => exact .start (hMN _ h)
  | next _ hid hm ih => exact .next ih hid hm

theorem of_leads (h : r.MeetsAround i (r.Leads id) m) (hid : id ≠ i) :
    r.MeetsAround i (· = .node id) m := by
  induction h with
  | start h => exact .next (.start rfl) hid h
  | next _ hid' hm ih => exact .next ih hid' hm

/-- From the node itself there is no way around it. -/
theorem eq_of_self (h : r.MeetsAround i (· = .node i) m) : m = .node i := by
  induction h with
  | start h => exact h
  | next _ hid _ ih => exact absurd (Mention.node.inj ih) hid

end Registry.MeetsAround

namespace CompileState

variable {M N : Mention → Prop}

/-- Something that a run from the mentions `M` has kept and not finished: an interface without
one of its implementers, a union without one of its members, or a shape that is not filled. The
run came to the interface or the union on a way around the object that is missing, and this was
not in progress. -/
inductive HalfDone (r : Registry) (M : Mention → Prop) (s s' : CompileState) : Prop
  | interface {id i : NodeId} {c : CompiledInterface} {implementers : List NodeId}
      (hnew : s.interfaces.find? id = none) (hkept : s'.interfaces.find? id = some c)
      (hmet : r.MeetsAround i M (.node id)) (himplementers : r.implementers id = .ok implementers)
      (hi : i ∈ implementers) (hidle : i ∉ s.inProgress) (hopen : s'.objects.find? i = none)
  | union {name : String} {u : CompiledUnion} {members : List HostType} {T : HostType}
      {i : NodeId} (hnew : s.given.find? name = none)
      (hkept : s'.given.find? name = some (.union u)) (hmet : r.MeetsAround i M (.given name))
      (hmembers : s'.unionMembers.find? name = some members) (hT : T ∈ members)
      (hi : r.getNode T = .ok i) (hidle : i ∉ s.inProgress) (hopen : s'.objects.find? i = none)
  | shape {id : NodeId} (hnew : s.shapes.find? id = none)
      (hopen : s'.shapes.find? id = some none)

namespace HalfDone

theorem mono (h : HalfDone r M s s') (hMN : ∀ m, M m → N m) : HalfDone r N s s' := by
  cases h with
  | interface hnew hkept hmet himplementers hi hidle hopen =>
      exact .interface hnew hkept (hmet.mono hMN) himplementers hi hidle hopen
  | union hnew hkept hmet hmembers hT hi hidle hopen =>
      exact .union hnew hkept (hmet.mono hMN) hmembers hT hi hidle hopen
  | shape hnew hopen => exact .shape hnew hopen

/-- What is new after a run is new after a longer one. -/
theorem of_retains (h : HalfDone r M s' t) (hext : Retains r s s') : HalfDone r M s t := by
  cases h with
  | interface hnew hkept hmet himplementers hi hidle hopen =>
      refine .interface ?_ hkept hmet himplementers hi (hext.inProgress ▸ hidle) hopen
      exact Option.eq_none_iff_forall_ne_some.mpr fun c hc => by
        rw [hext.interfaces hc] at hnew
        cases hnew
  | union hnew hkept hmet hmembers hT hi hidle hopen =>
      refine .union ?_ hkept hmet hmembers hT hi (hext.inProgress ▸ hidle) hopen
      exact Option.eq_none_iff_forall_ne_some.mpr fun c hc => by
        rw [hext.given hc] at hnew
        cases hnew
  | shape hnew hopen =>
      refine .shape ?_ hopen
      exact Option.eq_none_iff_forall_ne_some.mpr fun c hc => by
        rw [hext.shapes hc] at hnew
        cases hnew

/-- What a type leads to is met by coming to the type, and not by way of what is missing, which
cannot be the type itself while it is marked. -/
theorem of_mark {id : NodeId} {marks : List NodeId} (h : HalfDone r (r.Leads id) (s.mark id) s') :
    HalfDone r (· = .node id) s { s' with inProgress := marks } := by
  have hapart : ∀ {i}, i ∉ (s.mark id).inProgress → id ≠ i ∧ i ∉ s.inProgress := by
    intro i hi
    refine ⟨?_, fun hmem => hi (List.mem_insert_of_mem hmem)⟩
    rintro rfl
    exact hi List.mem_insert_self
  cases h with
  | interface hnew hkept hmet himplementers hi hidle hopen =>
      obtain ⟨hne, hidle⟩ := hapart hidle
      exact .interface hnew hkept (hmet.of_leads hne) himplementers hi hidle hopen
  | union hnew hkept hmet hmembers hT hi hidle hopen =>
      obtain ⟨hne, hidle⟩ := hapart hidle
      exact .union hnew hkept (hmet.of_leads hne) hmembers hT hi hidle hopen
  | shape hnew hopen => exact .shape hnew hopen

end HalfDone

end CompileState

end SchemaGraph
