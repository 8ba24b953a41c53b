import SchemaGraph.Proofs.Compile.Repeats

/-!
# Types that are built again

Objects, interfaces and input objects are compiled in one way: looked up where they are kept,
else built under a mark, and kept. While a type is marked nothing keeps it, so if building it
fails it is built again the next time. What remains is how a type is finished that was built.
An object and an input object are kept, and that is all. An interface is kept and then its
implementers are compiled, so here a failure leaves something half done.
-/

set_option autoImplicit false

namespace SchemaGraph

open CompileState

variable {r : Registry} {s s' s₁ t : CompileState}

namespace Compile

variable {α β : Type} {M : Mention → Prop} {enter : NodeId → CompileM Unit}

/-! ## Places -/

/-- The place where a node is kept when it is compiled. -/
structure Place (r : Registry) (id : NodeId) (α : Type) where
  find? : CompileState → Option α
  keep : α → CompileState → CompileState
  find?_keep : ∀ a s, find? (keep a s) = some a
  find?_marks : ∀ s marks, find? { s with inProgress := marks } = find? s
  retained : ∀ {s s' a}, Retains r s s' → find? s = some a → find? s' = some a
  marked : ∀ {s s'}, Retains r s s' → id ∈ s.inProgress → find? s' = find? s
  retains : ∀ {s} a, id ∉ s.inProgress → find? s = none → Retains r s (keep a s)

namespace Place

variable {id : NodeId}

def objects (hobject : (r.node id).isObject = true) : Place r id CompiledObject where
  find? s := s.objects.find? id
  keep c s := { s with objects := s.objects.insert id c }
  find?_keep c s := OrderedMap.find?_insert_self s.objects id c
  find?_marks _ _ := rfl
  retained h hc := h.objects hc
  marked h hid := (h.marked hid).1
  retains c hid hfree := .keepObject hid hfree hobject c

def interfaces (r : Registry) (id : NodeId) : Place r id CompiledInterface where
  find? s := s.interfaces.find? id
  keep c s := { s with interfaces := s.interfaces.insert id c }
  find?_keep c s := OrderedMap.find?_insert_self s.interfaces id c
  find?_marks _ _ := rfl
  retained h hc := h.interfaces hc
  marked h hid := (h.marked hid).2.1
  retains c hid hfree := .keepInterface hid hfree c

def inputObjects (r : Registry) (id : NodeId) : Place r id CompiledInputObject where
  find? s := s.inputObjects.find? id
  keep c s := { s with inputObjects := s.inputObjects.insert id c }
  find?_keep c s := OrderedMap.find?_insert_self s.inputObjects id c
  find?_marks _ _ := rfl
  retained h hc := h.inputObjects hc
  marked h hid := (h.marked hid).2.2
  retains c hid hfree := .keepInputObject hid hfree c

/-- A node is not kept while it is marked. -/
theorem unkept (place : Place r id α) (hfree : place.find? s = none)
    (h : Retains r (s.mark id) s') {marks : List NodeId} :
    place.find? { s' with inProgress := marks } = none := by
  rw [place.find?_marks, place.marked h List.mem_insert_self]
  exact (place.find?_marks s _).trans hfree

/-- How a type is finished that was built: it is kept, or refused, or kept and left half done. -/
inductive Finishes (place : Place r id β) (x : CompileM β) (s : CompileState) : Prop
  | kept {b : β} {s' : CompileState} (h : x s = .ok b s') (hext : Retains r s s')
      (hkept : place.find? s' = some b)
  | refused {e : SchemaError} (h : x s = .error e s)
  | halfDone {e : SchemaError} {s' : CompileState} (h : x s = .error e s') (hext : Retains r s s')
      (hopen : e.isEndless = false → HalfDone r (· = .node id) s s')

end Place

/-- A type that is not kept is built with its mark set. While it is marked it is not kept, so
if it fails it is built again. -/
theorem RepeatsAt.build {id : NodeId} (place : Place r id β) {x : CompileM α}
    {rest : α → CompileM β} {y : CompileM β} (hx : Repeats r (r.Leads id) x) (hs : s.Proper r)
    (hid : id ∉ s.inProgress) (hfree : place.find? s = none)
    (hfound : ∀ t b, place.find? t = some b → y t = .ok b t)
    (hbuild : ∀ t, place.find? t = none → y t = (inProgress id x >>= rest) t)
    (hrest : ∀ a t, t.Proper r → id ∉ t.inProgress → place.find? t = none →
      place.Finishes (rest a) t) : RepeatsAt r (· = .node id) y s := by
  have hbuilt := hx (s.mark id) ⟨hs.objects, hs.dispatches⟩
  cases hrun : x (s.mark id) with
  | error e s₁ =>
      have hext := hbuilt.ext_error hrun
      -- the type is not kept where it failed, so it is built again from there
      have hfails : ∀ {e'}, x s₁ = .error e' s₁ →
          y { s₁ with inProgress := s₁.inProgress.erase id } =
            .error e' { s₁ with inProgress := s₁.inProgress.erase id } := by
        intro e' h'
        exact (hbuild _ (place.unkept hfree hext)).trans (bind_eq_error
          (inProgress_eq_error ((congrArg x (hext.mark_unmark hid)).trans h')))
      refine .failed ((hbuild s hfree).trans (bind_eq_error (inProgress_eq_error hrun)))
        (hext.unmark hid) fun hend => ?_
      exact (hbuilt.fails hrun hend).imp (fun ⟨e', h'⟩ => ⟨e', hfails h'⟩) HalfDone.of_mark
  | ok a s₁ =>
      have hext := hbuilt.ext_ok hrun
      have hunmarked := hext.unmark hid
      -- a run that builds the same finishes from the same state
      have hresume : ∀ t, x (t.mark id) = .ok a s₁ → place.find? t = none →
          y t = rest a { s₁ with inProgress := s₁.inProgress.erase id } := by
        intro t ht hfree
        rw [hbuild t hfree]
        show EStateM.bind (inProgress id x) rest t = _
        unfold EStateM.bind
        rw [inProgress_eq_ok.mpr ⟨s₁, ht, rfl⟩]
      have hagain : x (CompileState.mark id
          { s₁ with inProgress := s₁.inProgress.erase id }) = .ok a s₁ := by
        rw [hext.mark_unmark hid]
        exact hbuilt.again hrun (.refl r s₁)
      rcases hrest a _ (hunmarked.proper hs) (hunmarked.inProgress ▸ hid)
          (place.unkept hfree hext) with ⟨h, hext', hkept⟩ | h | ⟨h, hext', hopen⟩
      · exact .answered ((hresume s hrun hfree).trans h) (hunmarked.trans hext') fun t ht =>
          hfound t _ (place.retained ht hkept)
      · exact .failed ((hresume s hrun hfree).trans h) hunmarked fun _ =>
          Or.inl ⟨_, (hresume _ hagain (place.unkept hfree hext)).trans h⟩
      · exact .failed ((hresume s hrun hfree).trans h) (hunmarked.trans hext') fun hend =>
          Or.inr ((hopen hend).of_retains hunmarked)

/-- A type that is built under a mark is not kept by what builds it, whether that succeeds or
fails. -/
theorem Place.find?_inProgress {id : NodeId} (place : Place r id β) {x : CompileM α}
    (hx : Repeats r M x) (hs : s.Proper r) (hfree : place.find? s = none) :
    place.find? (stateAfter (inProgress id x) s) = none := by
  have hbuilt := hx (s.mark id) ⟨hs.objects, hs.dispatches⟩
  cases hrun : x (s.mark id) with
  | ok a s₁ =>
      rw [stateAfter_ok (inProgress_eq_ok.mpr ⟨s₁, hrun, rfl⟩)]
      exact place.unkept hfree (hbuilt.ext_ok hrun)
  | error e s₁ =>
      rw [stateAfter_error (inProgress_eq_error hrun)]
      exact place.unkept hfree (hbuilt.ext_error hrun)

/-- If keeping what was built is all that remains, then a type that fails is not kept. -/
theorem unkept_of_failed {id : NodeId} (place : Place r id β) {x : CompileM α}
    {keep : α → β} {y : CompileM β} {e : SchemaError} (hx : Repeats r M x) (hs : s.Proper r)
    (hfree : place.find? s = none)
    (hbuild : y s = (do
      let a ← inProgress id x
      modify (place.keep (keep a))
      return keep a) s)
    (h : y s = .error e s') : place.find? s' = none := by
  rw [hbuild] at h
  rcases bind_eq_error_iff.mp h with h | ⟨_, _, -, h⟩
  · rw [← stateAfter_error h]
    exact place.find?_inProgress hx hs hfree
  · cases h

section

variable {enter : NodeId → CompileM Unit} {id : NodeId}

theorem objectWith_of_kept {c : CompiledObject} (h : s.objects.find? id = some c) :
    objectWith r enter id s = .ok c s := by
  simp only [objectWith, get_bind, h]
  rfl

theorem objectWith_of_free {n : ObjectNode} (hn : r.node id = .object n)
    (h : s.objects.find? id = none) :
    objectWith r enter id s = (do
      let (interfaces, fields) ← inProgress id (objectBody r enter id)
      let compiled : CompiledObject :=
        ⟨n.metadata.name, n.metadata.description, interfaces, fields⟩
      keepObject id compiled
      return compiled : CompileM CompiledObject) s := by
  simp only [objectWith, get_bind, h, hn]

theorem objectWith_repeats (henter : Enterable r enter) (hs : s.Proper r)
    (hid : id ∉ s.inProgress) : RepeatsAt r (· = .node id) (objectWith r enter id) s := by
  cases hfree : s.objects.find? id with
  | some c =>
      exact .answered (objectWith_of_kept hfree) (.refl r s) fun t ht =>
        objectWith_of_kept (ht.objects hfree)
  | none =>
      cases hn : r.node id with
      | object n =>
          have hobject : (r.node id).isObject = true := by
            simp [hn, Node.isObject, Node.object?]
          refine .build (Place.objects hobject) (Repeats.objectBody henter hn) hs hid hfree
            (fun t c => objectWith_of_kept) (fun t => objectWith_of_free hn)
            fun built t ht hid hfree => ?_
          exact .kept rfl ((Place.objects hobject).retains _ hid hfree)
            ((Place.objects hobject).find?_keep _ t)
      | interface _ | inputObject _ | field _ | args _ | arg _ | inputField _ | implement _ =>
          refine .refused (e := .notAnObject (r.node id).displayName) ?_
          simp only [objectWith, get_bind, hfree, hn]
          rfl

/-- An object that fails is not kept. -/
theorem objectWith_unkept (henter : Enterable r enter) (hs : s.Proper r) {e : SchemaError}
    (h : objectWith r enter id s = .error e s') : s'.objects.find? id = none := by
  cases hfree : s.objects.find? id with
  | some c => cases h.symm.trans (objectWith_of_kept hfree)
  | none =>
      cases hn : r.node id with
      | object n =>
          have hobject : (r.node id).isObject = true := by
            simp [hn, Node.isObject, Node.object?]
          exact unkept_of_failed (Place.objects hobject) (Repeats.objectBody henter hn) hs hfree
            (objectWith_of_free hn hfree) h
      | interface _ | inputObject _ | field _ | args _ | arg _ | inputField _ | implement _ =>
          simp only [objectWith, get_bind, hfree, hn] at h
          cases h
          exact hfree

theorem inputObjectWith_of_kept {c : CompiledInputObject} (h : s.inputObjects.find? id = some c) :
    inputObjectWith r enter id s = .ok c s := by
  simp only [inputObjectWith, get_bind, h]
  rfl

theorem inputObjectWith_of_free {n : InputObjectNode} (hn : r.node id = .inputObject n)
    (h : s.inputObjects.find? id = none) :
    inputObjectWith r enter id s = (do
      let fields ← inProgress id (inputs r enter n.metadata.name n.inputFields ∅)
      let compiled : CompiledInputObject :=
        ⟨n.metadata.name, n.metadata.description, fields⟩
      keepInputObject id compiled
      return compiled : CompileM CompiledInputObject) s := by
  simp only [inputObjectWith, get_bind, h, hn]

theorem inputObjectWith_repeats (henter : Enterable r enter) (hs : s.Proper r)
    (hid : id ∉ s.inProgress) : RepeatsAt r (· = .node id) (inputObjectWith r enter id) s := by
  cases hfree : s.inputObjects.find? id with
  | some c =>
      exact .answered (inputObjectWith_of_kept hfree) (.refl r s) fun t ht =>
        inputObjectWith_of_kept (ht.inputObjects hfree)
  | none =>
      cases hn : r.node id with
      | inputObject n =>
          have hinputs := (Repeats.inputs henter n.metadata.name n.inputFields ∅).mono fun m hm =>
            (Registry.leads_inputObject hn).mpr hm
          refine .build (Place.inputObjects r id) hinputs hs hid hfree
            (fun t c => inputObjectWith_of_kept) (fun t => inputObjectWith_of_free hn)
            fun built t ht hid hfree => ?_
          exact .kept rfl ((Place.inputObjects r id).retains _ hid hfree)
            ((Place.inputObjects r id).find?_keep _ t)
      | object _ | interface _ | field _ | args _ | arg _ | inputField _ | implement _ =>
          refine .refused (e := .typeNotFound (r.node id).displayName) ?_
          simp only [inputObjectWith, get_bind, hfree, hn]
          rfl

/-- An input object that fails is not kept. -/
theorem inputObjectWith_unkept (henter : Enterable r enter) (hs : s.Proper r) {e : SchemaError}
    (h : inputObjectWith r enter id s = .error e s') : s'.inputObjects.find? id = none := by
  cases hfree : s.inputObjects.find? id with
  | some c => cases h.symm.trans (inputObjectWith_of_kept hfree)
  | none =>
      cases hn : r.node id with
      | inputObject n =>
          exact unkept_of_failed (Place.inputObjects r id) (Repeats.inputs henter _ _ _) hs hfree
            (inputObjectWith_of_free hn hfree) h
      | object _ | interface _ | field _ | args _ | arg _ | inputField _ | implement _ =>
          simp only [inputObjectWith, get_bind, hfree, hn] at h
          cases h
          exact hfree

theorem interfaceWith_of_kept {c : CompiledInterface} (h : s.interfaces.find? id = some c) :
    interfaceWith r enter id s = .ok c s := by
  simp only [interfaceWith, get_bind, h]
  rfl

/-- What is done with an interface when its fields are compiled. -/
def finishInterface (r : Registry) (enter : NodeId → CompileM Unit) (id : NodeId)
    (n : InterfaceNode) (fields : OrderedMap String CompiledField) :
    CompileM CompiledInterface := do
  let dispatch ← interfaceDispatch r id
  let compiled : CompiledInterface := ⟨n.metadata.name, n.metadata.description, fields, dispatch⟩
  keepInterface id compiled
  let implementers ← lift (r.implementers id)
  implementers.forM enter
  return compiled

theorem interfaceWith_of_free {n : InterfaceNode} (hn : r.node id = .interface n)
    (h : s.interfaces.find? id = none) :
    interfaceWith r enter id s =
      (inProgress id (fields r enter n.metadata.name n.fields ∅) >>=
        finishInterface r enter id n) s := by
  simp only [interfaceWith, get_bind, h, hn]
  rfl

/-- Of implementers that fail one was not in progress and is not kept. -/
theorem forM_open (henter : Enterable r enter) {ids : List NodeId} {e : SchemaError}
    (hend : e.isEndless = false) : ∀ {s s' : CompileState}, s.Proper r →
      (ids.forM enter : CompileM PUnit) s = .error e s' →
      ∃ i ∈ ids, i ∉ s.inProgress ∧ s'.objects.find? i = none := by
  induction ids with
  | nil =>
      intro s s' _ h
      cases h
  | cons i rest ih =>
      intro s s' hs h
      rcases bind_eq_error_iff.mp h with h | ⟨_, s₁, hrun, h⟩
      · exact ⟨i, List.mem_cons_self, henter.unkept hs h hend⟩
      · have hentered := (henter.repeats i _ hs).ext_ok hrun
        obtain ⟨j, hj, hidle, hopen⟩ := ih (hentered.proper hs) h
        exact ⟨j, List.mem_cons_of_mem _ hj, hentered.inProgress ▸ hidle, hopen⟩

/-- A dispatch table that cannot be made leaves nothing behind. -/
theorem eq_of_interfaceDispatch_error {e : SchemaError}
    (h : interfaceDispatch r id s = .error e s') : s' = s := by
  cases hfound : s.dispatches.find? id with
  | some d =>
      simp only [interfaceDispatch, get_bind, hfound] at h
      cases h
  | none =>
      simp only [interfaceDispatch, get_bind, hfound] at h
      cases himplementers : r.implementers id with
      | error e' =>
          rw [himplementers] at h
          cases h
          rfl
      | ok ids =>
          rw [himplementers] at h
          cases h

/-- A dispatch table that was made is kept. -/
theorem find?_of_interfaceDispatch {d : Dispatch} (h : interfaceDispatch r id s = .ok d s') :
    s'.dispatches.find? id = some d := by
  cases hfound : s.dispatches.find? id with
  | some d' =>
      simp only [interfaceDispatch, get_bind, hfound] at h
      cases h
      exact hfound
  | none =>
      simp only [interfaceDispatch, get_bind, hfound] at h
      cases himplementers : r.implementers id with
      | error e =>
          rw [himplementers] at h
          cases h
      | ok ids =>
          rw [himplementers] at h
          cases h
          exact OrderedMap.find?_insert_self _ _ _

/-- An interface is refused a dispatch table, or it is kept and then its implementers are
compiled. -/
theorem finishInterface_cases (enter : NodeId → CompileM Unit) (n : InterfaceNode)
    (built : OrderedMap String CompiledField) (hs : s.Proper r) (hid : id ∉ s.inProgress)
    (hfree : s.interfaces.find? id = none) :
    (∃ e, finishInterface r enter id n built s = .error e s) ∨
      ∃ (c : CompiledInterface) (ids : List NodeId) (s₁ : CompileState),
        r.implementers id = .ok ids ∧ Retains r s s₁ ∧ s₁.interfaces.find? id = some c ∧
        finishInterface r enter id n built s =
          (do ids.forM enter; return c : CompileM CompiledInterface) s₁ := by
  cases hrun : interfaceDispatch r id s with
  | error e s₁ =>
      obtain rfl := eq_of_interfaceDispatch_error hrun
      exact Or.inl ⟨e, bind_eq_error hrun⟩
  | ok dispatch s₁ =>
      have hinterfaces := Traces.interfaces_after_interfaceDispatch (r := r) (s := s) id
      rw [stateAfter_ok hrun] at hinterfaces
      have hext := (Repeats.interfaceDispatch (M := r.Leads id) id s hs).ext_ok hrun
      obtain ⟨ids, himplementers⟩ := (hext.proper hs).dispatches (find?_of_interfaceDispatch hrun)
      let compiled : CompiledInterface :=
        ⟨n.metadata.name, n.metadata.description, built, dispatch⟩
      have hkeep : Retains r s₁ { s₁ with interfaces := s₁.interfaces.insert id compiled } :=
        .keepInterface (hext.inProgress ▸ hid) (hinterfaces ▸ hfree) compiled
      refine Or.inr ⟨compiled, ids, _, himplementers, hext.trans hkeep,
        OrderedMap.find?_insert_self _ _ _, ?_⟩
      show EStateM.bind (interfaceDispatch r id) _ s = _
      unfold EStateM.bind
      rw [hrun, himplementers]
      rfl

/-- An interface stays kept if its implementers fail. -/
theorem finishInterface_finishes (henter : Enterable r enter) (n : InterfaceNode)
    (built : OrderedMap String CompiledField) (hs : s.Proper r) (hid : id ∉ s.inProgress)
    (hfree : s.interfaces.find? id = none) :
    (Place.interfaces r id).Finishes (finishInterface r enter id n built) s := by
  rcases finishInterface_cases enter n built hs hid hfree with
    ⟨e, h⟩ | ⟨c, ids, s₁, himplementers, hext, hkept, hfinish⟩
  · exact .refused h
  have hentered : RepeatsAt r (fun m => ∃ i ∈ ids, m = .node i) (ids.forM enter) s₁ :=
    Repeats.forM (fun i hi => (henter.repeats i).mono fun m hm => ⟨i, hi, hm⟩) s₁
      (hext.proper hs)
  cases hall : (ids.forM enter : CompileM PUnit) s₁ with
  | ok _ s₂ =>
      have hext' := hentered.ext_ok hall
      exact .kept (hfinish.trans (bind_eq_ok.mpr ⟨_, s₂, hall, rfl⟩)) (hext.trans hext')
        (hext'.interfaces hkept)
  | error e s₂ =>
      have hext' := hentered.ext_error hall
      refine .halfDone (hfinish.trans (bind_eq_error hall)) (hext.trans hext') fun hend => ?_
      obtain ⟨i, hi, hidle, hopen⟩ := forM_open henter hend (hext.proper hs) hall
      exact .interface hfree (hext'.interfaces hkept) (.start rfl) himplementers hi
        (hext.inProgress ▸ hidle) hopen

theorem interfaceWith_repeats (henter : Enterable r enter) (hs : s.Proper r)
    (hid : id ∉ s.inProgress) : RepeatsAt r (· = .node id) (interfaceWith r enter id) s := by
  cases hfree : s.interfaces.find? id with
  | some c =>
      exact .answered (interfaceWith_of_kept hfree) (.refl r s) fun t ht =>
        interfaceWith_of_kept (ht.interfaces hfree)
  | none =>
      cases hn : r.node id with
      | interface n =>
          have hfields := (Repeats.fields henter n.metadata.name n.fields ∅).mono fun m hm =>
            (show r.Leads id m by simp only [Registry.Leads, hn]; exact Or.inl hm)
          exact .build (Place.interfaces r id) hfields hs hid hfree
            (fun t c => interfaceWith_of_kept) (fun t => interfaceWith_of_free hn)
            fun built t ht hid hfree => finishInterface_finishes henter n built ht hid hfree
      | object _ | inputObject _ | field _ | args _ | arg _ | inputField _ | implement _ =>
          refine .refused (e := .notAnInterface (r.node id).displayName (r.node id).displayName) ?_
          simp only [interfaceWith, get_bind, hfree, hn]
          rfl

/-- An interface that fails is not kept, or one of its implementers is not. -/
theorem interfaceWith_open (henter : Enterable r enter) (hs : s.Proper r)
    (hid : id ∉ s.inProgress) {e : SchemaError} (hend : e.isEndless = false)
    (h : interfaceWith r enter id s = .error e s') :
    s'.interfaces.find? id = none ∨ ∃ implementers, r.implementers id = .ok implementers ∧
      ∃ i ∈ implementers, s'.objects.find? i = none := by
  cases hfree : s.interfaces.find? id with
  | some c => cases h.symm.trans (interfaceWith_of_kept hfree)
  | none =>
      cases hn : r.node id with
      | interface n =>
          have hbuild := Repeats.fields henter n.metadata.name n.fields ∅
          have hunkept := (Place.interfaces r id).find?_inProgress hbuild hs hfree
          rw [interfaceWith_of_free hn hfree] at h
          rcases bind_eq_error_iff.mp h with h | ⟨built, s₁, hbuilt, h⟩
          · rw [← stateAfter_error h]
            exact Or.inl hunkept
          rw [stateAfter_ok hbuilt] at hunkept
          obtain ⟨s₂, hrun, rfl⟩ := inProgress_eq_ok.mp hbuilt
          have hext := ((hbuild (s.mark id) ⟨hs.objects, hs.dispatches⟩).ext_ok hrun).unmark hid
          rcases finishInterface_cases enter n built (hext.proper hs)
              (hext.inProgress ▸ hid) hunkept with
            ⟨e', h'⟩ | ⟨c, ids, s₃, himplementers, hext', -, hfinish⟩
          · cases h.symm.trans h'
            exact Or.inl hunkept
          · rw [hfinish] at h
            rcases bind_eq_error_iff.mp h with h | ⟨_, _, -, h⟩
            · obtain ⟨i, hi, -, hopen⟩ :=
                forM_open henter hend (hext'.proper (hext.proper hs)) h
              exact Or.inr ⟨ids, himplementers, i, hi, hopen⟩
            · cases h
      | object _ | inputObject _ | field _ | args _ | arg _ | inputField _ | implement _ =>
          simp only [interfaceWith, get_bind, hfree, hn] at h
          cases h
          exact Or.inl hfree

end

/-- Compile a node that is not in progress. -/
def compileNode (r : Registry) (enter : NodeId → CompileM Unit) (id : NodeId) : CompileM Unit :=
  match r.node id with
  | .object _ => discard (objectWith r enter id)
  | .interface _ => discard (interfaceWith r enter id)
  | .inputObject _ => discard (inputObjectWith r enter id)
  | n => throw (.typeNotFound n.displayName)

theorem compileWithin_of_marked {depth : Nat} {id : NodeId} (hid : id ∈ s.inProgress) :
    compileWithin r (depth + 1) id s = .ok () s := by
  simp only [compileWithin, get_bind, List.contains_iff_mem.mpr hid, if_true]
  rfl

theorem compileWithin_of_unmarked {depth : Nat} {id : NodeId} (hid : id ∉ s.inProgress) :
    compileWithin r (depth + 1) id s = compileNode r (compileWithin r depth) id s := by
  simp only [compileWithin, get_bind, mt List.contains_iff_mem.mp hid]
  rfl

theorem compileNode_repeats (henter : Enterable r enter) (hs : s.Proper r) {id : NodeId}
    (hid : id ∉ s.inProgress) : RepeatsAt r (· = .node id) (compileNode r enter id) s := by
  unfold compileNode
  split
  · exact (objectWith_repeats henter hs hid).discard
  · exact (interfaceWith_repeats henter hs hid).discard
  · exact (inputObjectWith_repeats henter hs hid).discard
  · exact .refused rfl

/-- A node that fails is not kept as an object. -/
theorem compileNode_unkept (henter : Enterable r enter) (hs : s.Proper r) {id : NodeId}
    (hid : id ∉ s.inProgress) {e : SchemaError} (h : compileNode r enter id s = .error e s') :
    s'.objects.find? id = none := by
  have hs' := ((compileNode_repeats henter hs hid).ext_error h).proper hs
  cases hobject : (r.node id).isObject with
  | false => exact hs'.find?_objects hobject
  | true =>
      cases hn : r.node id with
      | object n =>
          have hnode : compileNode r enter id s =
              (Functor.discard (objectWith r enter id) : CompileM Unit) s := by
            simp only [compileNode, hn]
          rw [hnode] at h
          cases hrun : objectWith r enter id s with
          | ok c s₁ => cases h.symm.trans (discard_eq_ok (u := ()) |>.mpr ⟨c, hrun⟩)
          | error e' s₁ =>
              cases h.symm.trans (map_eq_error hrun)
              exact objectWith_unkept henter hs hrun
      | interface _ | inputObject _ | field _ | args _ | arg _ | inputField _ | implement _ =>
          simp [hn, Node.isObject, Node.object?] at hobject

/-- Entering a node, to whatever depth. -/
theorem enterable_compileWithin (r : Registry) (depth : Nat) :
    Enterable r (compileWithin r depth) := by
  induction depth with
  | zero =>
      refine ⟨fun id => Repeats.throw _, fun _ h hend => ?_⟩
      cases h
      cases hend
  | succ depth ih =>
      refine ⟨fun id s hs => ?_, fun {id s e s'} hs h hend => ?_⟩
      · by_cases hid : id ∈ s.inProgress
        · exact .answered (compileWithin_of_marked hid) (.refl r s) fun t ht =>
            compileWithin_of_marked (ht.inProgress ▸ hid)
        · exact (compileNode_repeats ih hs hid).congr fun t ht =>
            compileWithin_of_unmarked (ht ▸ hid)
      · by_cases hid : id ∈ s.inProgress
        · cases h.symm.trans (compileWithin_of_marked hid)
        · rw [compileWithin_of_unmarked hid] at h
          exact ⟨hid, compileNode_unkept ih hs hid h⟩

theorem enterable_enter (r : Registry) : Enterable r (Compile.enter r) :=
  enterable_compileWithin r _

end Compile

end SchemaGraph
