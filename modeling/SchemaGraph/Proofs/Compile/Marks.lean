import SchemaGraph.Proofs.Compile.Failures

/-!
# The discipline of marks

A type is built with its node marked, and kept when the mark is gone. Between requests nothing
is marked, whether they were answered or failed, and what a request finds kept it leaves as it
is. What it keeps more goes where it belongs: objects to the objects, and so on.

That nothing is built that is marked or kept is said of the compiler and not of its results. A
build begins where the node is marked, so that is the place to look: whatever else were done
there with a node that is marked or kept, the compiler would be the same.
-/

set_option autoImplicit false

namespace SchemaGraph

open CompileState Compile

variable {α β : Type} {r : Registry} {s s' : CompileState} {id : NodeId}
  {enter : NodeId → CompileM Unit}

/-! ## Builds -/

namespace Compile

/-- How a node is marked while it is being built. -/
abbrev Marking := (α : Type) → NodeId → CompileM α → CompileM α

/-- Marking as the compiler does it. -/
def plain : Marking := fun _ => inProgress

/-- Marking as the compiler does it, but with something else instead of building a node that is
in progress or kept. -/
def guarded (r : Registry) (instead : (α : Type) → NodeId → CompileM α) : Marking :=
  fun α id build => do
    if (← get).passes r id then instead α id else inProgress id build

def objectBy (r : Registry) (mark : Marking) (enter : NodeId → CompileM Unit) (id : NodeId) :
    CompileM CompiledObject := do
  match (← get).objects.find? id with
  | some compiled => return compiled
  | none =>
    match r.node id with
    | .object n =>
      let (interfaces, fields) ← mark _ id (objectBody r enter id)
      let compiled : CompiledObject :=
        ⟨n.metadata.name, n.metadata.description, interfaces, fields⟩
      keepObject id compiled
      return compiled
    | n => throw (.notAnObject n.displayName)

def interfaceBy (r : Registry) (mark : Marking) (enter : NodeId → CompileM Unit)
    (id : NodeId) : CompileM CompiledInterface := do
  match (← get).interfaces.find? id with
  | some compiled => return compiled
  | none =>
    match r.node id with
    | .interface n =>
      let fields ← mark _ id (fields r enter n.metadata.name n.fields ∅)
      let dispatch ← interfaceDispatch r id
      let compiled : CompiledInterface :=
        ⟨n.metadata.name, n.metadata.description, fields, dispatch⟩
      keepInterface id compiled
      let implementers ← lift (r.implementers id)
      implementers.forM enter
      return compiled
    | n => throw (.notAnInterface n.displayName n.displayName)

def inputObjectBy (r : Registry) (mark : Marking) (enter : NodeId → CompileM Unit)
    (id : NodeId) : CompileM CompiledInputObject := do
  match (← get).inputObjects.find? id with
  | some compiled => return compiled
  | none =>
    match r.node id with
    | .inputObject n =>
      let fields ← mark _ id (inputs r enter n.metadata.name n.inputFields ∅)
      let compiled : CompiledInputObject :=
        ⟨n.metadata.name, n.metadata.description, fields⟩
      keepInputObject id compiled
      return compiled
    | n => throw (.typeNotFound n.displayName)

def compileBy (r : Registry) (mark : Marking) : Nat → NodeId → CompileM Unit
  | 0, id => throw (.endless (r.node id).displayName)
  | depth + 1, id => do
    if (← get).inProgress.contains id then return
    match r.node id with
    | .object _ => discard (objectBy r mark (compileBy r mark depth) id)
    | .interface _ => discard (interfaceBy r mark (compileBy r mark depth) id)
    | .inputObject _ => discard (inputObjectBy r mark (compileBy r mark depth) id)
    | n => throw (.typeNotFound n.displayName)

end Compile

/-- A request to a compiler that marks nodes in its own way. -/
def Request.askMarking (r : Registry) (mark : Marking) (q : Request) : CompileM Answer :=
  let enter := compileBy r mark (r.size + 1)
  match q with
  | .object id => (fun t => .type (.object t)) <$> objectBy r mark enter id
  | .interface id => (fun t => .type (.interface t)) <$> interfaceBy r mark enter id
  | .inputObject id => (fun t => .type (.inputObject t)) <$> inputObjectBy r mark enter id
  | q => q.askBy r enter

namespace Compile

theorem compileBy_plain (r : Registry) (depth : Nat) :
    compileBy r plain depth = compileWithin r depth := by
  induction depth with
  | zero => rfl
  | succ depth ih =>
      funext id
      rw [compileBy, compileWithin, ih]
      rfl

/-- The compiler is the one that marks nodes as it does. -/
theorem askMarking_plain (r : Registry) (q : Request) : q.askMarking r plain = q.ask r := by
  have henter : compileBy r plain (r.size + 1) = Compile.enter r := by
    rw [compileBy_plain]
    rfl
  rw [Request.ask_eq_askBy, ← henter]
  cases q <;> rfl

/-! ### The guard -/

variable {instead : (α : Type) → NodeId → CompileM α}

theorem bind_congr {x y : CompileM α} (h : x s = y s) (f : α → CompileM β) :
    (x >>= f) s = (y >>= f) s := by
  show EStateM.bind x f s = EStateM.bind y f s
  rw [EStateM.bind, EStateM.bind, h]

theorem map_congr {x y : CompileM α} (h : x s = y s) (f : α → β) :
    (f <$> x) s = (f <$> y) s := by
  show EStateM.map f x s = EStateM.map f y s
  rw [EStateM.map, EStateM.map, h]

theorem guarded_eq (hfree : s.passes r id = false) (build : CompileM α) :
    guarded r instead α id build s = inProgress id build s := by
  rw [guarded, get_bind, if_neg (by rw [hfree]; exact Bool.false_ne_true)]

theorem objectBy_guarded (hidle : s.inProgress.contains id = false) :
    objectBy r (guarded r instead) enter id s = objectWith r enter id s := by
  unfold objectBy objectWith
  rw [get_bind, get_bind]
  cases hkept : s.objects.find? id with
  | some c => rfl
  | none =>
      cases hn : r.node id with
      | object n =>
          exact bind_congr (guarded_eq (by simp only [passes, hidle, hn, hkept]; rfl) _) _
      | interface _ | inputObject _ | field _ | args _ | arg _ | inputField _ | implement _ =>
          rfl

theorem interfaceBy_guarded (hidle : s.inProgress.contains id = false) :
    interfaceBy r (guarded r instead) enter id s = interfaceWith r enter id s := by
  unfold interfaceBy interfaceWith
  rw [get_bind, get_bind]
  cases hkept : s.interfaces.find? id with
  | some c => rfl
  | none =>
      cases hn : r.node id with
      | interface n =>
          exact bind_congr (guarded_eq (by simp only [passes, hidle, hn, hkept]; rfl) _) _
      | object _ | inputObject _ | field _ | args _ | arg _ | inputField _ | implement _ => rfl

theorem inputObjectBy_guarded (hidle : s.inProgress.contains id = false) :
    inputObjectBy r (guarded r instead) enter id s = inputObjectWith r enter id s := by
  unfold inputObjectBy inputObjectWith
  rw [get_bind, get_bind]
  cases hkept : s.inputObjects.find? id with
  | some c => rfl
  | none =>
      cases hn : r.node id with
      | inputObject n =>
          exact bind_congr (guarded_eq (by simp only [passes, hidle, hn, hkept]; rfl) _) _
      | object _ | interface _ | field _ | args _ | arg _ | inputField _ | implement _ => rfl

/-- The guard is never needed below: a node that is in progress is not entered. -/
theorem compileBy_guarded (r : Registry) (instead : (α : Type) → NodeId → CompileM α)
    (depth : Nat) : compileBy r (guarded r instead) depth = compileWithin r depth := by
  induction depth with
  | zero => rfl
  | succ depth ih =>
      funext id s
      rw [compileBy, compileWithin, ih, get_bind, get_bind]
      cases hidle : s.inProgress.contains id with
      | true => rfl
      | false =>
          simp only [Bool.false_eq_true, if_false]
          cases r.node id with
          | object n => exact map_congr (objectBy_guarded hidle) _
          | interface n => exact map_congr (interfaceBy_guarded hidle) _
          | inputObject n => exact map_congr (inputObjectBy_guarded hidle) _
          | field _ | args _ | arg _ | inputField _ | implement _ => rfl

/-- It is not needed for what is asked for either, between requests. -/
theorem askMarking_guarded (hs : s.inProgress = [])
    (instead : (α : Type) → NodeId → CompileM α) (q : Request) :
    q.askMarking r (guarded r instead) s = q.ask r s := by
  have hidle : ∀ id, s.inProgress.contains id = false := fun id => by rw [hs]; rfl
  rw [Request.ask_eq_askBy]
  unfold Request.askMarking
  rw [compileBy_guarded]
  cases q with
  | object id => exact map_congr (objectBy_guarded (hidle id)) _
  | interface id => exact map_congr (interfaceBy_guarded (hidle id)) _
  | inputObject id => exact map_congr (inputObjectBy_guarded (hidle id)) _
  | type _ _ | outputType _ _ _ _ | inputType _ _ _ _ | named _ | fieldMap _ _ => rfl

end Compile

/-! ## Caches -/

namespace CompileState

/-- What is kept as an interface or as an input object is one. Of objects and dispatch tables
`Proper` says so. -/
structure Sorted (r : Registry) (s : CompileState) : Prop where
  interfaces : ∀ {id c}, s.interfaces.find? id = some c → (r.node id).isInterface = true
  inputObjects : ∀ {id c}, s.inputObjects.find? id = some c → (r.node id).isInputObject = true

theorem sorted_start (r : Registry) : Sorted r {} := ⟨nofun, nofun⟩

/-- The compiler keeps interfaces and input objects with their kind. -/
theorem traces_sorted (r : Registry) :
    Compile.Traces r fun s s' => s.Sorted r → s'.Sorted r where
  refl _ h := h
  trans h h' hs := h' (h hs)
  shape _ _ _ h := ⟨h.interfaces, h.inputObjects⟩
  dispatch _ _ h := ⟨h.interfaces, h.inputObjects⟩
  scalar _ _ _ h := ⟨h.interfaces, h.inputObjects⟩
  enum _ _ _ h := ⟨h.interfaces, h.inputObjects⟩
  union _ _ _ hmembers h := ⟨(hmembers h).interfaces, (hmembers h).inputObjects⟩
  marked _ hbuilt h :=
    have h' := hbuilt ⟨h.interfaces, h.inputObjects⟩
    ⟨h'.interfaces, h'.inputObjects⟩
  object _ _ _ _ hbuilt h :=
    have h' := hbuilt ⟨h.interfaces, h.inputObjects⟩
    ⟨h'.interfaces, h'.inputObjects⟩
  interface _ _ hid _ hbuilt hdispatch _ h :=
    have h' := hbuilt ⟨h.interfaces, h.inputObjects⟩
    have h'' := hdispatch ⟨h'.interfaces, h'.inputObjects⟩
    ⟨OrderedMap.forall_find?_insert (P := fun id _ => (r.node id).isInterface = true)
      h''.interfaces hid, h''.inputObjects⟩
  inputObject _ _ hid _ hbuilt h :=
    have h' := hbuilt ⟨h.interfaces, h.inputObjects⟩
    ⟨h'.interfaces, OrderedMap.forall_find?_insert
      (P := fun id _ => (r.node id).isInputObject = true) h'.inputObjects hid⟩

theorem Visits.sorted (h : Visits r {} s) : s.Sorted r := by
  induction h with
  | refl => exact sorted_start r
  | tail hvisits hask ih =>
      obtain ⟨q, rfl⟩ := hask
      exact q.traced (traces_sorted r) (Visits.idle hvisits).2 ih

theorem Visits.after (h : Visits r {} s) (q : Request) : Visits r {} (q.after r s) :=
  h.tail ⟨q, rfl⟩

/-- Only interfaces have implementers. -/
theorem Proper.isInterface (h : s.Proper r) {d : Dispatch} (hd : s.dispatches.find? id = some d) :
    (r.node id).isInterface = true := by
  obtain ⟨ids, hids⟩ := h.dispatches hd
  unfold Registry.implementers at hids
  cases hn : r.node id with
  | interface n => rfl
  | object _ | inputObject _ | field _ | args _ | arg _ | inputField _ | implement _ =>
      rw [hn] at hids
      cases hids

/-- In the second state there is everything that the first has kept of declared types, with the
same value. -/
structure KeepsAll (s s' : CompileState) : Prop where
  objects : ∀ id c, s.objects.find? id = some c → s'.objects.find? id = some c
  interfaces : ∀ id c, s.interfaces.find? id = some c → s'.interfaces.find? id = some c
  inputObjects : ∀ id c, s.inputObjects.find? id = some c → s'.inputObjects.find? id = some c
  dispatches : ∀ id d, s.dispatches.find? id = some d → s'.dispatches.find? id = some d

/-- Everything that is kept of declared types is kept for a node of the right kind. -/
structure InPlace (r : Registry) (s : CompileState) : Prop where
  objects : ∀ id c, s.objects.find? id = some c → (r.node id).isObject = true
  interfaces : ∀ id c, s.interfaces.find? id = some c → (r.node id).isInterface = true
  inputObjects : ∀ id c, s.inputObjects.find? id = some c → (r.node id).isInputObject = true
  dispatches : ∀ id d, s.dispatches.find? id = some d → (r.node id).isInterface = true

end CompileState

/-- Whatever a new compiler has been asked, and whether or not it could answer, after the next
request nothing is marked, what was kept is kept with the same value, and all that is kept is in
its place. While the request is answered no node is built that is in progress or kept: it would
make no difference if something else were done with such a node instead. -/
theorem Request.keeps_discipline (hs : Visits r {} s) (q : Request) :
    (q.after r s).inProgress = [] ∧ KeepsAll s (q.after r s) ∧ InPlace r (q.after r s) ∧
      q.askMarking r plain = q.ask r ∧
      ∀ instead, q.askMarking r (guarded r instead) s = q.ask r s := by
  obtain ⟨hproper, hidle⟩ := hs.idle
  obtain ⟨hproper', hidle'⟩ := (hs.after q).idle
  have hretains : Retains r s (q.after r s) := by
    rw [Request.after_eq_stateAfter]
    exact (q.ask_repeats hproper hidle).ext
  have hsorted := (hs.after q).sorted
  exact ⟨hidle',
    ⟨fun _ _ => hretains.objects, fun _ _ => hretains.interfaces,
      fun _ _ => hretains.inputObjects, fun _ _ => hretains.dispatches⟩,
    ⟨fun _ _ => hproper'.objects, fun _ _ => hsorted.interfaces,
      fun _ _ => hsorted.inputObjects, fun _ _ => hproper'.isInterface⟩,
    askMarking_plain r q, fun instead => askMarking_guarded hidle instead q⟩

namespace Unowned

/-- A user fails, and leaves the entities behind, in their place. They are not built again when
they are asked for. -/
theorem entity_not_built_again :
    (Request.object 4).isAnswered registry {} = false ∧
      ((Request.object 4).after registry {}).interfaces.contains 1 = true ∧
      InPlace registry ((Request.interface 1).after registry
        ((Request.object 4).after registry {})) ∧
      ∀ instead, (Request.interface 1).askMarking registry (guarded registry instead)
        ((Request.object 4).after registry {}) =
          (Request.interface 1).ask registry ((Request.object 4).after registry {}) := by
  obtain ⟨-, -, hplace, -, hguarded⟩ := Request.keeps_discipline
    ((Visits.after .refl (.object 4) : Visits registry {} _)) (.interface 1)
  exact ⟨user_fails.1, entity_kept, hplace, hguarded⟩

end Unowned

end SchemaGraph
